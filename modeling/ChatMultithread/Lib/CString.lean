import Mathlib.Algebra.Ring.Nat
import Mathlib.Data.List.TakeWhile
import Mathlib.Data.List.TakeDrop

/-!
# C strings as byte lists

A NUL-terminated string is the list of the bytes before its NUL, and a `char` buffer that is
only ever used as a string is the string it holds. The functions are those of the C library, on
such lists: what they write is the string left in the buffer, a pointer into a string is the
part of the string behind it, and a null pointer is `none`.
-/

namespace ChatMultithread.Lib

/-- A string of `char`s. -/
abbrev Bytes := List UInt8

/-- The bytes of an ASCII literal. -/
def ascii (s : String) : Bytes := s.toList.map fun c => UInt8.ofNat c.toNat

/-- The string a buffer holds: its bytes before the first NUL. -/
def cstr (buf : Bytes) : Bytes := buf.takeWhile (· ≠ 0)

/-- `snprintf(out, n, "%s", s)` leaves the first `n - 1` bytes of `s` in `out`. -/
def snprintf (n : Nat) (s : Bytes) : Bytes := s.take (n - 1)

/-- `strncpy(dst, src, n)` into a zero-filled buffer of more than `n` bytes. -/
def strncpy (n : Nat) (src : Bytes) : Bytes := src.take n

/-- `strchr(s, ch)`, as the part of the string before the first `ch` and the part behind it. -/
def strchr (ch : UInt8) : Bytes → Option (Bytes × Bytes)
  | [] => none
  | b :: s => if b = ch then some ([], s) else (strchr ch s).map fun p => (b :: p.1, p.2)

/-- One call of `strtok` with the single delimiter `ch`, on what the calls before it left: the
    delimiters in front are skipped, and the token runs up to the next one. -/
def strtok (ch : UInt8) (s : Bytes) : Option (Bytes × Bytes) :=
  match s.dropWhile (· = ch) with
  | [] => none
  | b :: s' =>
      match strchr ch (b :: s') with
      | none => some (b :: s', [])
      | some p => some p

/-- `s[strcspn(s, ch)] = '\0'` with a single reject character. -/
def strcspnCut (ch : UInt8) (s : Bytes) : Bytes := s.takeWhile (· ≠ ch)

@[simp] theorem snprintf_of_lt {n : Nat} {s : Bytes} (h : s.length < n) : snprintf n s = s :=
  List.take_of_length_le (by omega)

theorem length_snprintf_le (n : Nat) (s : Bytes) : (snprintf n s).length ≤ n - 1 :=
  List.length_take_le _ _

@[simp] theorem strncpy_of_le {n : Nat} {s : Bytes} (h : s.length ≤ n) : strncpy n s = s :=
  List.take_of_length_le h

@[simp] theorem strcspnCut_of_not_mem {ch : UInt8} {s : Bytes} (h : ch ∉ s) :
    strcspnCut ch s = s := by
  refine List.takeWhile_eq_self_iff.2 fun b hb => ?_
  simpa using fun e : b = ch => h (e ▸ hb)

theorem strcspnCut_append {ch : UInt8} {s : Bytes} (h : ch ∉ s) (t : Bytes) :
    strcspnCut ch (s ++ ch :: t) = s := by
  have hs : ∀ b ∈ s, decide (b ≠ ch) = true := fun b hb =>
    decide_eq_true fun e => h (e ▸ hb)
  rw [strcspnCut, List.takeWhile_append_of_pos hs, List.takeWhile_cons_of_neg (by simp), List.append_nil]

theorem not_mem_strcspnCut (ch : UInt8) (s : Bytes) : ch ∉ strcspnCut ch s := fun h => by
  simpa using List.mem_takeWhile_imp h

theorem cstr_of_not_mem {s : Bytes} (h : 0 ∉ s) : cstr s = s := by
  refine List.takeWhile_eq_self_iff.2 fun b hb => ?_
  simpa using fun e : b = 0 => h (e ▸ hb)

theorem length_cstr_le (buf : Bytes) : (cstr buf).length ≤ buf.length :=
  (List.takeWhile_prefix _).length_le

theorem strchr_eq_none {ch : UInt8} {s : Bytes} : strchr ch s = none ↔ ch ∉ s := by
  induction s with
  | nil => simp [strchr]
  | cons b s ih =>
    by_cases hb : b = ch
    · simp [strchr, hb]
    · simp [strchr, hb, ih, Ne.symm hb]

theorem strchr_append {ch : UInt8} {s : Bytes} (h : ch ∉ s) (t : Bytes) :
    strchr ch (s ++ ch :: t) = some (s, t) := by
  induction s with
  | nil => simp [strchr]
  | cons b s ih =>
    obtain ⟨hb, hs⟩ := not_or.1 (List.mem_cons.not.1 h)
    simp [strchr, Ne.symm hb, ih hs]

theorem strchr_eq_some {ch : UInt8} {s a b : Bytes} (h : strchr ch s = some (a, b)) :
    s = a ++ ch :: b ∧ ch ∉ a := by
  induction s generalizing a with
  | nil => cases h
  | cons c s ih =>
    rw [strchr] at h
    split at h
    · rename_i hc
      cases h
      rw [hc]
      exact ⟨rfl, List.not_mem_nil⟩
    · rename_i hc
      obtain ⟨⟨a', b'⟩, hp, heq⟩ := Option.map_eq_some_iff.1 h
      cases heq
      obtain ⟨rfl, hnot⟩ := ih hp
      refine ⟨rfl, ?_⟩
      rw [List.mem_cons, not_or]
      exact ⟨Ne.symm hc, hnot⟩

theorem strtok_append {ch : UInt8} {s : Bytes} (hne : s ≠ []) (h : ch ∉ s) (t : Bytes) :
    strtok ch (s ++ ch :: t) = some (s, t) := by
  obtain ⟨b, s, rfl⟩ := List.exists_cons_of_ne_nil hne
  have hb : b ≠ ch := fun e => h (e ▸ List.mem_cons_self)
  have := strchr_append h t
  simp only [List.cons_append] at this ⊢
  simp [strtok, hb, this]

theorem strtok_last {ch : UInt8} {s : Bytes} (hne : s ≠ []) (h : ch ∉ s) :
    strtok ch s = some (s, []) := by
  obtain ⟨b, s, rfl⟩ := List.exists_cons_of_ne_nil hne
  have hb : b ≠ ch := fun e => h (e ▸ List.mem_cons_self)
  simp [strtok, hb, strchr_eq_none.2 h]

end ChatMultithread.Lib
