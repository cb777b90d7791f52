import ChatMultithread.Common.Parser
import ChatMultithread.Lib.CInt
import ChatMultithread.Lib.Memory

/-!
# `proto_build` in memory

`src/include/protocol.h`, with the types of the source: `n` is an `int`, `buf_size - (size_t)n` is a
subtraction of `size_t`s, and a `snprintf` writes at `buf + n`, wherever that is. Addresses are
relative to `buf`.
-/

namespace ChatMultithread.Machine

open Lib

/-- `snprintf(s, size, ...)` of the text `out`: the part of it that there is room for and a NUL. It
    returns the length of the text, and fails when the length is not an `int`. -/
def snprintf (m : Memory UInt8) (s : Int) (size : Nat) (out : Bytes) : Memory UInt8 × Int :=
  (if size = 0 then m else store m s (out.take (size - 1) ++ [0]),
    if out.length ≤ intMax then out.length else -1)

/-- The variables of `proto_build`, with the address and the size of every `snprintf` so far. -/
structure Build where
  mem : Memory UInt8
  n : Int
  calls : List (Int × Nat)

/-- `n += snprintf(buf + n, buf_size - (size_t)n, ...)`. -/
def Build.print (bufSize : Nat) (b : Build) (out : Bytes) : Build :=
  let size := sizeSub bufSize (toSizeT b.n)
  let printed := snprintf b.mem b.n size out
  { mem := printed.1
    n := toInt (b.n + printed.2)
    calls := b.calls ++ [(b.n, size)] }

/-- The same under the condition `n < (int)buf_size`. -/
def Build.append (bufSize : Nat) (b : Build) (out : Bytes) : Build :=
  if b.n < toInt bufSize then b.print bufSize out else b

/-- The optional field `f`, which is skipped when it is `NULL`. -/
def Build.field (bufSize : Nat) (b : Build) : Option Bytes → Build
  | none => b
  | some f => b.append bufSize (fieldSepChar :: f)

/-- `proto_build()`. -/
def protoBuild (bufSize : Nat) (type : Bytes) (f1 f2 f3 : Option Bytes) (mem : Memory UInt8) :
    Build :=
  let b : Build := { mem := mem, n := 0, calls := [] }
  let b := b.print bufSize type
  let b := b.field bufSize f1
  let b := b.field bufSize f2
  let b := b.field bufSize f3
  b.append bufSize [msgTerminatorChar]

/-! ## What a caller relies on -/

/-- No `snprintf` so far was given more than the rest of the buffer, and no other byte has been
    written. -/
structure Inside (bufSize : Nat) (mem : Memory UInt8) (b : Build) : Prop where
  calls : ∀ c ∈ b.calls, 0 ≤ c.1 ∧ c.1 < bufSize ∧ (c.2 : Int) = bufSize - c.1
  frame : ∀ x, x < 0 ∨ (bufSize : Int) ≤ x → b.mem x = mem x

/-- The buffer holds the text or as much of it as there is room for, and `n` tells which. -/
structure ExactOrTruncated (bufSize : Nat) (text : Bytes) (mem : Memory UInt8) (b : Build) : Prop
    extends Inside bufSize mem b where
  holds : load b.mem 0 (min text.length (bufSize - 1) + 1) = text.take (bufSize - 1) ++ [0]
  exact : text.length < bufSize → b.n = text.length
  truncated : bufSize ≤ text.length → (bufSize : Int) ≤ b.n

/-! ## One `snprintf` -/

section Step

variable {bufSize : Nat} {mem : Memory UInt8} {b : Build} {text out : Bytes}
  (hsize : bufSize ≤ intMax)
include hsize

/-- What an `snprintf` does behind a text that fits the buffer. -/
theorem print_eq (hn : b.n = text.length) (hroom : text.length < bufSize)
    (hfit : (text ++ out).length ≤ intMax) :
    b.print bufSize out =
      { mem := store b.mem text.length (out.take (bufSize - text.length - 1) ++ [0])
        n := (text ++ out).length
        calls := b.calls ++ [((text.length : Int), bufSize - text.length)] } := by
  simp only [intMax] at hsize hfit
  have hrest : sizeSub bufSize (toSizeT b.n) = bufSize - text.length := by
    rw [hn, toSizeT_natCast (by omega), sizeSub_of_le (by omega) (by omega)]
  have hne : bufSize - text.length ≠ 0 := by omega
  have hout : out.length ≤ intMax := by
    rw [List.length_append] at hfit
    simp only [intMax]
    omega
  have hsum : toInt ((text.length : Int) + out.length) = (text ++ out).length := by
    rw [← Int.natCast_add, ← List.length_append]
    exact toInt_natCast hfit
  rw [Build.print, hrest, snprintf, if_neg hne, if_pos hout, hn]
  simp only [hsum]

/-- An `snprintf` behind a text that fits the buffer. -/
theorem print_spec (hin : Inside bufSize mem b) (hn : b.n = text.length)
    (hroom : text.length < bufSize) (hload : load b.mem 0 text.length = text)
    (hfit : (text ++ out).length ≤ intMax) :
    ExactOrTruncated bufSize (text ++ out) mem (b.print bufSize out) := by
  have hwritten : (out.take (bufSize - text.length - 1) ++ [(0 : UInt8)]).length ≤
      bufSize - text.length := by
    rw [List.length_append, List.length_take, List.length_singleton]
    omega
  rw [print_eq hsize hn hroom hfit]
  refine { calls := ?_, frame := ?_, holds := ?_, exact := ?_, truncated := ?_ }
  · intro c hc
    rcases List.mem_append.1 hc with hc | hc
    · exact hin.calls c hc
    · rw [List.mem_singleton.1 hc]
      refine ⟨Int.natCast_nonneg _, Int.ofNat_lt.2 hroom, ?_⟩
      exact Int.ofNat_sub (Nat.le_of_lt hroom)
  · intro x hx
    rw [← hin.frame x hx]
    apply store_frame
    omega
  · have hcut : (text ++ out).take (bufSize - 1) =
        text ++ out.take (bufSize - text.length - 1) := by
      rw [List.take_append, List.take_of_length_le (by omega), Nat.sub_right_comm]
    have hlen : min (text ++ out).length (bufSize - 1) + 1 =
        text.length + (out.take (bufSize - text.length - 1) ++ [(0 : UInt8)]).length := by
      simp only [List.length_append, List.length_take, List.length_singleton]
      omega
    have hread := load_store_append hload (out.take (bufSize - text.length - 1) ++ [0])
    rw [Int.zero_add, ← List.append_assoc] at hread
    rw [hcut, hlen]
    exact hread
  · intro _
    rfl
  · intro hlong
    exact Int.ofNat_le.2 hlong

/-- A guarded `snprintf` adds to the text, as long as the `int`s can count what it adds. -/
theorem append_spec (hb : ExactOrTruncated bufSize text mem b)
    (hfit : text.length < bufSize → (text ++ out).length ≤ intMax) :
    ExactOrTruncated bufSize (text ++ out) mem (b.append bufSize out) := by
  have hguard : toInt bufSize = bufSize := toInt_natCast hsize
  by_cases hroom : text.length < bufSize
  · have hn := hb.exact hroom
    have hload : load b.mem 0 text.length = text := by
      have hall := hb.holds
      rw [Nat.min_eq_left (by omega), List.take_of_length_le (by omega)] at hall
      have hwhole : load b.mem 0 (text ++ [0]).length = text ++ [0] := by
        rw [List.length_append]
        exact hall
      exact load_take hwhole
    rw [Build.append, hguard, if_pos (by rw [hn]; exact Int.ofNat_lt.2 hroom)]
    exact print_spec hsize hb.toInside hn hroom hload (hfit hroom)
  · have hlong := Nat.not_lt.1 hroom
    have hn := hb.truncated hlong
    have hcut : (text ++ out).take (bufSize - 1) = text.take (bufSize - 1) :=
      List.take_append_of_le_length (by omega)
    have hmin : min (text ++ out).length (bufSize - 1) = min text.length (bufSize - 1) := by
      rw [List.length_append]
      omega
    rw [Build.append, hguard, if_neg (Int.not_lt.2 hn)]
    refine { calls := hb.calls, frame := hb.frame, holds := ?_, exact := ?_, truncated := ?_ }
    · rw [hcut, hmin]
      exact hb.holds
    · intro hshort
      rw [List.length_append] at hshort
      omega
    · intro _
      exact hn

end Step

/-! ## The whole call -/

/-- What `proto_build` prints behind the type, in its order. -/
def pieces (fields : List Bytes) : List Bytes :=
  fields.map (fieldSepChar :: ·) ++ [[msgTerminatorChar]]

theorem append_flatten_pieces (type : Bytes) (fields : List Bytes) :
    type ++ (pieces fields).flatten = lineOf type fields := by
  simp [pieces, lineOf, List.flatMap_def]

/-- The fields that are not `NULL`. -/
def present (f1 f2 f3 : Option Bytes) : List Bytes := [f1, f2, f3].filterMap id

theorem present_eq (f1 f2 f3 : Option Bytes) :
    present f1 f2 f3 = f1.toList ++ f2.toList ++ f3.toList := by
  cases f1 <;> cases f2 <;> cases f3 <;> rfl

/-- The variables before the first `snprintf`. -/
def start (mem : Memory UInt8) : Build := { mem := mem, n := 0, calls := [] }

theorem field_eq (bufSize : Nat) (b : Build) (f : Option Bytes) :
    b.field bufSize f =
      (f.toList.map (fieldSepChar :: ·)).foldl (Build.append bufSize) b := by
  cases f with
  | none => rfl
  | some f =>
    rw [Build.field, Option.toList_some, List.map_singleton, List.foldl_cons, List.foldl_nil]

theorem protoBuild_def (bufSize : Nat) (type : Bytes) (f1 f2 f3 : Option Bytes)
    (mem : Memory UInt8) :
    protoBuild bufSize type f1 f2 f3 mem =
      (((((start mem).print bufSize type).field bufSize f1).field bufSize f2).field bufSize
        f3).append bufSize [msgTerminatorChar] := by
  delta protoBuild start
  rfl

/-- `proto_build` prints the type and then, under the guard, one text after the other. -/
theorem protoBuild_eq (bufSize : Nat) (type : Bytes) (f1 f2 f3 : Option Bytes)
    (mem : Memory UInt8) :
    protoBuild bufSize type f1 f2 f3 mem =
      (pieces (present f1 f2 f3)).foldl (Build.append bufSize) ((start mem).print bufSize type) := by
  rw [protoBuild_def, field_eq, field_eq, field_eq, present_eq, pieces, List.map_append,
    List.map_append, List.foldl_append, List.foldl_append, List.foldl_append, List.foldl_cons,
    List.foldl_nil]

/-- No text that is printed where the buffer still has room makes the line longer than an `int`
    can count. -/
def Counted (bufSize : Nat) (type : Bytes) (ps : List Bytes) : Prop :=
  type.length ≤ intMax ∧ ∀ k, (type ++ (ps.take k).flatten).length < bufSize →
    (type ++ (ps.take (k + 1)).flatten).length ≤ intMax

/-- In particular a line whose length is an `int` is counted. -/
theorem counted_of_length {type : Bytes} {ps : List Bytes}
    (h : (type ++ ps.flatten).length ≤ intMax) (bufSize : Nat) : Counted bufSize type ps := by
  have hle : ∀ k, (type ++ (ps.take k).flatten).length ≤ intMax := by
    intro k
    have hpre : type ++ (ps.take k).flatten <+: type ++ ps.flatten := by
      refine ⟨(ps.drop k).flatten, ?_⟩
      rw [List.append_assoc, ← List.flatten_append, List.take_append_drop]
    exact Nat.le_trans hpre.length_le h
  refine ⟨?_, fun k _ => hle (k + 1)⟩
  simpa using hle 0

/-! ## The builder on strings -/

section Strings

variable {bufSize : Nat}

/-- The variables of `proto_build` and the string and length that stand for them elsewhere. -/
structure Agrees (bufSize : Nat) (text : Bytes) (mem : Memory UInt8) (b : Build)
    (st : Bytes × Nat) : Prop where
  built : ExactOrTruncated bufSize text mem b
  string : st.1 = text.take (bufSize - 1)
  length : b.n = st.2

theorem Agrees.append (hsize : bufSize ≤ intMax) {text out : Bytes} {mem : Memory UInt8} {b : Build}
    {st : Bytes × Nat} (h : Agrees bufSize text mem b st)
    (hfit : text.length < bufSize → (text ++ out).length ≤ intMax) :
    Agrees bufSize (text ++ out) mem (b.append bufSize out) (protoAppend bufSize st out) := by
  have hguard : toInt bufSize = bufSize := toInt_natCast hsize
  have hbuilt := append_spec hsize h.built hfit
  obtain ⟨s, n⟩ := st
  obtain ⟨hb, rfl, hn⟩ := h
  by_cases hroom : text.length < bufSize
  · have hexact := hb.exact hroom
    have hlen : n = text.length := Int.ofNat.inj (hn.symm.trans hexact)
    have hshort : (text.take (bufSize - 1)).take text.length = text := by
      rw [List.take_of_length_le (by omega : text.length ≤ bufSize - 1), List.take_length]
    have hcut : (text ++ out).take (bufSize - 1) = text ++ Lib.snprintf (bufSize - text.length) out := by
      rw [List.take_append, List.take_of_length_le (by omega), Lib.snprintf, Nat.sub_right_comm]
    rw [protoAppend, hlen, if_pos hroom]
    refine ⟨hbuilt, ?_, ?_⟩
    · rw [hcut, hshort]
    · rw [Build.append, hguard, if_pos (by rw [hexact]; exact Int.ofNat_lt.2 hroom),
        print_eq hsize hexact hroom (hfit hroom), List.length_append]
  · have hlong := Nat.not_lt.1 hroom
    have htrunc := hb.truncated hlong
    have hstop : ¬ n < bufSize := by omega
    rw [protoAppend, if_neg hstop]
    refine ⟨hbuilt, ?_, ?_⟩
    · exact (List.take_append_of_le_length (by omega)).symm
    · rw [Build.append, hguard, if_neg (Int.not_lt.2 htrunc)]
      exact hn

theorem Agrees.foldl (hsize : bufSize ≤ intMax) {mem : Memory UInt8} {ps : List Bytes}
    {text : Bytes} {b : Build} {st : Bytes × Nat} (h : Agrees bufSize text mem b st)
    (hfit : ∀ k, (text ++ (ps.take k).flatten).length < bufSize →
      (text ++ (ps.take (k + 1)).flatten).length ≤ intMax) :
    Agrees bufSize (text ++ ps.flatten) mem (ps.foldl (Build.append bufSize) b)
      (ps.foldl (protoAppend bufSize) st) := by
  induction ps generalizing text b st with
  | nil =>
    rw [List.flatten_nil, List.append_nil]
    exact h
  | cons p ps ih =>
    have hfirst : text.length < bufSize → (text ++ p).length ≤ intMax := by
      intro hroom
      have := hfit 0 (by simpa using hroom)
      simpa using this
    rw [List.foldl_cons, List.foldl_cons, List.flatten_cons, ← List.append_assoc]
    apply ih (h.append hsize hfirst)
    intro k
    rw [List.append_assoc, List.append_assoc]
    exact hfit (k + 1)

theorem protoField_eq (st : Bytes × Nat) (f : Option Bytes) :
    protoField bufSize st f =
      (f.toList.map (fieldSepChar :: ·)).foldl (protoAppend bufSize) st := by
  cases f with
  | none => rfl
  | some f => rfl

/-- The builder on strings prints the same texts. -/
theorem strings_protoBuild_eq (bufSize : Nat) (type : Bytes) (f1 f2 f3 : Option Bytes) :
    ChatMultithread.protoBuild bufSize type f1 f2 f3 =
      (pieces (present f1 f2 f3)).foldl (protoAppend bufSize)
        (Lib.snprintf bufSize type, type.length) := by
  rw [ChatMultithread.protoBuild, present_eq, protoField_eq, protoField_eq, protoField_eq, pieces,
    List.map_append, List.map_append, List.foldl_append, List.foldl_append, List.foldl_append,
    List.foldl_cons, List.foldl_nil]

variable {type : Bytes} {f1 f2 f3 : Option Bytes} (hpos : 1 ≤ bufSize)
  (hsize : bufSize < 2147483648) (hcount : Counted bufSize type (pieces (present f1 f2 f3)))
  (mem : Memory UInt8)
include hpos hsize hcount

theorem protoBuild_agrees :
    Agrees bufSize (lineOf type (present f1 f2 f3)) mem (protoBuild bufSize type f1 f2 f3 mem)
      (ChatMultithread.protoBuild bufSize type f1 f2 f3) := by
  have hmax : bufSize ≤ intMax := Nat.le_of_lt_succ hsize
  have hstart : Inside bufSize mem (start mem) :=
    { calls := by simp [start], frame := fun _ _ => rfl }
  have htype : Agrees bufSize type mem ((start mem).print bufSize type)
      (Lib.snprintf bufSize type, type.length) := by
    have hn : (start mem).n = ([] : Bytes).length := rfl
    refine ⟨print_spec hmax hstart hn hpos rfl hcount.1, rfl, ?_⟩
    rw [print_eq hmax hn hpos hcount.1, List.nil_append]
  rw [protoBuild_eq, strings_protoBuild_eq, ← append_flatten_pieces]
  exact htype.foldl hmax hcount.2

/-- The builder on strings returns the `n` of `proto_build` and the string that it leaves in its
    buffer. -/
theorem protoBuild_refines :
    (protoBuild bufSize type f1 f2 f3 mem).n =
        (ChatMultithread.protoBuild bufSize type f1 f2 f3).2 ∧
      load (protoBuild bufSize type f1 f2 f3 mem).mem 0
          ((ChatMultithread.protoBuild bufSize type f1 f2 f3).1.length + 1) =
        (ChatMultithread.protoBuild bufSize type f1 f2 f3).1 ++ [0] := by
  have h := protoBuild_agrees hpos hsize hcount mem
  refine ⟨h.length, ?_⟩
  rw [h.string, List.length_take, Nat.min_comm]
  exact h.built.holds

/-- `proto_build` leaves the whole line in its buffer and returns its length, or the beginning that
    there is room for and a length from which the caller sees it; it hands every `snprintf` the rest
    of the buffer. -/
theorem protoBuild_exactOrTruncated :
    ExactOrTruncated bufSize (lineOf type (present f1 f2 f3)) mem
      (protoBuild bufSize type f1 f2 f3 mem) :=
  (protoBuild_agrees hpos hsize hcount mem).built

end Strings

/-- A line that is cut in its last field. -/
theorem protoBuild_exactOrTruncated_cut :
    Counted 10 cmdMsg (pieces (present (ascii "ana") (ascii "hola") none)) ∧
      ExactOrTruncated 10 (lineOf cmdMsg (present (ascii "ana") (ascii "hola") none)) (fun _ => 0)
        (protoBuild 10 cmdMsg (ascii "ana") (ascii "hola") none fun _ => 0) := by
  have hcount : Counted 10 cmdMsg (pieces (present (ascii "ana") (ascii "hola") none)) :=
    counted_of_length (by decide) 10
  exact ⟨hcount, protoBuild_exactOrTruncated (by decide) (by decide) hcount _⟩

/-- The separator makes a field of `INT_MAX` bytes too long for `snprintf`, whose -1 is added to
    `n`. -/
theorem protoBuild_separator {f : Bytes} (hf : f.length = intMax) (mem : Memory UInt8) :
    (protoBuild 1 [] (some f) none none mem).n = 0 := by
  have hprint : ∀ b out, (Build.print 1 b out).n =
      toInt (b.n + if out.length ≤ intMax then (out.length : Int) else -1) := fun _ _ => rfl
  have hstart : (start mem).n = 0 := rfl
  have htype : (Build.print 1 (start mem) []).n = 0 := by
    rw [hprint, hstart]
    decide
  have hlong : ¬ (fieldSepChar :: f).length ≤ intMax := by
    rw [List.length_cons, hf]
    decide
  have hfield : (Build.append 1 (Build.print 1 (start mem) []) (fieldSepChar :: f)).n = -1 := by
    rw [Build.append, htype, if_pos (by decide), hprint, htype, if_neg hlong]
    decide
  rw [protoBuild_def, Build.field, Build.field, Build.field, Build.append, hfield,
    if_pos (by decide), hprint, hfield]
  decide

/-- Strings of fewer than 2^31 bytes in all, whose line is longer. -/
theorem protoBuild_exactOrTruncated_intMax :
    ¬ ∀ bufSize type f1 f2 f3 mem, 1 ≤ bufSize → bufSize < 2147483648 →
      type.length + (f1.getD []).length + (f2.getD []).length + (f3.getD []).length < 2147483648 →
      ExactOrTruncated bufSize (lineOf type (present f1 f2 f3)) mem
        (protoBuild bufSize type f1 f2 f3 mem) := by
  intro h
  obtain ⟨f, hlen⟩ : ∃ f : Bytes, f.length = intMax :=
    ⟨List.replicate intMax 97, List.length_replicate⟩
  have hbuilt := h 1 [] (some f) none none (fun _ => 0) (by decide) (by decide) (by
    simp [hlen, intMax])
  have hn := hbuilt.truncated (by simp [lineOf])
  rw [protoBuild_separator hlen] at hn
  exact absurd hn (by decide)

end ChatMultithread.Machine
