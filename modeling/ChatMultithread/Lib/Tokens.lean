import ChatMultithread.Lib.CString
import Mathlib.Data.List.Basic

/-!
# Tokens of a string that has been cut

Parts joined by a separator are what `strtok` takes apart again. Where the joined string has been
cut behind so many bytes, the first parts come back whole, and behind them at most the beginning
of one.
-/

namespace ChatMultithread.Lib

/-- What `strtok(s, ch)` and the calls with `NULL` behind it return, `fuel` calls at most. -/
def strtokLoop (ch : UInt8) : Nat → Bytes → List Bytes
  | 0, _ => []
  | fuel + 1, s =>
      match strtok ch s with
      | none => []
      | some (tok, rest) => tok :: strtokLoop ch fuel rest

/-- The parts of which something stands in the first `n` bytes, each as far as it does. -/
def cutParts : Nat → List Bytes → List Bytes
  | 0, _ => []
  | _ + 1, [] => []
  | n + 1, u :: parts => if u.length ≤ n then u :: cutParts (n - u.length) parts else [u.take (n + 1)]

section Parts

variable {ch : UInt8} {n : Nat}

@[simp] theorem cutParts_zero (parts : List Bytes) : cutParts 0 parts = [] := by
  cases parts <;> rfl

@[simp] theorem cutParts_nil (n : Nat) : cutParts n [] = [] := by
  cases n <;> rfl

theorem cutParts_cons_of_lt {u : Bytes} (h : u.length < n) (parts : List Bytes) :
    cutParts n (u :: parts) = u :: cutParts (n - u.length - 1) parts := by
  obtain ⟨m, rfl⟩ := Nat.exists_eq_succ_of_ne_zero (Nat.ne_zero_of_lt h)
  rw [cutParts, if_pos (Nat.le_of_lt_succ h), Nat.succ_sub (Nat.le_of_lt_succ h), Nat.succ_sub_one]

theorem cutParts_cons_of_le {u : Bytes} (hpos : 0 < n) (h : n ≤ u.length) (parts : List Bytes) :
    cutParts n (u :: parts) = [u.take n] := by
  obtain ⟨m, rfl⟩ := Nat.exists_eq_succ_of_ne_zero (Nat.ne_of_gt hpos)
  rw [cutParts, if_neg (Nat.not_le.2 h)]

theorem mem_intercalate {b : UInt8} {parts : List Bytes} (h : b ∈ [ch].intercalate parts) :
    b = ch ∨ ∃ u ∈ parts, b ∈ u := by
  induction parts with
  | nil => exact absurd h List.not_mem_nil
  | cons u parts ih =>
    have hrest : b ∈ [ch].intercalate parts → b = ch ∨ ∃ v ∈ u :: parts, b ∈ v := fun hb =>
      (ih hb).imp_right fun ⟨v, hv, hbv⟩ => ⟨v, List.mem_cons_of_mem u hv, hbv⟩
    cases parts with
    | nil =>
      rw [List.intercalate_singleton] at h
      exact .inr ⟨u, List.mem_cons_self, h⟩
    | cons v parts =>
      rw [List.intercalate_cons_cons, List.append_assoc, List.mem_append, List.mem_append,
        List.mem_singleton] at h
      rcases h with hb | hb | hb
      · exact .inr ⟨u, List.mem_cons_self, hb⟩
      · exact .inl hb
      · exact hrest hb

/-- The first `n` bytes of joined parts, of which the first one stands there whole. -/
theorem take_intercalate_cons {u : Bytes} (h : u.length < n) {parts : List Bytes} (hne : parts ≠ []) :
    ([ch].intercalate (u :: parts)).take n =
      u ++ ch :: ([ch].intercalate parts).take (n - u.length - 1) := by
  obtain ⟨v, parts, rfl⟩ := List.exists_cons_of_ne_nil hne
  rw [List.intercalate_cons_cons, List.append_assoc, List.take_append,
    List.take_of_length_le (Nat.le_of_lt h), List.singleton_append,
    List.take_cons (Nat.sub_pos_of_lt h)]

theorem take_intercalate_first {u : Bytes} (h : n ≤ u.length) (parts : List Bytes) :
    ([ch].intercalate (u :: parts)).take n = u.take n := by
  cases parts with
  | nil => rw [List.intercalate_singleton]
  | cons v parts =>
    rw [List.intercalate_cons_cons, List.append_assoc, List.take_append_of_le_length h]

theorem take_intercalate_ne_nil {parts : List Bytes} (h : ∀ u ∈ parts, u ≠ []) (hne : parts ≠ [])
    (hn : 0 < n) : ([ch].intercalate parts).take n ≠ [] := by
  obtain ⟨u, parts, rfl⟩ := List.exists_cons_of_ne_nil hne
  obtain ⟨b, u, rfl⟩ := List.exists_cons_of_ne_nil (h u List.mem_cons_self)
  rw [Ne, List.take_eq_nil_iff, not_or]
  refine ⟨Nat.ne_of_gt hn, ?_⟩
  cases parts with
  | nil => exact List.intercalate_singleton ▸ List.cons_ne_nil b u
  | cons v parts => exact List.intercalate_cons_cons ▸ List.cons_ne_nil b _

/-- `strtok` finds the parts, as far as the bytes go. -/
theorem strtokLoop_take_intercalate {parts : List Bytes} (h : ∀ u ∈ parts, u ≠ [] ∧ ch ∉ u)
    {fuel : Nat} (hfuel : (([ch].intercalate parts).take n).length ≤ fuel) :
    strtokLoop ch fuel (([ch].intercalate parts).take n) = cutParts n parts := by
  have hnil : ∀ fuel, strtokLoop ch fuel [] = [] := by
    intro fuel
    cases fuel <;> rfl
  induction parts generalizing n fuel with
  | nil => rw [List.intercalate_nil, List.take_nil, hnil, cutParts_nil]
  | cons u parts ih =>
    obtain ⟨⟨hne, hch⟩, hparts⟩ := List.forall_mem_cons.1 h
    rcases Nat.eq_zero_or_pos n with rfl | hn
    · rw [List.take_zero, hnil, cutParts_zero]
    have hpos : 0 < u.length := List.length_pos_iff.2 hne
    by_cases hlt : u.length < n
    · rw [cutParts_cons_of_lt hlt]
      by_cases hlast : parts = []
      · subst hlast
        rw [List.intercalate_singleton, List.take_of_length_le (Nat.le_of_lt hlt)] at hfuel ⊢
        obtain ⟨fuel, rfl⟩ :=
          Nat.exists_eq_succ_of_ne_zero (Nat.ne_of_gt (Nat.lt_of_lt_of_le hpos hfuel))
        rw [strtokLoop, strtok_last hne hch, cutParts_nil]
        simp only [hnil]
      · rw [take_intercalate_cons hlt hlast] at hfuel ⊢
        rw [List.length_append, List.length_cons] at hfuel
        obtain ⟨fuel, rfl⟩ := Nat.exists_eq_succ_of_ne_zero (show fuel ≠ 0 by omega)
        rw [strtokLoop, strtok_append hne hch]
        have hrest : (([ch].intercalate parts).take (n - u.length - 1)).length ≤ fuel := by omega
        simp only [ih hparts hrest]
    · have hle := Nat.le_of_not_lt hlt
      have hfirst : u.take n ≠ [] := by
        rw [← List.length_pos_iff, List.length_take]
        omega
      rw [take_intercalate_first hle] at hfuel ⊢
      obtain ⟨fuel, rfl⟩ := Nat.exists_eq_succ_of_ne_zero
        (Nat.ne_of_gt (Nat.lt_of_lt_of_le (List.length_pos_iff.2 hfirst) hfuel))
      rw [strtokLoop, strtok_last hfirst fun hmem => hch (List.mem_of_mem_take hmem),
        cutParts_cons_of_le hn hle]
      simp only [hnil]

/-- Nothing is lost where there is room for everything. -/
theorem cutParts_of_length_le {parts : List Bytes} (hne : ∀ u ∈ parts, u ≠ [])
    (h : ([ch].intercalate parts).length ≤ n) : cutParts n parts = parts := by
  induction parts generalizing n with
  | nil => exact cutParts_nil n
  | cons u parts ih =>
    obtain ⟨hu, hparts⟩ := List.forall_mem_cons.1 hne
    have hpos : 0 < u.length := List.length_pos_iff.2 hu
    cases parts with
    | nil =>
      rw [List.intercalate_singleton] at h
      rcases Nat.lt_or_eq_of_le h with hlt | rfl
      · rw [cutParts_cons_of_lt hlt, cutParts_nil]
      · rw [cutParts_cons_of_le hpos (Nat.le_refl _), List.take_length]
    | cons v parts =>
      rw [List.intercalate_cons_cons, List.length_append, List.length_append,
        List.length_singleton] at h
      rw [cutParts_cons_of_lt (by omega), ih hparts (by omega)]

/-- Whole parts come first, and behind them at most the beginning of the next one. -/
theorem cutParts_eq_take (n : Nat) (parts : List Bytes) :
    ∃ k part, cutParts n parts = parts.take k ++ part ∧
      (part = [] ∨ ∃ p u, part = [p] ∧ parts[k]? = some u ∧ p <+: u) := by
  induction parts generalizing n with
  | nil => exact ⟨0, [], cutParts_nil n, .inl rfl⟩
  | cons u parts ih =>
    rcases Nat.eq_zero_or_pos n with rfl | hn
    · exact ⟨0, [], cutParts_zero _, .inl rfl⟩
    by_cases hlt : u.length < n
    · obtain ⟨k, part, hcut, hpart⟩ := ih (n - u.length - 1)
      refine ⟨k + 1, part, ?_, hpart⟩
      rw [cutParts_cons_of_lt hlt, hcut, List.take_succ_cons, List.cons_append]
    · refine ⟨0, [u.take n], ?_, .inr ⟨_, u, rfl, rfl, List.take_prefix n u⟩⟩
      rw [cutParts_cons_of_le hn (Nat.le_of_not_lt hlt)]
      rfl

/-- As many parts come back whole as are sure to find room. -/
theorem take_isPrefix_cutParts {parts : List Bytes} {m : Nat}
    (hm : ∀ u ∈ parts, u ≠ [] ∧ u.length ≤ m) {j : Nat} (hj : j * (m + 1) ≤ n + 1) :
    parts.take j <+: cutParts n parts := by
  induction parts generalizing n j with
  | nil =>
    rw [List.take_nil]
    exact List.nil_prefix
  | cons u parts ih =>
    cases j with
    | zero => exact List.nil_prefix
    | succ j =>
      obtain ⟨⟨hne, hu⟩, hparts⟩ := List.forall_mem_cons.1 hm
      have hpos : 0 < u.length := List.length_pos_iff.2 hne
      rw [Nat.succ_mul] at hj
      rw [List.take_succ_cons]
      by_cases hlt : u.length < n
      · rw [cutParts_cons_of_lt hlt]
        exact List.cons_prefix_cons.2 ⟨rfl, ih hparts (by omega)⟩
      · -- there is room for the first part alone, so no more than this one is asked for
        have hj0 : j = 0 := by
          rcases Nat.eq_zero_or_pos j with h | h
          · exact h
          · have := Nat.mul_le_mul_right (m + 1) h
            omega
        have hwhole : u.take n = u := List.take_of_length_le (by omega)
        rw [cutParts_cons_of_le (by omega) (Nat.le_of_not_lt hlt), hj0, List.take_zero]
        exact List.cons_prefix_cons.2 ⟨hwhole.symm, List.nil_prefix⟩

/-- A string without the byte does not end with it. -/
theorem getLast?_ne_of_not_mem {s : Bytes} (h : ch ∉ s) : s.getLast? ≠ some ch := fun hlast =>
  h (List.mem_of_mem_getLast? hlast)

/-- The separators among the first `n` bytes: one between two parts, and one more where the cut is
    right behind it. -/
theorem count_take_intercalate {parts : List Bytes} (h : ∀ u ∈ parts, u ≠ [] ∧ ch ∉ u)
    (hne : parts ≠ []) (hn : 0 < n) :
    (([ch].intercalate parts).take n).count ch + 1 = (cutParts n parts).length +
      if (([ch].intercalate parts).take n).getLast? = some ch then 1 else 0 := by
  induction parts generalizing n with
  | nil => exact absurd rfl hne
  | cons u parts ih =>
    obtain ⟨⟨hu, hch⟩, hparts⟩ := List.forall_mem_cons.1 h
    by_cases hlt : u.length < n
    · rw [cutParts_cons_of_lt hlt]
      by_cases hlast : parts = []
      · subst hlast
        rw [List.intercalate_singleton, List.take_of_length_le (Nat.le_of_lt hlt),
          List.count_eq_zero_of_not_mem hch, if_neg (getLast?_ne_of_not_mem hch), cutParts_nil]
        rfl
      · rw [take_intercalate_cons hlt hlast, List.count_append, List.count_eq_zero_of_not_mem hch,
          List.count_cons_self, List.length_cons]
        rcases Nat.eq_zero_or_pos (n - u.length - 1) with hcut | hcut
        · rw [hcut, List.take_zero, cutParts_zero, if_pos List.getLast?_concat]
          rfl
        · have hrest : ([ch].intercalate parts).take (n - u.length - 1) ≠ [] :=
            take_intercalate_ne_nil (fun v hv => (hparts v hv).1) hlast hcut
          have hcount := ih hparts hlast hcut
          rw [List.getLast?_append_cons, List.getLast?_cons_of_ne_nil hrest]
          omega
    · have hle := Nat.le_of_not_lt hlt
      have hfirst : ch ∉ u.take n := fun hmem => hch (List.mem_of_mem_take hmem)
      rw [take_intercalate_first hle, cutParts_cons_of_le hn hle, List.count_eq_zero_of_not_mem hfirst,
        if_neg (getLast?_ne_of_not_mem hfirst)]
      rfl

/-- Joined parts do not end with a separator. -/
theorem getLast?_intercalate_ne {parts : List Bytes} (h : ∀ u ∈ parts, u ≠ [] ∧ ch ∉ u) :
    ([ch].intercalate parts).getLast? ≠ some ch := by
  induction parts with
  | nil => exact fun hlast => nomatch hlast
  | cons u parts ih =>
    obtain ⟨⟨hu, hch⟩, hparts⟩ := List.forall_mem_cons.1 h
    cases parts with
    | nil =>
      rw [List.intercalate_singleton]
      exact getLast?_ne_of_not_mem hch
    | cons v parts =>
      have hv : [ch].intercalate (v :: parts) ≠ [] := fun hnil =>
        take_intercalate_ne_nil (fun w hw => (hparts w hw).1) (List.cons_ne_nil v parts) Nat.one_pos
          (List.take_eq_nil_iff.2 (.inr hnil))
      rw [List.intercalate_cons_cons, List.getLast?_append_of_ne_nil _ hv]
      exact ih hparts

end Parts

end ChatMultithread.Lib
