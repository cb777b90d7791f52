import ChatMultithread.Common.Fields

/-!
# The accesses of the parser to its array

`scanLine` has no result when `parse_message` leaves `fields[3][MAX_MSG]`. Here the accesses are
listed, in bounds or not: the two indices do not depend on what is stored.
-/

namespace ChatMultithread

open Lib

/-- The indices of the writes `fields[f][c]` that the loop of `parse_message` makes from `f` and
    `c` on, the terminator behind the loop included. -/
def scanAccesses : Bytes → Nat → Nat → List (Nat × Nat)
  | [], f, c => [(f, c)]
  | b :: rest, f, c =>
      if b = msgTerminatorChar then [(f, c)]
      else if b = escapeChar then
        match rest with
        | [] => [(f, c)]
        | _ :: rest => (f, c) :: scanAccesses rest f (c + 1)
      else if b = fieldSepChar then
        (f, c) :: (if f + 1 ≥ 3 then [(f + 1, 0)] else scanAccesses rest (f + 1) 0)
      else if c < maxMsg - 1 then (f, c) :: scanAccesses rest f (c + 1)
      else scanAccesses rest f c

/-- The accesses of `parse_message` to `fields` on a line. -/
def parseAccesses (line : Bytes) : List (Nat × Nat) := scanAccesses line 0 0

/-- The indices lie in `fields[3][MAX_MSG]`. -/
def InFields (p : Nat × Nat) : Prop := p.1 < 3 ∧ p.2 < maxMsg

instance (p : Nat × Nat) : Decidable (InFields p) := inferInstanceAs (Decidable (_ ∧ _))

theorem Scan.terminate_eq_none {s : Scan} : s.terminate = none ↔ ¬ InFields (s.f, s.c) := by
  unfold Scan.terminate
  split
  · rename_i h
    exact iff_of_false (Option.some_ne_none _) (not_not_intro h)
  · rename_i h
    exact iff_of_true rfl h

theorem Scan.terminate_eq_some {s : Scan} (h : InFields (s.f, s.c)) :
    ∃ s', s.terminate = some s' ∧ s'.f = s.f ∧ s'.c = s.c :=
  ⟨_, dif_pos h, rfl, rfl⟩

theorem Scan.put_eq_none {s : Scan} {b : UInt8} (h : ¬ InFields (s.f, s.c)) : s.put b = none :=
  dif_neg h

theorem Scan.put_eq_some {s : Scan} (h : InFields (s.f, s.c)) (b : UInt8) :
    ∃ s', s.put b = some s' ∧ s'.f = s.f ∧ s'.c = s.c + 1 :=
  ⟨_, dif_pos h, rfl, rfl⟩

/-- A write in the loop: outside the array there is no result, and inside it the scan goes on one
    column further. -/
theorem put_bind_eq_none {s : Scan} {b : UInt8} {rest : Bytes}
    (ih : ∀ s, (scanLine rest s).bind Scan.terminate = none ↔
      ∃ p ∈ scanAccesses rest s.f s.c, ¬ InFields p) :
    ((s.put b).bind (scanLine rest)).bind Scan.terminate = none ↔
      ∃ p ∈ (s.f, s.c) :: scanAccesses rest s.f (s.c + 1), ¬ InFields p := by
  by_cases hin : InFields (s.f, s.c)
  · obtain ⟨s', hput, hf, hc⟩ := Scan.put_eq_some hin b
    rw [hput, Option.bind_some, ih s', hf, hc]
    simp [hin]
  · rw [Scan.put_eq_none hin]
    exact iff_of_true rfl ⟨_, List.mem_cons_self, hin⟩

/-- The scan has no result exactly when one of its accesses leaves the array. -/
theorem scanLine_eq_none (line : Bytes) (s : Scan) :
    (scanLine line s).bind Scan.terminate = none ↔
      ∃ p ∈ scanAccesses line s.f s.c, ¬ InFields p := by
  induction line using tokens.induct (m := marks) generalizing s with
  | case1 => simp [scanLine, scanAccesses, Scan.terminate_eq_none]
  | case2 rest =>
    rw [scanLine.eq_def, scanAccesses.eq_def]
    simp [Scan.terminate_eq_none]
  | case3 hm =>
    rw [scanLine.eq_def, scanAccesses.eq_def]
    simp [Scan.terminate_eq_none]
  | case4 e rest hm ih =>
    have hscan : scanLine (marks.escape :: e :: rest) s =
        (s.put (unescape e)).bind (scanLine rest) := by
      rw [scanLine.eq_def]
      simp [show escapeChar ≠ msgTerminatorChar by decide]
    have haccess : scanAccesses (marks.escape :: e :: rest) s.f s.c =
        (s.f, s.c) :: scanAccesses rest s.f (s.c + 1) := by
      rw [scanAccesses.eq_def]
      simp [show escapeChar ≠ msgTerminatorChar by decide]
    rw [hscan, haccess]
    exact put_bind_eq_none ih
  | case5 rest hm hm' ih =>
    have hscan : scanLine (marks.separator :: rest) s = s.terminate.bind fun s =>
        if s.f + 1 ≥ 3 then some { s with f := s.f + 1, c := 0 }
        else scanLine rest { s with f := s.f + 1, c := 0 } := by
      rw [scanLine.eq_def]
      simp [show fieldSepChar ≠ msgTerminatorChar by decide,
        show fieldSepChar ≠ escapeChar by decide]
    have haccess : scanAccesses (marks.separator :: rest) s.f s.c =
        (s.f, s.c) :: (if s.f + 1 ≥ 3 then [(s.f + 1, 0)]
          else scanAccesses rest (s.f + 1) 0) := by
      rw [scanAccesses.eq_def]
      simp [show fieldSepChar ≠ msgTerminatorChar by decide,
        show fieldSepChar ≠ escapeChar by decide]
    rw [hscan, haccess]
    by_cases hin : InFields (s.f, s.c)
    · obtain ⟨s', hterm, hf, -⟩ := Scan.terminate_eq_some hin
      rw [hterm, Option.bind_some, hf]
      split
      · -- the third separator: the row behind the last one is terminated
        simp [Scan.terminate_eq_none, hin]
      · rw [ih]
        simp [hin]
    · rw [Scan.terminate_eq_none.2 hin]
      exact iff_of_true rfl ⟨_, List.mem_cons_self, hin⟩
  | case6 b rest hm hm' hm'' ih =>
    have h1 : b ≠ msgTerminatorChar := hm
    have h2 : b ≠ escapeChar := hm'
    have h3 : b ≠ fieldSepChar := hm''
    have hscan : scanLine (b :: rest) s =
        if s.c < maxMsg - 1 then (s.put b).bind (scanLine rest) else scanLine rest s := by
      rw [scanLine.eq_def]
      simp [h1, h2, h3]
    have haccess : scanAccesses (b :: rest) s.f s.c =
        if s.c < maxMsg - 1 then (s.f, s.c) :: scanAccesses rest s.f (s.c + 1)
        else scanAccesses rest s.f s.c := by
      rw [scanAccesses.eq_def]
      simp [h1, h2, h3]
    rw [hscan, haccess]
    split
    · exact put_bind_eq_none ih
    · exact ih s

/-- `parse_message` has no result exactly when one of its accesses leaves the array. -/
theorem parseMessage_eq_none (line : Bytes) :
    parseMessage line = none ↔ ∃ p ∈ parseAccesses line, ¬ InFields p := by
  rw [parseAccesses, ← scanLine_eq_none line { fields := fun _ => [], f := 0, c := 0 }]
  unfold parseMessage
  cases scanLine line { fields := fun _ => [], f := 0, c := 0 } with
  | none => simp
  | some s => cases hs : s.terminate <;> simp [hs]

/-- On a line that fits the server's buffer the accesses stay in bounds exactly when the line has
    at most two separators; the third one makes the terminator go to `fields[3][0]`. -/
theorem parseAccesses_inBounds_iff {line : Bytes} (hlen : line.length ≤ maxMsg - 1) :
    (∀ p ∈ parseAccesses line, p.1 ≤ 2 ∧ p.2 ≤ 1023) ↔ InBounds line := by
  have hlt : line.length < maxMsg := Nat.lt_of_le_pred (by decide) hlen
  have hin : ∀ p : Nat × Nat, p.1 ≤ 2 ∧ p.2 ≤ 1023 ↔ InFields p := fun p =>
    and_congr Nat.lt_succ_iff.symm Nat.lt_succ_iff.symm
  have hresult : InBounds line ↔ parseMessage line ≠ none := by
    rw [parseMessage_eq hlt]
    split
    · rename_i h
      exact iff_of_true h (Option.some_ne_none _)
    · rename_i h
      exact iff_of_false h fun hne => hne rfl
  rw [hresult, Ne, parseMessage_eq_none]
  simp only [hin, not_exists, not_and, not_not]

/-- Two separators are not too many. -/
theorem parseAccesses_inBounds_two :
    InBounds (ascii "MSG|ana|hola\n") ∧
      ∀ p ∈ parseAccesses (ascii "MSG|ana|hola\n"), p.1 ≤ 2 ∧ p.2 ≤ 1023 := by
  have hin : InBounds (ascii "MSG|ana|hola\n") := by decide +kernel
  exact ⟨hin, (parseAccesses_inBounds_iff (by decide)).2 hin⟩

/-- Three are. -/
theorem parseAccesses_three :
    ¬ ∀ line : Bytes, (0 : UInt8) ∉ line → line.length ≤ maxMsg - 1 →
      ∀ p ∈ parseAccesses line, p.1 ≤ 2 ∧ p.2 ≤ 1023 := by
  intro h
  exact absurd (h (ascii "MSG|ana|a|b\n") (by decide) (by decide) (3, 0) (by decide +kernel)) (by decide)

end ChatMultithread
