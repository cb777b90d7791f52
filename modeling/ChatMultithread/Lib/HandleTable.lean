import Mathlib.Logic.Function.Basic
import Mathlib.Logic.Relation

/-!
# Tables of reusable handles

The life of a client of a table that is keyed by handles an operating system hands out again:
the client's handle is opened, its handle is stored in a slot of the table, the slot is cleared
and, in a step of its own, the handle is closed. A handle is free for the next client from the
moment it is closed, so a cleared slot must not be found by a handle that is still open, and
a handle must not be closed twice. `Inv` ties the three parts together; everything else is read off it.
-/

namespace ChatMultithread.Lib.HandleTable

/-- Where a client is in its life. -/
inductive Stage (ι Handle : Type) where
  | fresh
  | opened (h : Handle)
  | placed (h : Handle) (i : ι)
  | cleared (h : Handle)
  | closed

/-- The handle a client holds open, if it holds one. -/
def Stage.handle {ι Handle : Type} : Stage ι Handle → Option Handle
  | .opened h | .placed h _ | .cleared h => some h
  | .fresh | .closed => none

section Handle

variable {ι Handle : Type}

@[simp] theorem Stage.handle_fresh : (fresh : Stage ι Handle).handle = none := rfl
@[simp] theorem Stage.handle_opened (h : Handle) : (opened h : Stage ι Handle).handle = some h := rfl
@[simp] theorem Stage.handle_placed (h : Handle) (i : ι) : (placed h i).handle = some h := rfl
@[simp] theorem Stage.handle_cleared (h : Handle) : (cleared h : Stage ι Handle).handle = some h := rfl
@[simp] theorem Stage.handle_closed : (closed : Stage ι Handle).handle = none := rfl

end Handle

/-- The table, the owners of the open handles and the stage of each client. -/
structure State (ι Handle Client : Type) where
  slots : ι → Option Handle
  owner : Handle → Option Client
  stage : Client → Stage ι Handle

variable {ι Handle Client : Type}

/-- An open handle belongs to the one client that holds it, and a filled slot to the one client
    placed there. -/
structure Inv (s : State ι Handle Client) : Prop where
  owner_iff : ∀ h c, s.owner h = some c ↔ (s.stage c).handle = some h
  slots_iff : ∀ i h, s.slots i = some h ↔ ∃ c, s.stage c = .placed h i

/-- Nothing placed, nothing open, nobody started. -/
def initial : State ι Handle Client := ⟨fun _ => none, fun _ => none, fun _ => .fresh⟩

theorem inv_initial : Inv (initial : State ι Handle Client) where
  owner_iff := by simp [initial]
  slots_iff := by simp [initial]

namespace Inv

variable {s : State ι Handle Client}

/-- Two clients never hold the same handle. -/
theorem client_unique (hs : Inv s) {c c' : Client} {h : Handle}
    (hc : (s.stage c).handle = some h) (hc' : (s.stage c').handle = some h) : c = c' := by
  rw [← hs.owner_iff] at hc hc'
  exact Option.some.inj (hc.symm.trans hc')

theorem owner_of_placed (hs : Inv s) {c : Client} {h : Handle} {i : ι}
    (hc : s.stage c = .placed h i) : s.owner h = some c := by
  rw [hs.owner_iff, hc]; rfl

theorem slots_of_placed (hs : Inv s) {c : Client} {h : Handle} {i : ι}
    (hc : s.stage c = .placed h i) : s.slots i = some h :=
  (hs.slots_iff i h).2 ⟨c, hc⟩

/-- A handle stands in at most one slot. -/
theorem slot_unique (hs : Inv s) {i j : ι} {h : Handle} (hi : s.slots i = some h)
    (hj : s.slots j = some h) : i = j := by
  obtain ⟨c, hc⟩ := (hs.slots_iff i h).1 hi
  obtain ⟨c', hc'⟩ := (hs.slots_iff j h).1 hj
  obtain rfl : c = c' := hs.client_unique (by rw [hc]; rfl) (by rw [hc']; rfl)
  rw [hc] at hc'
  cases hc'
  rfl

end Inv

variable [DecidableEq ι] [DecidableEq Handle] [DecidableEq Client]

open Function (update)

/-- The steps of a client's life. -/
inductive Step : State ι Handle Client → State ι Handle Client → Prop
  | open_ {s : State ι Handle Client} {c : Client} {h : Handle} (hc : s.stage c = .fresh)
      (hh : s.owner h = none) :
      Step s { s with owner := update s.owner h (some c), stage := update s.stage c (.opened h) }
  | place {s : State ι Handle Client} {c : Client} {h : Handle} {i : ι}
      (hc : s.stage c = .opened h) (hi : s.slots i = none) :
      Step s { s with slots := update s.slots i (some h), stage := update s.stage c (.placed h i) }
  | clear {s : State ι Handle Client} {c : Client} {h : Handle} {i : ι}
      (hc : s.stage c = .placed h i) :
      Step s { s with slots := update s.slots i none, stage := update s.stage c (.cleared h) }
  | reject {s : State ι Handle Client} {c : Client} {h : Handle} (hc : s.stage c = .opened h) :
      Step s { s with owner := update s.owner h none, stage := update s.stage c .closed }
  | close {s : State ι Handle Client} {c : Client} {h : Handle} (hc : s.stage c = .cleared h) :
      Step s { s with owner := update s.owner h none, stage := update s.stage c .closed }

omit [DecidableEq ι] [DecidableEq Handle] in
/-- A client that holds the same handle in its new stage leaves all handles as they are. -/
theorem handle_update {stage : Client → Stage ι Handle} {c : Client} {st : Stage ι Handle}
    (h : st.handle = (stage c).handle) (d : Client) :
    (update stage c st d).handle = (stage d).handle := by
  by_cases hd : d = c
  · subst hd; simpa using h
  · simp [hd]

omit [DecidableEq ι] [DecidableEq Handle] in
/-- A client that is in no slot before and after leaves all placements as they are. -/
theorem placed_update {stage : Client → Stage ι Handle} {c : Client} {st : Stage ι Handle}
    (hc : ∀ h i, stage c ≠ .placed h i) (hst : ∀ h i, st ≠ .placed h i) (h : Handle) (i : ι) :
    (∃ d, update stage c st d = .placed h i) ↔ ∃ d, stage d = .placed h i := by
  constructor
  · rintro ⟨d, hd⟩
    by_cases hdc : d = c
    · subst hdc; exact absurd (by simpa using hd) (hst h i)
    · exact ⟨d, by simpa [hdc] using hd⟩
  · rintro ⟨d, hd⟩
    have hdc : d ≠ c := by rintro rfl; exact hc h i hd
    exact ⟨d, by simpa [hdc] using hd⟩

omit [DecidableEq ι] in
/-- Closing the handle of a client that is in no slot. -/
theorem inv_close {s : State ι Handle Client} {c : Client} {h : Handle} (hs : Inv s)
    (hc : (s.stage c).handle = some h) (hp : ∀ h' i, s.stage c ≠ .placed h' i) :
    Inv { s with owner := update s.owner h none, stage := update s.stage c .closed } := by
  refine ⟨fun h' d => ?_, fun i h' => ?_⟩
  · by_cases hdc : d = c
    · subst hdc
      have hne : h' ≠ h → s.owner h' ≠ some d := fun hh ho => by
        rw [hs.owner_iff, hc] at ho
        exact hh (Option.some.inj ho).symm
      by_cases hh : h' = h <;> simp_all
    · have hne : s.owner h ≠ some d := fun ho =>
        hdc (hs.client_unique ((hs.owner_iff h d).1 ho) hc)
      by_cases hh : h' = h
      · subst hh; simpa [hdc, hs.owner_iff] using hne
      · simpa [hh, hdc] using hs.owner_iff h' d
  · rw [hs.slots_iff, placed_update hp (by simp)]

/-- Each step of a client's life keeps the invariant. -/
theorem inv_step {s s' : State ι Handle Client} (hstep : Step s s') (hs : Inv s) : Inv s' := by
  cases hstep with
  | @open_ c h hc hh =>
    refine ⟨fun h' d => ?_, fun i h' => ?_⟩
    · by_cases hdc : d = c
      · subst hdc
        have hne : s.owner h' ≠ some d := fun ho => by rw [hs.owner_iff, hc] at ho; cases ho
        by_cases hh' : h' = h
        · subst hh'; simp
        · simp only [Function.update_of_ne hh', Function.update_self, Stage.handle_opened,
            Option.some.injEq]
          exact ⟨fun ho => absurd ho hne, fun e => absurd e.symm hh'⟩
      · have hne : (s.stage d).handle ≠ some h := fun hd => by
          rw [← hs.owner_iff, hh] at hd; cases hd
        by_cases hh' : h' = h
        · subst hh'; simpa [hdc, Ne.symm hdc] using hne
        · simpa [hh', hdc] using hs.owner_iff h' d
    · rw [hs.slots_iff, placed_update (by simp [hc]) (by simp)]
  | @place c h i hc hi =>
    refine ⟨fun h' d => ?_, fun j h' => ?_⟩
    · rw [handle_update (by simp [hc])]
      exact hs.owner_iff h' d
    · have hold : ∀ d, d ≠ c → (update s.stage c (.placed h i) d = .placed h' j ↔
          s.stage d = .placed h' j) := fun d hd => by rw [Function.update_of_ne hd]
      constructor
      · intro hj
        by_cases hji : j = i
        · subst hji
          obtain rfl : h = h' := by simpa using hj
          exact ⟨c, by simp⟩
        · obtain ⟨d, hd⟩ := (hs.slots_iff j h').1 (by simpa [hji] using hj)
          exact ⟨d, (hold d (by rintro rfl; rw [hc] at hd; cases hd)).2 hd⟩
      · rintro ⟨d, hd⟩
        by_cases hdc : d = c
        · subst hdc
          obtain ⟨rfl, rfl⟩ : h = h' ∧ i = j := by simpa using hd
          simp
        · have hj := hs.slots_of_placed ((hold d hdc).1 hd)
          have hji : j ≠ i := by rintro rfl; rw [hi] at hj; cases hj
          simpa [hji] using hj
  | @clear c h i hc =>
    refine ⟨fun h' d => ?_, fun j h' => ?_⟩
    · rw [handle_update (by simp [hc])]
      exact hs.owner_iff h' d
    · constructor
      · intro hj
        have hji : j ≠ i := by rintro rfl; simp at hj
        obtain ⟨d, hd⟩ := (hs.slots_iff j h').1 (by simpa [hji] using hj)
        have hdc : d ≠ c := by
          rintro rfl
          rw [hc] at hd
          cases hd
          exact hji rfl
        exact ⟨d, by simpa [hdc] using hd⟩
      · rintro ⟨d, hd⟩
        have hdc : d ≠ c := by rintro rfl; simp at hd
        have hd' : s.stage d = .placed h' j := by simpa [hdc] using hd
        have hji : j ≠ i := by
          rintro rfl
          have heq := (hs.slots_of_placed hd').symm.trans (hs.slots_of_placed hc)
          cases heq
          exact hdc (hs.client_unique (by rw [hd']; rfl) (by rw [hc]; rfl))
        simpa [hji] using hs.slots_of_placed hd'
  | @reject c h hc => exact inv_close hs (by rw [hc]; rfl) (by simp [hc])
  | @close c h hc => exact inv_close hs (by rw [hc]; rfl) (by simp [hc])

/-- A placed client stays where it is until its slot is cleared. -/
theorem placed_step {s s' : State ι Handle Client} (hstep : Step s s') {c : Client} {h : Handle}
    {i : ι} (hc : s.stage c = .placed h i ∨ s.stage c = .cleared h ∨ s.stage c = .closed) :
    s'.stage c = .placed h i ∨ s'.stage c = .cleared h ∨ s'.stage c = .closed := by
  cases hstep with
  | @open_ d _ hd | @place d _ _ hd | @reject d _ hd =>
    have hcd : c ≠ d := by
      rintro rfl
      simp [hd] at hc
    simpa [hcd] using hc
  | @clear d h' j hd =>
    by_cases hcd : c = d
    · subst hcd
      obtain ⟨rfl, rfl⟩ : h' = h ∧ j = i := by simpa [hd] using hc
      simp
    · simpa [hcd] using hc
  | @close d _ hd =>
    by_cases hcd : c = d
    · simp [hcd]
    · simpa [hcd] using hc

/-- A placed client along a whole run. -/
theorem placed_steps {s s' : State ι Handle Client} (hsteps : Relation.ReflTransGen Step s s')
    {c : Client} {h : Handle} {i : ι} (hc : s.stage c = .placed h i) :
    s'.stage c = .placed h i ∨ s'.stage c = .cleared h ∨ s'.stage c = .closed := by
  induction hsteps with
  | refl => exact .inl hc
  | tail _ hstep ih => exact placed_step hstep ih

/-- A client that has left its slot does not get one again. -/
theorem gone_step {s s' : State ι Handle Client} (hstep : Step s s') {c : Client} {h : Handle}
    (hc : s.stage c = .cleared h ∨ s.stage c = .closed) :
    s'.stage c = .cleared h ∨ s'.stage c = .closed := by
  cases hstep with
  | @open_ d _ hd | @place d _ _ hd | @reject d _ hd | @clear d _ _ hd =>
    have hcd : c ≠ d := by
      rintro rfl
      simp [hd] at hc
    simpa [hcd] using hc
  | @close d _ hd =>
    by_cases hcd : c = d
    · simp [hcd]
    · simpa [hcd] using hc

theorem gone_steps {s s' : State ι Handle Client} (hsteps : Relation.ReflTransGen Step s s')
    {c : Client} {h : Handle} (hc : s.stage c = .cleared h ∨ s.stage c = .closed) :
    s'.stage c = .cleared h ∨ s'.stage c = .closed := by
  induction hsteps with
  | refl => exact hc
  | tail _ hstep ih => exact gone_step hstep ih

end ChatMultithread.Lib.HandleTable
