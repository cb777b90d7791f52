import Mathlib.Logic.Relation

/-!
# Labelled transition systems

A system is an initial state and a partial step function; a label names the thread that moves
and what its environment answers. `ReachUnder ok` are the states of the runs all of whose steps
meet `ok`, a condition on the state a step is taken in and on its label; `Reach` puts no
condition. An invariant is proved once per step and holds of every such run.
-/

namespace ChatMultithread.Lib

/-- An initial state and what each label does, where it is enabled. -/
structure System (State Label : Type) where
  init : State
  step : State → Label → Option State

namespace System

variable {State Label : Type} (S : System State Label)

/-- States of the runs in which every step is taken under `ok`. -/
inductive ReachUnder (ok : State → Label → Prop) : State → Prop
  | init : ReachUnder ok S.init
  | step {s s' : State} {l : Label} (h : ReachUnder ok s) (hok : ok s l)
      (hs : S.step s l = some s') : ReachUnder ok s'

/-- States of all runs. -/
def Reach : State → Prop := S.ReachUnder fun _ _ => True

/-- The same system, started in another state. -/
def startingAt (s : State) : System State Label := { S with init := s }

/-- Takes the labels in order; there is no result when one of them is not enabled. -/
def run : State → List Label → Option State
  | s, [] => some s
  | s, l :: ls =>
      match S.step s l with
      | none => none
      | some s' => run s' ls

/-- Takes the labels in order as long as each passes a test. -/
def runIf (p : State → Label → Bool) : State → List Label → Option State
  | s, [] => some s
  | s, l :: ls =>
      if p s l then
        match S.step s l with
        | none => none
        | some s' => runIf p s' ls
      else none

/-- The same system with an observer beside it, who keeps a record of the steps. -/
def observed {R : Type} (S : System State Label) (record : R) (next : State → Label → R → R) :
    System (State × R) Label where
  init := (S.init, record)
  step p l := (S.step p.1 l).map fun s' => (s', next p.1 l p.2)

variable {S}

theorem ReachUnder.mono {ok ok' : State → Label → Prop} (h : ∀ s l, ok s l → ok' s l)
    {s : State} (hs : S.ReachUnder ok s) : S.ReachUnder ok' s := by
  induction hs with
  | init => exact .init
  | step _ hok hstep ih => exact .step ih (h _ _ hok) hstep

theorem ReachUnder.reach {ok : State → Label → Prop} {s : State} (h : S.ReachUnder ok s) :
    S.Reach s :=
  h.mono fun _ _ _ => trivial

theorem Reach.init : S.Reach S.init := ReachUnder.init

theorem Reach.step {s s' : State} {l : Label} (h : S.Reach s) (hs : S.step s l = some s') :
    S.Reach s' :=
  ReachUnder.step h trivial hs

/-- A run that goes on from a state of a run is a run. -/
theorem ReachUnder.trans {ok : State → Label → Prop} {s s' : State} (h : S.ReachUnder ok s)
    (h' : (S.startingAt s).ReachUnder ok s') : S.ReachUnder ok s' := by
  induction h' with
  | init => exact h
  | step _ hok hstep ih => exact .step ih hok hstep

/-- The invariant rule: what holds at first and is kept by every step taken under `ok`, holds
    in every state of the runs under `ok`. -/
theorem ReachUnder.invariant {ok : State → Label → Prop} {P : State → Prop} (hinit : P S.init)
    (hstep : ∀ s l s', S.ReachUnder ok s → P s → ok s l → S.step s l = some s' → P s')
    {s : State} (h : S.ReachUnder ok s) : P s := by
  induction h with
  | init => exact hinit
  | step hs hok hl ih => exact hstep _ _ _ hs ih hok hl

/-- The invariant rule without a condition on the steps. -/
theorem Reach.invariant {P : State → Prop} (hinit : P S.init)
    (hstep : ∀ s l s', S.Reach s → P s → S.step s l = some s' → P s')
    {s : State} (h : S.Reach s) : P s :=
  ReachUnder.invariant hinit (fun s l s' hr hp _ hs => hstep s l s' hr hp hs) h

/-- An executed list of labels is a run, under a condition that each of them meets in every
    state. -/
theorem ReachUnder.run {ok : State → Label → Prop} {s s' : State} {ls : List Label}
    (h : S.ReachUnder ok s) (hok : ∀ l ∈ ls, ∀ t, ok t l) (hrun : S.run s ls = some s') :
    S.ReachUnder ok s' := by
  induction ls generalizing s with
  | nil =>
    cases hrun
    exact h
  | cons l ls ih =>
    unfold System.run at hrun
    split at hrun
    · cases hrun
    · rename_i t ht
      have hnext := h.step (hok l List.mem_cons_self s) ht
      exact ih hnext (fun l' hl' => hok l' (List.mem_cons_of_mem _ hl')) hrun

/-- An executed list of labels that pass the test is a run under the condition it tests. -/
theorem ReachUnder.runIf {ok : State → Label → Prop} {p : State → Label → Bool}
    (hp : ∀ s l, S.Reach s → p s l = true → ok s l) {s s' : State} {ls : List Label}
    (h : S.ReachUnder ok s) (hrun : S.runIf p s ls = some s') : S.ReachUnder ok s' := by
  induction ls generalizing s with
  | nil =>
    cases hrun
    exact h
  | cons l ls ih =>
    unfold System.runIf at hrun
    split at hrun
    · rename_i hl
      split at hrun
      · cases hrun
      · rename_i t ht
        exact ih (h.step (hp s l h.reach hl) ht) hrun
    · cases hrun

/-- An executed list of labels is a run. -/
theorem Reach.run {s s' : State} {ls : List Label} (h : S.Reach s)
    (hrun : S.run s ls = some s') : S.Reach s' :=
  ReachUnder.run h (fun _ _ _ => trivial) hrun

/-- What can only be done under `P`, which it ends and nothing brings back, is done once at most in a
    run that begins under `Q`. -/
theorem countP_run_le_one {P Q : State → Prop} {p : Label → Bool}
    (hQ : ∀ s l s', Q s → S.step s l = some s' → Q s')
    (hunder : ∀ s l s', Q s → S.step s l = some s' → p l = true → P s)
    (hback : ∀ s l s', Q s → S.step s l = some s' → P s' → P s ∧ p l = false)
    {s s' : State} {ls : List Label} (h : Q s) (hrun : S.run s ls = some s') :
    ls.countP p ≤ 1 ∧ (¬ P s → ls.countP p = 0) := by
  induction ls generalizing s with
  | nil => exact ⟨Nat.zero_le 1, fun _ => rfl⟩
  | cons l ls ih =>
    rw [run] at hrun
    split at hrun
    · cases hrun
    · rename_i s₁ hstep
      obtain ⟨hone, hnone⟩ := ih (hQ s l s₁ h hstep) hrun
      cases hp : p l with
      | false =>
        rw [List.countP_cons_of_neg (by simp [hp])]
        refine ⟨hone, fun hP => hnone fun hP₁ => ?_⟩
        exact hP (hback s l s₁ h hstep hP₁).1
      | true =>
        have hP₁ : ¬ P s₁ := by
          intro hP₁
          rw [(hback s l s₁ h hstep hP₁).2] at hp
          cases hp
        rw [List.countP_cons_of_pos hp, hnone hP₁]
        exact ⟨Nat.le_refl 1, fun hP => absurd (hunder s l s₁ h hstep hp) hP⟩

/-- A state with a property that one can compute is reached by running the labels. -/
theorem exists_reach_of_run (ls : List Label) (p : State → Bool)
    (h : (S.run S.init ls).map p = some true) : ∃ s, S.Reach s ∧ p s = true := by
  cases hrun : S.run S.init ls with
  | none =>
    rw [hrun] at h
    cases h
  | some s =>
    rw [hrun] at h
    exact ⟨s, Reach.init.run hrun, Option.some.inj h⟩

/-- The same for a run all of whose labels pass a test. -/
theorem exists_reachUnder_of_runIf (ok : State → Label → Prop) {p : State → Label → Bool}
    (hp : ∀ s l, S.Reach s → p s l = true → ok s l) (ls : List Label) (q : State → Bool)
    (h : (S.runIf p S.init ls).map q = some true) : ∃ s, S.ReachUnder ok s ∧ q s = true := by
  cases hrun : S.runIf p S.init ls with
  | none =>
    rw [hrun] at h
    cases h
  | some s =>
    rw [hrun] at h
    exact ⟨s, ReachUnder.init.runIf hp hrun, Option.some.inj h⟩

/-! ## Observers -/

section Observed

variable {R : Type} {record : R} {next : State → Label → R → R}

theorem observed_step {p p' : State × R} {l : Label}
    (h : (S.observed record next).step p l = some p') :
    S.step p.1 l = some p'.1 ∧ p'.2 = next p.1 l p.2 := by
  obtain ⟨s', hs, rfl⟩ := Option.map_eq_some_iff.1 h
  exact ⟨hs, rfl⟩

/-- An observed run is a run. -/
theorem ReachUnder.of_observed {ok : State × R → Label → Prop} {p : State × R}
    (h : (S.observed record next).ReachUnder ok p) : S.Reach p.1 := by
  induction h with
  | init => exact Reach.init
  | step _ _ hs ih => exact ih.step (observed_step hs).1

/-- Every run can be observed. -/
theorem Reach.observed {s : State} (h : S.Reach s) :
    ∃ r, (S.observed record next).Reach (s, r) := by
  induction h with
  | init => exact ⟨record, Reach.init⟩
  | @step s s' l _ _ hs ih =>
    obtain ⟨r, hr⟩ := ih
    have hstep : (S.observed record next).step (s, r) l = some (s', next s l r) := by
      show (S.step s l).map _ = _
      rw [hs, Option.map_some]
    exact ⟨next s l r, hr.step hstep⟩

end Observed

end System

/-- `R` is a simulation of the system `S` by steps of an abstract relation: it holds at first,
    and every step of `S` is matched by some number of abstract steps. -/
structure Simulation {State Label A : Type} (S : System State Label) (a₀ : A)
    (astep : A → A → Prop) (R : State → A → Prop) : Prop where
  init : R S.init a₀
  step : ∀ s l s' a, R s a → S.step s l = some s' →
    ∃ a', Relation.ReflTransGen astep a a' ∧ R s' a'

/-- A run of the simulated system is matched by abstract steps. -/
theorem Simulation.reach {State Label A : Type} {S : System State Label} {a₀ : A}
    {astep : A → A → Prop} {R : State → A → Prop} (h : Simulation S a₀ astep R) {s : State}
    (hs : S.Reach s) : ∃ a, Relation.ReflTransGen astep a₀ a ∧ R s a := by
  refine hs.invariant (P := fun s => ∃ a, Relation.ReflTransGen astep a₀ a ∧ R s a)
    ⟨a₀, .refl, h.init⟩ ?_
  rintro s l s' - ⟨a, ha, hR⟩ hstep
  obtain ⟨a', ha', hR'⟩ := h.step s l s' a hR hstep
  exact ⟨a', ha.trans ha', hR'⟩

/-- One step of a system, with some label. -/
def System.Steps {State Label : Type} (S : System State Label) (s s' : State) : Prop :=
  ∃ l, S.step s l = some s'

theorem System.Reach.steps {State Label : Type} {S : System State Label} {s s' : State}
    (h : S.Reach s) (hs : Relation.ReflTransGen S.Steps s s') : S.Reach s' := by
  induction hs with
  | refl => exact h
  | tail _ hstep ih =>
    obtain ⟨l, hl⟩ := hstep
    exact ih.step hl

end ChatMultithread.Lib
