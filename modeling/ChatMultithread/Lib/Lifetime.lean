import Mathlib.Data.List.Basic

/-!
# The life of a resource

A resource is acquired, used and released. `Lived` says that a list of uses is in order: nothing
before the acquisition, nothing behind the release, and each of the two at most once.
-/

namespace ChatMultithread.Lib

/-- What one does with a resource. -/
inductive Use where
  | acquire
  | use
  | release
  deriving DecidableEq, Repr

/-- Where a resource stands in its life. -/
inductive Life where
  | unborn
  | alive
  | dead
  deriving DecidableEq, Repr

/-- The uses of a resource that is there now. -/
def Lived : Life → List Use → Prop
  | .unborn, uses => uses = []
  | .alive, uses => ∃ n, uses = .acquire :: List.replicate n .use
  | .dead, uses => ∃ n, uses = .acquire :: List.replicate n .use ++ [.release]

/-- What can be done with the resource, and where it is then. -/
inductive Life.Step : Life → Use → Life → Prop
  | acquire : Step .unborn .acquire .alive
  | use : Step .alive .use .alive
  | release : Step .alive .release .dead

theorem lived_nil : Lived .unborn [] := rfl

theorem Life.step_use {life : Life} (h : life = .alive) : life.Step .use life := by
  rw [h]
  exact .use

/-- A life goes on step by step. -/
theorem Lived.step {life life' : Life} {uses : List Use} {u : Use} (h : Lived life uses)
    (hstep : life.Step u life') : Lived life' (uses ++ [u]) := by
  cases hstep with
  | acquire =>
    rw [show uses = [] from h]
    exact ⟨0, rfl⟩
  | use =>
    obtain ⟨n, rfl⟩ := h
    exact ⟨n + 1, by rw [List.replicate_succ']; rfl⟩
  | release =>
    obtain ⟨n, rfl⟩ := h
    exact ⟨n, rfl⟩

section Logs

variable {E : Type} {kind : E → Option Use} {life life' : Life} {log : List E} {e : E}

/-- The uses of one resource among the entries of a log. -/
def usesIn (kind : E → Option Use) (log : List E) : List Use := log.filterMap kind

/-- A life goes on entry by entry: an entry that is not about the resource leaves it where it is. -/
theorem Lived.entry (h : Lived life (usesIn kind log))
    (hstep : ∀ u, kind e = some u → life.Step u life') (hother : kind e = none → life' = life) :
    Lived life' (usesIn kind (log ++ [e])) := by
  rw [usesIn, List.filterMap_append]
  cases he : kind e with
  | none =>
    rw [hother he, List.filterMap_cons_none he, List.filterMap_nil, List.append_nil]
    exact h
  | some u =>
    rw [List.filterMap_cons_some he, List.filterMap_nil]
    exact h.step (hstep u he)

end Logs

end ChatMultithread.Lib
