import ChatMultithread.Server.Sequential

/-!
# Serving without interruption

A thread that nobody interrupts takes its steps in a row, here at one time and with every send
whole, until it waits for its client again or has ended. What the server does about one thing that
happens is then a piece of a run, whose end is determined.
-/

namespace ChatMultithread

open Lib

namespace Server

variable {x : Externs} {c : Conn} {now : Int}

/-- The thread `t` of `c` runs a program to its end: what it returns, and the thread and the state
    behind it. -/
def finish (x : Externs) (c : Conn) (now : Int) {α : Type} :
    ServerProg α → Thread → Server → Option (α × Thread × Server)
  | .ret a, t, s => some (a, t, s)
  | .call o k, t, s =>
      match s.perform x c t now true o with
      | none => none
      | some (r, s', target) => finish x c now (k r) { t with target := target } s'

/-- Steps of the thread of `c` in a row. -/
def Goes (x : Externs) (c : Conn) (now : Int) : Server → Server → Prop :=
  Relation.ReflTransGen fun s s' => s.step x (.client c (.go now true)) = some s'

/-- The thread waits for its client, or has ended. -/
def Parked (c : Conn) (s : Server) : Prop :=
  ∀ t, s.threads c = some t → t.pc = .receiving ∨ t.pc = .done

/-- Steps of the accept loop until it is back at its top. -/
def Accepts (x : Externs) : Server → Server → Prop :=
  Relation.ReflTransGen fun s s' => s.accept ≠ .top ∧ s.step x (.acceptor .go) = some s'

/-- Steps of the monitor until its round is over. -/
def Notifies (x : Externs) (now : Int) : Server → Server → Prop :=
  Relation.ReflTransGen fun s s' => s.monitor ≠ .tick ∧ s.step x (.monitor now true) = some s'

/-- One program behind the other. -/
theorem finish_bind {α β : Type} (p : ServerProg α) (f : α → ServerProg β) (t : Thread)
    (s : Server) : finish x c now (p >>= f) t s =
      (finish x c now p t s).bind fun q => finish x c now (f q.1) q.2.1 q.2.2 := by
  induction p generalizing t s with
  | ret a => rfl
  | call o k ih =>
    rw [Prog.call_bind, finish, finish]
    cases s.perform x c t now true o with
    | none => rfl
    | some q => exact ih q.1 { t with target := q.2.2 } q.2.1

/-! ## The end of a row of steps is determined -/

/-- Two ends of the rows that one can take from a state are the same. -/
theorem reflTransGen_end {α : Type} {R : α → α → Prop} (hR : Relator.RightUnique R) {a b b' : α}
    (hb : Relation.ReflTransGen R a b) (hb' : Relation.ReflTransGen R a b') (hend : ∀ d, ¬ R b d)
    (hend' : ∀ d, ¬ R b' d) : b' = b := by
  rcases Relation.ReflTransGen.total_of_right_unique hR hb hb' with h | h
  · rcases h.cases_head with rfl | ⟨d, hd, -⟩
    · rfl
    · exact absurd hd (hend d)
  · rcases h.cases_head with rfl | ⟨d, hd, -⟩
    · rfl
    · exact absurd hd (hend' d)

theorem goes_unique : Relator.RightUnique fun s s' : Server =>
    s.step x (.client c (.go now true)) = some s' :=
  fun _ _ _ h h' => Option.some.inj (h.symm.trans h')

theorem not_go_of_parked {s s' : Server} (h : Parked c s) :
    ¬ s.step x (.client c (.go now true)) = some s' := by
  intro hstep
  simp only [Server.step] at hstep
  cases ht : s.threads c with
  | none =>
    rw [ht] at hstep
    cases hstep
  | some t =>
    rw [ht] at hstep
    rcases h t ht with hpc | hpc <;> simp only [hpc, clientStep] at hstep <;> cases hstep

theorem Goes.end_unique {s s₁ s₂ : Server} (h₁ : Goes x c now s s₁) (hp₁ : Parked c s₁)
    (h₂ : Goes x c now s s₂) (hp₂ : Parked c s₂) : s₂ = s₁ :=
  reflTransGen_end goes_unique h₁ h₂ (fun _ => not_go_of_parked hp₁) fun _ => not_go_of_parked hp₂

theorem Accepts.end_unique {s s₁ s₂ : Server} (h₁ : Accepts x s s₁) (hp₁ : s₁.accept = .top)
    (h₂ : Accepts x s s₂) (hp₂ : s₂.accept = .top) : s₂ = s₁ := by
  refine reflTransGen_end ?_ h₁ h₂ (fun _ h => h.1 hp₁) fun _ h => h.1 hp₂
  exact fun _ _ _ h h' => Option.some.inj (h.2.symm.trans h'.2)

theorem Notifies.end_unique {s s₁ s₂ : Server} (h₁ : Notifies x now s s₁)
    (hp₁ : s₁.monitor = .tick) (h₂ : Notifies x now s s₂) (hp₂ : s₂.monitor = .tick) : s₂ = s₁ := by
  refine reflTransGen_end ?_ h₁ h₂ (fun _ h => h.1 hp₁) fun _ h => h.1 hp₂
  exact fun _ _ _ h h' => Option.some.inj (h.2.symm.trans h'.2)

/-! ## Rows of steps are runs -/

theorem reach_of_step {timeout : Int} {l : Label} {s s' : Server}
    (hs : (serverSystem x timeout).Reach s) (h : s.step x l = some s') :
    (serverSystem x timeout).Reach s' := hs.step (l := l) h

theorem reach_of_reflTransGen {timeout : Int} {R : Server → Server → Prop} {l : Label}
    (hR : ∀ s s', R s s' → s.step x l = some s') {s s' : Server}
    (hs : (serverSystem x timeout).Reach s) (h : Relation.ReflTransGen R s s') :
    (serverSystem x timeout).Reach s' := by
  induction h with
  | refl => exact hs
  | tail _ hstep ih => exact reach_of_step ih (hR _ _ hstep)

/-- A program that a thread runs to its end takes it on to what is behind. -/
theorem goes_finish {α : Type} {p : ServerProg α} {t t' : Thread} {s s' : Server} {a : α}
    (h : finish x c now p t s = some (a, t', s')) (f : α → ServerProg LoopExit) :
    Goes x c now (s.setThread c { t with pc := .handling (p >>= f) })
      (s'.setThread c { t' with pc := .handling (f a) }) := by
  induction p generalizing t s with
  | ret b =>
    cases h
    exact .refl
  | call o k ih =>
    unfold finish at h
    split at h
    · cases h
    · rename_i r s₁ target hop
      refine .head ?_ (ih r h)
      simp only [Prog.call_bind, step, setThread_threads_self, clientStep, perform_setThread, hop,
        Option.map_some]
      simp [setThread]

/-- A program that is all that a thread has to do. -/
theorem goes_of_finish {p : ServerProg LoopExit} {t t' : Thread} {s s' : Server} {a : LoopExit}
    (h : finish x c now p t s = some (a, t', s')) :
    Goes x c now (s.setThread c { t with pc := .handling p })
      (s'.setThread c { t' with pc := .handling (.ret a) }) := by
  have hgoes := goes_finish h .ret
  rw [Prog.bind_ret] at hgoes
  exact hgoes

end Server

end ChatMultithread
