import Mathlib.Logic.Basic

/-!
# Programs that run between calls to their environment

A `Prog` has either returned, or it stands at a call of its environment and continues with
whatever that answers. Code that other threads interleave with is written once in this form:
a sequential run (`exec`) lets one fixed environment answer every call, a concurrent system
performs one call at a time and keeps the rest of the program in its state.

`Monitor.Safe` is the rule by which one reasons about all interleavings at once: a ghost state
follows the calls of the program, and every call it can make, whatever the environment
answers, has to be allowed in the ghost state it is made in.
-/

namespace ChatMultithread.Lib

/-- A program over the calls `Op`, where call `o` is answered with a `Resp o`. -/
inductive Prog (Op : Type) (Resp : Op → Type) (α : Type) : Type where
  | ret (a : α) : Prog Op Resp α
  | call (o : Op) (k : Resp o → Prog Op Resp α) : Prog Op Resp α

namespace Prog

variable {Op : Type} {Resp : Op → Type} {α β : Type}

/-- Sequential composition. -/
def bind : Prog Op Resp α → (α → Prog Op Resp β) → Prog Op Resp β
  | ret a, f => f a
  | call o k, f => call o fun r => bind (k r) f

instance : Monad (Prog Op Resp) where
  pure := ret
  bind := bind

/-- The program that makes one call and returns its answer. -/
def op (o : Op) : Prog Op Resp (Resp o) := call o ret

@[simp] theorem pure_eq (a : α) : (pure a : Prog Op Resp α) = ret a := rfl

@[simp] theorem ret_bind (a : α) (f : α → Prog Op Resp β) : (ret a >>= f) = f a := rfl

@[simp] theorem call_bind (o : Op) (k : Resp o → Prog Op Resp α) (f : α → Prog Op Resp β) :
    (call o k >>= f) = call o fun r => k r >>= f := rfl

@[simp] theorem op_bind (o : Op) (f : Resp o → Prog Op Resp β) :
    (op o >>= f) = call o f := rfl

theorem bind_ret (p : Prog Op Resp α) : p >>= ret = p := by
  induction p with
  | ret a => rfl
  | call o k ih =>
    rw [call_bind]
    exact congrArg _ (funext ih)

theorem bind_assoc {γ : Type} (p : Prog Op Resp α) (f : α → Prog Op Resp β)
    (g : β → Prog Op Resp γ) : p >>= f >>= g = p >>= fun a => f a >>= g := by
  induction p with
  | ret a => rfl
  | call o k ih =>
    rw [call_bind, call_bind, call_bind]
    exact congrArg _ (funext ih)

/-! ## Sequential runs -/

/-- The calls made and the value returned when the environment answers call `o` with
    `answer o`. The run has no result when a call it reaches is not answered. -/
def exec (answer : (o : Op) → Option (Resp o)) : Prog Op Resp α → Option (List Op × α)
  | ret a => some ([], a)
  | call o k =>
      match answer o with
      | none => none
      | some r => (exec answer (k r)).map fun p => (o :: p.1, p.2)

@[simp] theorem exec_ret (answer : (o : Op) → Option (Resp o)) (a : α) :
    exec answer (ret a : Prog Op Resp α) = some ([], a) := rfl

theorem exec_call {answer : (o : Op) → Option (Resp o)} {o : Op} {r : Resp o}
    (k : Resp o → Prog Op Resp α) (h : answer o = some r) :
    exec answer (call o k) = (exec answer (k r)).map fun p => (o :: p.1, p.2) := by
  simp [exec, h]

/-- A sequential composition runs its parts one after the other. -/
theorem exec_bind (answer : (o : Op) → Option (Resp o)) (p : Prog Op Resp α)
    (f : α → Prog Op Resp β) :
    exec answer (p >>= f) =
      (exec answer p).bind fun q => (exec answer (f q.2)).map fun q' => (q.1 ++ q'.1, q'.2) := by
  induction p with
  | ret a => simp
  | call o k ih =>
    rw [call_bind]
    cases h : answer o with
    | none => simp [exec, h]
    | some r =>
      rw [exec_call _ h, exec_call _ h, ih r]
      cases exec answer (k r) with
      | none => rfl
      | some q => simp [Function.comp_def]

/-- The program returns behind at most `n` calls, whatever the answers. -/
def Within : Nat → Prog Op Resp α → Prop
  | _, ret _ => True
  | 0, call _ _ => False
  | n + 1, call _ k => ∀ r, Within n (k r)

@[simp] theorem within_ret (n : Nat) (a : α) : Within n (ret a : Prog Op Resp α) := by
  cases n <;> trivial

@[simp] theorem within_call (n : Nat) (o : Op) (k : Resp o → Prog Op Resp α) :
    Within (n + 1) (call o k) ↔ ∀ r, Within n (k r) := Iff.rfl

theorem Within.mono {m n : Nat} {p : Prog Op Resp α} (h : Within m p) (hmn : m ≤ n) :
    Within n p := by
  induction p generalizing m n with
  | ret a => exact within_ret n a
  | call o k ih =>
    cases m with
    | zero => exact absurd h id
    | succ m =>
      obtain ⟨n, rfl⟩ := Nat.exists_eq_add_of_le' (Nat.le_trans (Nat.succ_le_succ (Nat.zero_le m)) hmn)
      exact fun r => ih r (h r) (Nat.le_of_succ_le_succ hmn)

/-- Where a program has to make a call, its budget is not used up. -/
theorem Within.pos {n : Nat} {o : Op} {k : Resp o → Prog Op Resp α} (h : Within n (call o k)) :
    ∃ m, n = m + 1 ∧ ∀ r, Within m (k r) := by
  cases n with
  | zero => exact absurd h id
  | succ m => exact ⟨m, rfl, h⟩

/-- What is left behind a call is within the same bound. -/
theorem Within.next {n : Nat} {o : Op} {k : Resp o → Prog Op Resp α} (h : Within n (call o k))
    (r : Resp o) : Within n (k r) := by
  obtain ⟨m, rfl, hk⟩ := h.pos
  exact (hk r).mono (Nat.le_succ m)

theorem Within.bind {m n : Nat} {p : Prog Op Resp α} {f : α → Prog Op Resp β} (hp : Within m p)
    (hf : ∀ a, Within n (f a)) : Within (m + n) (p >>= f) := by
  induction p generalizing m with
  | ret a => exact (hf a).mono (Nat.le_add_left n m)
  | call o k ih =>
    obtain ⟨m, rfl, hk⟩ := hp.pos
    rw [call_bind, Nat.succ_add]
    exact fun r => ih r (hk r)

/-- `Runs p calls a`: answered call by call as `calls` records, `p` returns `a`. -/
inductive Runs : Prog Op Resp α → List (Sigma Resp) → α → Prop
  | ret (a : α) : Runs (.ret a) [] a
  | call {o : Op} {k : Resp o → Prog Op Resp α} {calls : List (Sigma Resp)} {a : α} (r : Resp o)
      (rest : Runs (k r) calls a) : Runs (.call o k) (⟨o, r⟩ :: calls) a

/-- `Partial p calls`: answered call by call as `calls` records, `p` has not returned yet. -/
inductive Partial : Prog Op Resp α → List (Sigma Resp) → Prop
  | here (p : Prog Op Resp α) : Partial p []
  | call {o : Op} {k : Resp o → Prog Op Resp α} {calls : List (Sigma Resp)} (r : Resp o)
      (rest : Partial (k r) calls) : Partial (.call o k) (⟨o, r⟩ :: calls)

end Prog

/-! ## Monitored programs -/

/-- A ghost automaton that follows the calls of a program: what may be called in each ghost
    state, what the environment can answer there, and where the answer leads. -/
structure Monitor (Op : Type) (Resp : Op → Type) (σ : Type) where
  allows : σ → Op → Prop
  answers : σ → (o : Op) → Resp o → Prop
  next : σ → (o : Op) → Resp o → σ

namespace Monitor

variable {Op : Type} {Resp : Op → Type} {σ α β : Type}

/-- Started in the ghost state, the program makes only calls that are allowed, and returns
    only in a ghost state and with a value that satisfy `post`. -/
def Safe (M : Monitor Op Resp σ) (post : σ → α → Prop) : σ → Prog Op Resp α → Prop
  | g, .ret a => post g a
  | g, .call o k => M.allows g o ∧ ∀ r, M.answers g o r → Safe M post (M.next g o r) (k r)

variable {M : Monitor Op Resp σ} {post : σ → α → Prop}

@[simp] theorem safe_ret (g : σ) (a : α) :
    M.Safe post g (.ret a) ↔ post g a := Iff.rfl

@[simp] theorem safe_call (g : σ) (o : Op) (k : Resp o → Prog Op Resp α) :
    M.Safe post g (.call o k) ↔
      M.allows g o ∧ ∀ r, M.answers g o r → M.Safe post (M.next g o r) (k r) := Iff.rfl

/-- A sequential composition is safe exactly when its first part is, up to the second. -/
@[simp] theorem safe_bind (post : σ → β → Prop) (g : σ) (p : Prog Op Resp α)
    (f : α → Prog Op Resp β) :
    M.Safe post g (p >>= f) ↔ M.Safe (fun g a => M.Safe post g (f a)) g p := by
  induction p generalizing g with
  | ret a => exact Iff.rfl
  | call o k ih =>
    rw [Prog.call_bind, safe_call, safe_call]
    exact and_congr_right fun _ => forall_congr' fun r => imp_congr_right fun _ => ih r _

/-- Rule of consequence. -/
theorem Safe.mono {post' : σ → α → Prop} {g : σ} {p : Prog Op Resp α}
    (h : M.Safe post g p) (hpost : ∀ g a, post g a → post' g a) : M.Safe post' g p := by
  induction p generalizing g with
  | ret a => exact hpost g a h
  | call o k ih => exact ⟨h.1, fun r hr => ih r (h.2 r hr)⟩

/-- A program that is safe for one monitor is safe for another one that follows it: related ghost
    states stay related, and the other one allows what the first one does. -/
theorem Safe.transfer {τ : Type} {N : Monitor Op Resp τ} {post' : τ → α → Prop}
    (R : σ → τ → Prop) (hallows : ∀ g h o, R g h → M.allows g o → N.allows h o)
    (hanswers : ∀ g h o r, R g h → N.answers h o r → M.answers g o r)
    (hnext : ∀ g h o r, R g h → M.allows g o → R (M.next g o r) (N.next h o r))
    (hpost : ∀ g h a, R g h → post g a → post' h a) {g : σ} {h : τ} {p : Prog Op Resp α}
    (hR : R g h) (hp : M.Safe post g p) : N.Safe post' h p := by
  induction p generalizing g h with
  | ret a => exact hpost g h a hR hp
  | call o k ih =>
    refine ⟨hallows g h o hR hp.1, fun r hr => ?_⟩
    exact ih r (hnext g h o r hR hp.1) (hp.2 r (hanswers g h o r hR hr))

/-! ## Whole runs of monitored programs -/

/-- The ghost state behind a list of answered calls. -/
def after (M : Monitor Op Resp σ) : σ → List (Sigma Resp) → σ
  | g, [] => g
  | g, ⟨o, r⟩ :: calls => after M (M.next g o r) calls

/-- Every answer is one that the environment can give. -/
def Answered (M : Monitor Op Resp σ) : σ → List (Sigma Resp) → Prop
  | _, [] => True
  | g, ⟨o, r⟩ :: calls => M.answers g o r ∧ Answered M (M.next g o r) calls

/-- Every call is allowed where it is made. -/
def Allowed (M : Monitor Op Resp σ) : σ → List (Sigma Resp) → Prop
  | _, [] => True
  | g, ⟨o, r⟩ :: calls => M.allows g o ∧ Allowed M (M.next g o r) calls

/-- A run of a safe program makes allowed calls only and ends as the postcondition says. -/
theorem Safe.runs {g : σ} {p : Prog Op Resp α} (h : M.Safe post g p)
    {calls : List (Sigma Resp)} {a : α} (hrun : p.Runs calls a) (hans : M.Answered g calls) :
    M.Allowed g calls ∧ post (M.after g calls) a := by
  induction hrun generalizing g with
  | ret a => exact ⟨trivial, h⟩
  | call r rest ih =>
    obtain ⟨hallowed, hpost⟩ := ih (h.2 r hans.1) hans.2
    exact ⟨⟨h.1, hallowed⟩, hpost⟩

/-- Where every allowed call has an answer, a safe program that has not returned yet does: however
    it was answered so far, there are answers to the rest of its calls. -/
theorem Safe.completes (hopen : ∀ g o, M.allows g o → ∃ r, M.answers g o r) {g : σ}
    {p : Prog Op Resp α} (h : M.Safe post g p) {calls : List (Sigma Resp)} (hpart : p.Partial calls)
    (hans : M.Answered g calls) :
    ∃ more a, p.Runs (calls ++ more) a ∧ M.Answered g (calls ++ more) := by
  induction hpart generalizing g with
  | here p =>
    induction p generalizing g with
    | ret a => exact ⟨[], a, .ret a, trivial⟩
    | call o k ih =>
      obtain ⟨r, hr⟩ := hopen g o h.1
      obtain ⟨more, a, hrun, hmore⟩ := ih r (h.2 r hr) trivial
      exact ⟨⟨o, r⟩ :: more, a, .call r hrun, hr, hmore⟩
  | call r rest ih =>
    obtain ⟨more, a, hrun, hmore⟩ := ih (h.2 r hans.1) hans.2
    exact ⟨more, a, .call r hrun, hans.1, hmore⟩

end Monitor

end ChatMultithread.Lib
