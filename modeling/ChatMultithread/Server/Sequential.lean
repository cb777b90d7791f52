import ChatMultithread.Server.Proofs.Steps

/-!
# A handler on its own

The thread of a client runs a program from a state of the server, and nobody else moves. Such an
execution is a run of the transition system in which only this thread takes steps.
-/

namespace ChatMultithread

open Lib

namespace Server

/-- The thread `t` of `c` runs a program on its own: the calls it makes with their answers, what it
    returns and the state it leaves. -/
inductive Executes (x : Externs) (c : Conn) {α : Type} :
    Thread → Server → ServerProg α → List (Sigma Op.Resp) → α → Server → Prop
  | ret (t : Thread) (s : Server) (a : α) : Executes x c t s (.ret a) [] a s
  | call {t : Thread} {s s₁ s' : Server} {o : Op} {r : o.Resp} {k : o.Resp → ServerProg α}
      {target : Option (Int × Option Conn)} {calls : List (Sigma Op.Resp)} {a : α}
      (now : Int) (sent : Bool) (h : s.perform x c t now sent o = some (r, s₁, target))
      (rest : Executes x c { t with target := target } s₁ (k r) calls a s') :
      Executes x c t s (.call o k) (⟨o, r⟩ :: calls) a s'

/-- What a call sends to one socket, and whether that succeeds. -/
def sendOf : Sigma Op.Resp → Option (Int × Bytes × Bool)
  | ⟨.send fd buf, r⟩ => some (fd, buf, r)
  | _ => none

/-- The operation sends nothing but to the descriptor. -/
def SendsOnlyTo (fd : Int) : Op → Prop
  | .send fd' _ => fd' = fd
  | .broadcastAll _ | .broadcastExcept _ _ => False
  | _ => True

/-- No operation of the program is undefined. -/
def Defined {α : Type} : ServerProg α → Prop
  | .ret _ => True
  | .call o k => o ≠ .undefinedBehaviour ∧ ∀ r, Defined (k r)

variable {x : Externs} {c : Conn} {t : Thread} {s s' : Server} {α : Type}
  {calls : List (Sigma Op.Resp)} {a : α}

/-! ## Executions are runs of the server -/

/-- An operation neither reads nor writes where its own thread stands. -/
theorem perform_setThread (s : Server) (t : Thread) (pc : ThreadPc) (now : Int) (sent : Bool)
    (o : Op) : (s.setThread c { t with pc := pc }).perform x c { t with pc := pc } now sent o =
      (s.perform x c t now sent o).map fun p => (p.1, p.2.1.setThread c { t with pc := pc }, p.2.2) := by
  have hdeliver : ∀ src aim fd buf, (s.setThread c { t with pc := pc }).deliver src aim fd buf =
      (s.deliver src aim fd buf).setThread c { t with pc := pc } := by
    intro src aim fd buf
    unfold deliver
    rw [setThread_fds]
    cases s.fds fd <;> rfl
  cases o
  case broadcastAll msg =>
    simp only [perform, deliverAll_eq, Option.map_some]
    rfl
  case broadcastExcept msg fd =>
    simp only [perform, deliverAll_eq, Option.map_some]
    rfl
  case send fd buf =>
    have haim : aimOf c { t with pc := pc } fd = aimOf c t fd := rfl
    simp only [perform, hdeliver, haim, Option.map_some]
    cases sent <;> rfl
  all_goals rfl

/-- An execution of the first part of what a thread has to do takes the thread to the second. -/
theorem Executes.run {p : ServerProg α} (h : Executes x c t s p calls a s')
    (f : α → ServerProg LoopExit) (timeout : Int) :
    ∃ ls target, (∀ l ∈ ls, ∃ now sent, l = .client c (.go now sent)) ∧
      (serverSystem x timeout).run (s.setThread c { t with pc := .handling (p >>= f) }) ls =
        some (s'.setThread c { t with pc := .handling (f a), target := target }) := by
  induction h with
  | ret t s a => exact ⟨[], t.target, List.forall_mem_nil _, rfl⟩
  | @call t s s₁ s' o r k target calls a now sent h rest ih =>
    obtain ⟨ls, target', hls, hrun⟩ := ih
    have hstep : step x (s.setThread c { t with pc := .handling (.call o k >>= f) })
        (.client c (.go now sent)) =
        some (s₁.setThread c { t with pc := .handling (k r >>= f), target := target }) := by
      simp only [Prog.call_bind, step, setThread_threads_self, clientStep, perform_setThread, h,
        Option.map_some]
      simp [setThread]
    refine ⟨.client c (.go now sent) :: ls, target', ?_, ?_⟩
    · intro l hl
      rcases List.mem_cons.1 hl with rfl | hl
      · exact ⟨now, sent, rfl⟩
      · exact hls l hl
    · simp only [System.run, serverSystem, hstep]
      exact hrun

/-! ## Executing one call -/

section Calls

variable {o : Op} {k : o.Resp → ServerProg α}

theorem executes_ret {b : α} :
    Executes x c t s (.ret b) calls a s' ↔ calls = [] ∧ a = b ∧ s' = s := by
  constructor
  · intro h
    cases h
    exact ⟨rfl, rfl, rfl⟩
  · rintro ⟨rfl, rfl, rfl⟩
    exact .ret t s' a

/-- A call that reads has one answer and changes nothing. -/
theorem executes_read {r : o.Resp}
    (h : ∀ now sent, s.perform x c t now sent o = some (r, s, t.target)) :
    Executes x c t s (.call o k) calls a s' ↔
      ∃ rest, calls = ⟨o, r⟩ :: rest ∧ Executes x c t s (k r) rest a s' := by
  constructor
  · intro hexec
    cases hexec with
    | call now sent hperform rest =>
      rw [h] at hperform
      cases hperform
      exact ⟨_, rfl, rest⟩
  · rintro ⟨rest, rfl, hrest⟩
    exact .call 0 true (h 0 true) hrest

theorem executes_readSockfd {k : Int → ServerProg α} :
    Executes x c t s (.call .readSockfd k) calls a s' ↔
      ∃ rest, calls = ⟨.readSockfd, (s.sessions t.slot).sockfd⟩ :: rest ∧
        Executes x c t s (k (s.sessions t.slot).sockfd) rest a s' :=
  executes_read (o := .readSockfd) fun _ _ => rfl

theorem executes_readUsername {k : Bytes → ServerProg α} :
    Executes x c t s (.call .readUsername k) calls a s' ↔
      ∃ rest, calls = ⟨.readUsername, (s.sessions t.slot).username⟩ :: rest ∧
        Executes x c t s (k (s.sessions t.slot).username) rest a s' :=
  executes_read (o := .readUsername) fun _ _ => rfl

/-- A lookup changes nothing but what the thread remembers of it. -/
theorem executes_findUserFd {user : Bytes} {k : Int → ServerProg α}
    (h : Executes x c t s (.call (.findUserFd user) k) calls a s') :
    ∃ rest target, calls = ⟨.findUserFd user, x.findUserFd s.sessions user⟩ :: rest ∧
      Executes x c { t with target := target } s (k (x.findUserFd s.sessions user)) rest a s' := by
  cases h with
  | call now sent hperform rest =>
    cases hperform
    exact ⟨_, _, rfl, rest⟩

/-- A send leaves the table as it is. -/
theorem executes_send {fd : Int} {buf : Bytes} {k : Bool → ServerProg α}
    (h : Executes x c t s (.call (.send fd buf) k) calls a s') :
    ∃ sent rest t₁ s₁, calls = ⟨.send fd buf, sent⟩ :: rest ∧ s₁.sessions = s.sessions ∧
      t₁.slot = t.slot ∧ Executes x c t₁ s₁ (k sent) rest a s' := by
  cases h with
  | @call _ _ s₁ _ _ r _ target calls _ now sent hperform rest =>
    refine ⟨r, calls, { t with target := target }, s₁, rfl, ?_, rfl, rest⟩
    cases hperform
    split
    · exact deliver_sessions s (.client c) (aimOf c t fd) fd buf
    · rfl

end Calls

/-! ## Executions exist -/

/-- A program without undefined operations runs to its end, whatever the outcomes of its sends. -/
theorem Defined.executes {p : ServerProg α} (h : Defined p) (t : Thread) (s : Server) :
    ∃ calls a s', Executes x c t s p calls a s' := by
  induction p generalizing t s with
  | ret a => exact ⟨[], a, s, .ret t s a⟩
  | call o k ih =>
    obtain ⟨r, s₁, target, hperform⟩ := perform_defined (x := x) h.1 s c t 0 true
    obtain ⟨calls, a, s', hrest⟩ := ih r (h.2 r) { t with target := target } s₁
    exact ⟨⟨o, r⟩ :: calls, a, s', .call 0 true hperform hrest⟩

end Server

end ChatMultithread
