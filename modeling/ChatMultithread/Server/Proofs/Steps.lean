import ChatMultithread.Server.System

/-!
# What one step of the server can do

`Step` lists the steps of the transition system, each with its guard and its result, and
`step_cases` reads off the step function which one was taken. Every invariant is a case analysis
over `Step`; the operations of the client threads share the constructor `perform`, about which
`perform_frame` says what all of them leave alone.
-/

namespace ChatMultithread

open Lib

namespace Server

variable (x : Externs)

/-- The steps, by thread and program point. -/
inductive Step (s : Server) : Label → Server → Prop
  | start {c : Conn} {t : Thread} {now : Int} {sent : Bool} (ht : s.threads c = some t)
      (hpc : t.pc = .start) :
      Step s (.client c (.go now sent))
        (s.setThread c { t with sockfd := (s.sessions t.slot).sockfd, pc := .welcome })
  | welcome {c : Conn} {t : Thread} {now : Int} (ht : s.threads c = some t)
      (hpc : t.pc = .welcome) :
      Step s (.client c (.go now true))
        ((s.deliver (.client c) (some c) t.sockfd (ascii "WELCOME|CHAT/1.0\n")).setThread c
          { t with pc := .loop })
  | welcomeFailed {c : Conn} {t : Thread} {now : Int} (ht : s.threads c = some t)
      (hpc : t.pc = .welcome) :
      Step s (.client c (.go now false)) (s.setThread c { t with pc := .removing })
  | turn {c : Conn} {t : Thread} {now : Int} {sent : Bool} {pc : ThreadPc}
      (ht : s.threads c = some t) (hpc : t.pc = .loop)
      (hto : s.running = true ∧ pc = .receiving ∨ s.running = false ∧ pc = .removing) :
      Step s (.client c (.go now sent)) (s.setThread c { t with pc := pc })
  | line {c : Conn} {t : Thread} {raw : Bytes} (ht : s.threads c = some t)
      (hpc : t.pc = .receiving) (hraw : IsFrame msgTerminatorChar (maxLineLen - 1) raw) :
      Step s (.client c (.line raw))
        ({ s with log := .received c (cstr raw) :: s.log }.setThread c
          { t with pc := .handling (clientLine t.sockfd (cstr raw)) })
  | hangup {c : Conn} {t : Thread} (ht : s.threads c = some t) (hpc : t.pc = .receiving) :
      Step s (.client c .hangup) (s.setThread c { t with pc := .removing })
  | perform {c : Conn} {t : Thread} {now : Int} {sent : Bool} {o : Op}
      {k : o.Resp → ServerProg LoopExit} {r : o.Resp} {s' : Server}
      {target : Option (Int × Option Conn)} (ht : s.threads c = some t)
      (hpc : t.pc = .handling (.call o k))
      (hop : s.perform x c t now sent o = some (r, s', target)) :
      Step s (.client c (.go now sent))
        (s'.setThread c { t with pc := .handling (k r), target := target })
  | continue_ {c : Conn} {t : Thread} {now : Int} {sent : Bool} (ht : s.threads c = some t)
      (hpc : t.pc = .handling (.ret .continue_)) :
      Step s (.client c (.go now sent)) (s.setThread c { t with pc := .loop, target := none })
  | break_ {c : Conn} {t : Thread} {now : Int} {sent : Bool} (ht : s.threads c = some t)
      (hpc : t.pc = .handling (.ret .break_)) :
      Step s (.client c (.go now sent)) (s.setThread c { t with pc := .removing, target := none })
  | remove {c : Conn} {t : Thread} {now : Int} {sent : Bool} {i : Slot}
      (ht : s.threads c = some t) (hpc : t.pc = .removing)
      (hfind : sessionsFindBySockfd s.sessions t.sockfd = some i)
      (hfd : 0 ≤ (s.sessions i).sockfd) :
      Step s (.client c (.go now sent))
        ({ s with sessions := Function.update s.sessions i (removedSession (s.sessions i)) }.setThread
          c { t with pc := .closing (s.sessions i).sockfd })
  | removeInvalid {c : Conn} {t : Thread} {now : Int} {sent : Bool} {i : Slot}
      (ht : s.threads c = some t) (hpc : t.pc = .removing)
      (hfind : sessionsFindBySockfd s.sessions t.sockfd = some i)
      (hfd : (s.sessions i).sockfd < 0) :
      Step s (.client c (.go now sent))
        ({ s with sessions := Function.update s.sessions i (removedSession (s.sessions i)) }.setThread
          c { t with pc := .done })
  | removeMissing {c : Conn} {t : Thread} {now : Int} {sent : Bool} (ht : s.threads c = some t)
      (hpc : t.pc = .removing) (hfind : sessionsFindBySockfd s.sessions t.sockfd = none) :
      Step s (.client c (.go now sent)) (s.setThread c { t with pc := .done })
  | close {c : Conn} {t : Thread} {now : Int} {sent : Bool} {old : Int}
      (ht : s.threads c = some t) (hpc : t.pc = .closing old) :
      Step s (.client c (.go now sent)) ((s.close c old).setThread c { t with pc := .done })
  | acceptMove {pc : AcceptPc} {choice : AcceptChoice}
      (hfrom : s.accept = .top ∨ s.accept = .accepting)
      (hto : pc = .top ∨ pc = .accepting ∨ pc = .done) :
      Step s (.acceptor choice) { s with accept := pc }
  | connection {fd : Int} {addr : InAddr} {now : Int} (hpc : s.accept = .accepting)
      (hfd : 0 ≤ fd) (hfree : s.fds fd = none) :
      Step s (.acceptor (.connection fd addr now))
        { s with
          fds := Function.update s.fds fd (some s.nextConn)
          nextConn := s.nextConn + 1
          accept := .adding fd s.nextConn (newSession fd addr now) }
  | addFull {fd : Int} {c : Conn} {session : ClientSession}
      (hpc : s.accept = .adding fd c session) :
      Step s (.acceptor .go) { s with accept := .rejecting fd c }
  | add {fd : Int} {c : Conn} {session : ClientSession} {i : Slot}
      (hpc : s.accept = .adding fd c session) (hfree : (s.sessions i).isActive = false) :
      Step s (.acceptor .go)
        { s with
          sessions := Function.update s.sessions i { session with isActive := true }
          accept := .finding fd c i }
  | reject {fd : Int} {c : Conn} (hpc : s.accept = .rejecting fd c) :
      Step s (.acceptor .go) { s.close c fd with accept := .top }
  | findNone {fd : Int} {c : Conn} {filled : Slot} (hpc : s.accept = .finding fd c filled)
      (hfind : sessionsFindBySockfd s.sessions fd = none) :
      Step s (.acceptor .go) { s with accept := .slotMissing fd c }
  | find {fd : Int} {c : Conn} {filled i : Slot} (hpc : s.accept = .finding fd c filled)
      (hfind : sessionsFindBySockfd s.sessions fd = some i) :
      Step s (.acceptor .go) { s with accept := .creating fd c i }
  | create {fd : Int} {c : Conn} {i : Slot} (hpc : s.accept = .creating fd c i) :
      Step s (.acceptor .go)
        { s.setThread c { slot := i, sockfd := 0, pc := .start, target := none } with
          accept := .storing i c }
  | createFailed {fd : Int} {c : Conn} {i : Slot} (hpc : s.accept = .creating fd c i) :
      Step s (.acceptor .error) { s with accept := .createFailed fd c i }
  | undoMissing {fd : Int} {c : Conn}
      (hpc : s.accept = .slotMissing fd c ∨ ∃ i, s.accept = .createFailed fd c i)
      (hfind : sessionsFindBySockfd s.sessions fd = none) :
      Step s (.acceptor .go) { s with accept := .top }
  | undo {fd : Int} {c : Conn} {i : Slot}
      (hpc : s.accept = .slotMissing fd c ∨ ∃ i, s.accept = .createFailed fd c i)
      (hfind : sessionsFindBySockfd s.sessions fd = some i) (hfd : 0 ≤ (s.sessions i).sockfd) :
      Step s (.acceptor .go)
        { s with
          sessions := Function.update s.sessions i (removedSession (s.sessions i))
          accept := .closing (s.sessions i).sockfd c }
  | undoInvalid {fd : Int} {c : Conn} {i : Slot}
      (hpc : s.accept = .slotMissing fd c ∨ ∃ i, s.accept = .createFailed fd c i)
      (hfind : sessionsFindBySockfd s.sessions fd = some i) (hfd : (s.sessions i).sockfd < 0) :
      Step s (.acceptor .go)
        { s with
          sessions := Function.update s.sessions i (removedSession (s.sessions i))
          accept := .top }
  | undoClose {fd : Int} {c : Conn} (hpc : s.accept = .closing fd c) :
      Step s (.acceptor .go) { s.close c fd with accept := .top }
  | store {i : Slot} {threadId : Nat} (hpc : s.accept = .storing i threadId) :
      Step s (.acceptor .go)
        { s with
          sessions := Function.update s.sessions i { s.sessions i with threadId := threadId }
          accept := .top }
  | tick {now : Int} {sent : Bool} {sessions : Sessions} {pending : List Notification}
      (hpc : s.monitor = .tick) (hrun : s.running = true)
      (hmark : markLoop s.fds now s.inactivityTimeoutSeconds (List.finRange maxClients)
        s.sessions [] = (sessions, pending)) :
      Step s (.monitor now sent) { s with sessions := sessions, monitor := .sending pending }
  | monitorMove {now : Int} {sent : Bool} {pc : MonitorPc}
      (hmove : s.monitor = .tick ∧ s.running = false ∧ pc = .done ∨
        s.monitor = .sending [] ∧ pc = .tick ∨
        ∃ n rest, s.monitor = .sending (n :: rest) ∧ pc = .sending rest) :
      Step s (.monitor now sent) { s with monitor := pc }
  | notify {now : Int} {n : Notification} {rest : List Notification}
      (hpc : s.monitor = .sending (n :: rest)) (hfd : 0 ≤ n.sockfd) :
      Step s (.monitor now true)
        { s.deliver .monitor n.aim n.sockfd n.text with monitor := .sending rest }
  | signal : Step s .signal { s with running := false, serverSockfd := -1 }

variable {x}

theorem sessionsRemoveBySockfd_eq (t : Sessions) (fd : Int) :
    sessionsRemoveBySockfd t fd =
      match sessionsFindBySockfd t fd with
      | none => (none, t)
      | some i => (some (t i).sockfd, Function.update t i (removedSession (t i))) := rfl

theorem clientStep_cases {s s' : Server} {c : Conn} {t : Thread} {choice : ClientChoice}
    (ht : s.threads c = some t) (h : s.clientStep x c t t.pc choice = some s') :
    Step x s (.client c choice) s' := by
  unfold clientStep at h
  split at h
  · rename_i hpc
    cases h
    exact .start ht hpc
  · rename_i hpc
    split at h
    · rename_i hsent
      cases h
      cases hsent
      exact .welcome ht hpc
    · rename_i hsent
      cases h
      cases Bool.eq_false_iff.2 hsent
      exact .welcomeFailed ht hpc
  · rename_i hpc
    split at h
    · rename_i hrun
      cases h
      exact .turn ht hpc (.inl ⟨hrun, rfl⟩)
    · rename_i hrun
      cases h
      exact .turn ht hpc (.inr ⟨Bool.eq_false_iff.2 hrun, rfl⟩)
  · rename_i hpc
    split at h
    · rename_i hraw
      cases h
      exact .line ht hpc ⟨hraw.1, hraw.2.1, hraw.2.2.1, hraw.2.2.2⟩
    · cases h
  · rename_i hpc
    cases h
    exact .hangup ht hpc
  · rename_i hpc
    cases h
    exact .continue_ ht hpc
  · rename_i hpc
    cases h
    exact .break_ ht hpc
  · rename_i hpc
    split at h
    · cases h
    · rename_i hop
      cases h
      exact .perform ht hpc hop
  · rename_i hpc
    rw [sessionsRemoveBySockfd_eq] at h
    cases hfind : sessionsFindBySockfd s.sessions t.sockfd with
    | none =>
      simp only [hfind] at h
      cases h
      exact .removeMissing ht hpc hfind
    | some i =>
      simp only [hfind] at h
      split at h
      · rename_i hfd
        cases h
        exact .remove ht hpc hfind hfd
      · rename_i hfd
        cases h
        exact .removeInvalid ht hpc hfind (Int.not_le.1 hfd)
  · rename_i hpc
    cases h
    exact .close ht hpc
  · cases h

theorem acceptorStep_undo {s s' : Server} {fd : Int} {c : Conn}
    (hpc : s.accept = .slotMissing fd c ∨ ∃ i, s.accept = .createFailed fd c i)
    (h : (match sessionsRemoveBySockfd s.sessions fd with
      | (none, _) => some { s with accept := .top }
      | (some old, sessions) =>
          if 0 ≤ old then some { s with sessions := sessions, accept := .closing old c }
          else some { s with sessions := sessions, accept := .top }) = some s') :
    Step x s (.acceptor .go) s' := by
  rw [sessionsRemoveBySockfd_eq] at h
  cases hfind : sessionsFindBySockfd s.sessions fd with
  | none =>
    simp only [hfind] at h
    cases h
    exact .undoMissing hpc hfind
  | some i =>
    simp only [hfind] at h
    split at h
    · rename_i hfd
      cases h
      exact .undo hpc hfind hfd
    · rename_i hfd
      cases h
      exact .undoInvalid hpc hfind (Int.not_le.1 hfd)

theorem acceptorStep_cases {s s' : Server} {choice : AcceptChoice}
    (h : s.acceptorStep s.accept choice = some s') : Step x s (.acceptor choice) s' := by
  unfold acceptorStep at h
  split at h
  · rename_i hpc
    split at h <;> cases h <;> exact .acceptMove (.inl hpc) (by simp)
  · rename_i hpc
    split at h
    · rename_i hguard
      cases h
      exact .connection hpc hguard.1 hguard.2
    · cases h
  · rename_i hpc
    split at h <;> cases h <;> exact .acceptMove (.inr hpc) (by simp)
  · rename_i fd c session hpc
    cases hadd : sessionsAdd s.sessions session with
    | none =>
      rw [hadd] at h
      cases h
      exact .addFull hpc
    | some p =>
      rw [hadd] at h
      cases h
      obtain ⟨i, hi, rfl⟩ := Option.map_eq_some_iff.1 hadd
      exact .add hpc (by simpa using firstSlot_eq_some hi)
  · rename_i hpc
    cases h
    exact .reject hpc
  · rename_i fd c filled hpc
    cases hfind : sessionsFindBySockfd s.sessions fd with
    | none =>
      rw [hfind] at h
      cases h
      exact .findNone hpc hfind
    | some i =>
      rw [hfind] at h
      cases h
      exact .find hpc hfind
  · rename_i hpc
    cases h
    exact .create hpc
  · rename_i hpc
    cases h
    exact .createFailed hpc
  · rename_i hpc
    exact acceptorStep_undo (.inl hpc) h
  · rename_i hpc
    exact acceptorStep_undo (.inr ⟨_, hpc⟩) h
  · rename_i hpc
    cases h
    exact .undoClose hpc
  · rename_i hpc
    cases h
    exact .store hpc
  · cases h

theorem monitorStep_cases {s s' : Server} {now : Int} {sent : Bool}
    (h : s.monitorStep now sent s.monitor = some s') : Step x s (.monitor now sent) s' := by
  unfold monitorStep at h
  split at h
  · rename_i hpc
    split at h
    · rename_i hrun
      cases h
      exact .tick hpc hrun rfl
    · rename_i hrun
      cases h
      exact .monitorMove (.inl ⟨hpc, Bool.not_eq_true _ ▸ hrun, rfl⟩)
  · rename_i hpc
    cases h
    exact .monitorMove (.inr (.inl ⟨hpc, rfl⟩))
  · rename_i n rest hpc
    split at h
    · rename_i hguard
      cases h
      obtain ⟨hfd, rfl⟩ := hguard
      exact .notify hpc hfd
    · cases h
      exact .monitorMove (.inr (.inr ⟨n, rest, hpc, rfl⟩))
  · cases h

/-- Every step of the transition system is one of the listed ones. -/
theorem step_cases {s s' : Server} {l : Label} (h : s.step x l = some s') : Step x s l s' := by
  cases l with
  | acceptor choice => exact acceptorStep_cases h
  | client c choice =>
    simp only [Server.step] at h
    split at h
    · cases h
    · rename_i t ht
      exact clientStep_cases ht h
  | monitor now sent => exact monitorStep_cases h
  | signal =>
    cases h
    exact .signal

/-! ## What the parts of a step leave alone -/

section Frames

variable (s : Server) (src : Source) (aim : Option Conn) (fd : Int) (buf : Bytes) (c : Conn)
  (t : Thread)

/-- A delivery is a log entry or nothing. -/
theorem deliver_eq : ∃ log, s.deliver src aim fd buf = { s with log := log } := by
  unfold deliver
  split
  · exact ⟨s.log, rfl⟩
  · exact ⟨_, rfl⟩

@[simp] theorem deliver_sessions : (s.deliver src aim fd buf).sessions = s.sessions := by
  obtain ⟨log, h⟩ := s.deliver_eq src aim fd buf; rw [h]
@[simp] theorem deliver_running : (s.deliver src aim fd buf).running = s.running := by
  obtain ⟨log, h⟩ := s.deliver_eq src aim fd buf; rw [h]
@[simp] theorem deliver_inactivityTimeoutSeconds :
    (s.deliver src aim fd buf).inactivityTimeoutSeconds = s.inactivityTimeoutSeconds := by
  obtain ⟨log, h⟩ := s.deliver_eq src aim fd buf; rw [h]
@[simp] theorem deliver_fds : (s.deliver src aim fd buf).fds = s.fds := by
  obtain ⟨log, h⟩ := s.deliver_eq src aim fd buf; rw [h]
@[simp] theorem deliver_nextConn : (s.deliver src aim fd buf).nextConn = s.nextConn := by
  obtain ⟨log, h⟩ := s.deliver_eq src aim fd buf; rw [h]
@[simp] theorem deliver_accept : (s.deliver src aim fd buf).accept = s.accept := by
  obtain ⟨log, h⟩ := s.deliver_eq src aim fd buf; rw [h]
@[simp] theorem deliver_threads : (s.deliver src aim fd buf).threads = s.threads := by
  obtain ⟨log, h⟩ := s.deliver_eq src aim fd buf; rw [h]
@[simp] theorem deliver_monitor : (s.deliver src aim fd buf).monitor = s.monitor := by
  obtain ⟨log, h⟩ := s.deliver_eq src aim fd buf; rw [h]

theorem deliver_log : (s.deliver src aim fd buf).log =
    match s.fds fd with
    | none => s.log
    | some dst => .delivered src aim dst buf :: s.log := by
  cases h : s.fds fd <;> simp [deliver, h]

/-- A broadcast adds its deliveries to the log, the last one in front. -/
theorem deliverAll_eq (sends : List (Int × Bytes)) :
    s.deliverAll src sends = { s with
      log := (sends.filterMap fun p =>
        (s.fds p.1).map fun dst => Event.delivered src (some dst) dst p.2).reverse ++ s.log } := by
  induction sends generalizing s with
  | nil => rfl
  | cons p sends ih =>
    have hstep : s.deliverAll src (p :: sends) =
        (s.deliver src (s.fds p.1) p.1 p.2).deliverAll src sends := rfl
    rw [hstep, ih, deliver_fds, List.filterMap_cons]
    cases hp : s.fds p.1 with
    | none => simp [deliver, hp]
    | some dst => simp [deliver, hp]

@[simp] theorem setThread_threads_self : (s.setThread c t).threads c = some t := by
  simp [setThread]
theorem setThread_threads_ne {d : Conn} (h : d ≠ c) : (s.setThread c t).threads d = s.threads d := by
  simp [setThread, h]
@[simp] theorem setThread_sessions : (s.setThread c t).sessions = s.sessions := rfl
@[simp] theorem setThread_running : (s.setThread c t).running = s.running := rfl
@[simp] theorem setThread_fds : (s.setThread c t).fds = s.fds := rfl
@[simp] theorem setThread_nextConn : (s.setThread c t).nextConn = s.nextConn := rfl
@[simp] theorem setThread_accept : (s.setThread c t).accept = s.accept := rfl
@[simp] theorem setThread_monitor : (s.setThread c t).monitor = s.monitor := rfl
@[simp] theorem setThread_log : (s.setThread c t).log = s.log := rfl

@[simp] theorem close_sessions : (s.close c fd).sessions = s.sessions := rfl
@[simp] theorem close_fds : (s.close c fd).fds = Function.update s.fds fd none := rfl
@[simp] theorem close_nextConn : (s.close c fd).nextConn = s.nextConn := rfl
@[simp] theorem close_accept : (s.close c fd).accept = s.accept := rfl
@[simp] theorem close_threads : (s.close c fd).threads = s.threads := rfl
@[simp] theorem close_monitor : (s.close c fd).monitor = s.monitor := rfl
@[simp] theorem close_log : (s.close c fd).log = .closed c (s.fds fd) :: s.log := rfl

end Frames

/-- No operation of a client thread opens or closes a descriptor or moves another thread. -/
theorem perform_frame {s s' : Server} {c : Conn} {t : Thread} {now : Int} {sent : Bool} {o : Op}
    {r : o.Resp} {target : Option (Int × Option Conn)}
    (h : s.perform x c t now sent o = some (r, s', target)) :
    s' = { s with sessions := s'.sessions, log := s'.log } := by
  cases o
  case undefinedBehaviour => cases h
  case broadcastAll msg =>
    cases h
    rw [deliverAll_eq]
  case broadcastExcept msg fd =>
    cases h
    rw [deliverAll_eq]
  case send fd buf =>
    cases h
    split
    · obtain ⟨log, hlog⟩ := s.deliver_eq (.client c) (aimOf c t fd) fd buf
      rw [hlog]
    · rfl
  all_goals
    cases h
    rfl

/-- Every operation but the undefined one can be performed. -/
theorem perform_defined {o : Op} (ho : o ≠ .undefinedBehaviour) (s : Server) (c : Conn) (t : Thread)
    (now : Int) (sent : Bool) : ∃ r s' target, s.perform x c t now sent o = some (r, s', target) := by
  cases o
  case undefinedBehaviour => exact absurd rfl ho
  all_goals exact ⟨_, _, _, rfl⟩

/-- An operation of a thread is a step of the server. -/
theorem step_of_perform {s s' : Server} {c : Conn} {t : Thread} {now : Int} {sent : Bool} {o : Op}
    {k : o.Resp → ServerProg LoopExit} {r : o.Resp} {target : Option (Int × Option Conn)}
    (ht : s.threads c = some t) (hpc : t.pc = .handling (.call o k))
    (hop : s.perform x c t now sent o = some (r, s', target)) :
    s.step x (.client c (.go now sent)) =
      some (s'.setThread c { t with pc := .handling (k r), target := target }) := by
  simp only [Server.step, ht, hpc, clientStep, hop]

/-- The first of several steps of a thread. -/
theorem run_turns {s s' s'' : Server} {c : Conn} {n : Nat} {timeout : Int}
    (hstep : s.step x (.client c (.go 0 true)) = some s')
    (hrun : (serverSystem x timeout).run s' (turns c n) = some s'') :
    (serverSystem x timeout).run s (turns c (n + 1)) = some s'' := by
  have hsystem : (serverSystem x timeout).step s (.client c (.go 0 true)) = some s' := hstep
  rw [turns, List.replicate_succ, System.run, hsystem]
  exact hrun

/-! ## Lines in hand -/

/-- What `recv_line` returns is shorter than the buffers of the parser. -/
theorem length_cstr_frame {raw : Bytes} (h : IsFrame msgTerminatorChar (maxLineLen - 1) raw) :
    (cstr raw).length < maxMsg :=
  Nat.lt_of_le_of_lt (Nat.le_trans (length_cstr_le raw) h.length_le) (by decide)

/-- How the thread of `c` comes to `code` in the middle of a line: it has received the line, or it
    has performed the operation in front of `code`. -/
inductive Handles (x : Externs) (s : Server) (c : Conn) (code : ServerProg LoopExit) :
    ClientChoice → Server → Thread → Prop
  | line {t : Thread} {raw : Bytes} (ht : s.threads c = some t) (hpc : t.pc = .receiving)
      (hlen : (cstr raw).length < maxMsg) (hcode : clientLine t.sockfd (cstr raw) = code) :
      Handles x s c code (.line raw)
        ({ s with log := .received c (cstr raw) :: s.log }.setThread c
          { t with pc := .handling code })
        { t with pc := .handling code }
  | perform {t : Thread} {now : Int} {sent : Bool} {o : Op} {k : o.Resp → ServerProg LoopExit}
      {r : o.Resp} {s₁ : Server} {target : Option (Int × Option Conn)}
      (ht : s.threads c = some t) (hpc : t.pc = .handling (.call o k))
      (hop : s.perform x c t now sent o = some (r, s₁, target)) (hcode : k r = code) :
      Handles x s c code (.go now sent)
        (s₁.setThread c { t with pc := .handling code, target := target })
        { t with pc := .handling code, target := target }

theorem handling_cases {s s' : Server} {c : Conn} {choice : ClientChoice}
    (hs : Step x s (.client c choice) s') {t' : Thread} (ht' : s'.threads c = some t')
    {code : ServerProg LoopExit} (hcode : t'.pc = .handling code) :
    Handles x s c code choice s' t' := by
  cases hs with
  | line ht hpc hraw =>
    rw [setThread_threads_self] at ht'
    cases ht'
    cases hcode
    exact .line ht hpc (length_cstr_frame hraw) rfl
  | perform ht hpc hop =>
    rw [setThread_threads_self] at ht'
    cases ht'
    cases hcode
    exact .perform ht hpc hop rfl
  | turn ht hpc hto =>
    rw [setThread_threads_self] at ht'
    cases ht'
    rcases hto with ⟨-, rfl⟩ | ⟨-, rfl⟩ <;> cases hcode
  | start | welcome | welcomeFailed | hangup | remove | removeInvalid | removeMissing | close
  | continue_ | break_ =>
    rw [setThread_threads_self] at ht'
    cases ht'
    cases hcode

end Server

end ChatMultithread
