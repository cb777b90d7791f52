import ChatMultithread.Server.Proofs.Log
import ChatMultithread.Server.Proofs.Shutdown
import ChatMultithread.Server.Proofs.Startup

/-!
# The process and the transition system of the server

Of the process the transition system of the server leaves out its start, the accesses of a signal
handler one by one, and `server_shutdown`. What `accept` answers is up to the environment in both,
whatever `g_server_sockfd` is, and nothing else of the server reads this variable. So apart from it
the process goes through the states of the transition system and no others, however the handlers
interleave with each other and with the threads.
-/

namespace ChatMultithread

open Lib

namespace Server

variable {x : Externs}

/-- `g_server_sockfd = fd`. -/
def withSockfd (s : Server) (fd : Int) : Server := { s with serverSockfd := fd }

section WithSockfd

variable (s : Server) (fd : Int)

theorem withSockfd_withSockfd (fd' : Int) :
    (s.withSockfd fd).withSockfd fd' = s.withSockfd fd' := rfl

theorem withSockfd_deliver (src : Source) (aim : Option Conn) (k : Int) (buf : Bytes) :
    (s.withSockfd fd).deliver src aim k buf = (s.deliver src aim k buf).withSockfd fd := by
  cases h : s.fds k <;> simp [deliver, withSockfd, h]

theorem withSockfd_deliverAll (src : Source) (sends : List (Int × Bytes)) :
    (s.withSockfd fd).deliverAll src sends = (s.deliverAll src sends).withSockfd fd := by
  rw [deliverAll_eq, deliverAll_eq]
  rfl

/-- An operation of a client thread, with `g_server_sockfd` set to something else. -/
theorem withSockfd_perform (c : Conn) (t : Thread) (now : Int) (sent : Bool) (o : Op) :
    (s.withSockfd fd).perform x c t now sent o =
      (s.perform x c t now sent o).map fun p => (p.1, p.2.1.withSockfd fd, p.2.2) := by
  cases o with
  | broadcastAll msg =>
    simp only [perform, Option.map_some, withSockfd_deliverAll]
    rfl
  | broadcastExcept msg k =>
    simp only [perform, Option.map_some, withSockfd_deliverAll]
    rfl
  | send k buf =>
    simp only [perform, Option.map_some, withSockfd_deliver]
    cases sent <;> rfl
  | _ => rfl

theorem withSockfd_clientStep (c : Conn) (t : Thread) (pc : ThreadPc) (choice : ClientChoice) :
    (s.withSockfd fd).clientStep x c t pc choice =
      (s.clientStep x c t pc choice).map (·.withSockfd fd) := by
  cases pc with
  | start | receiving | done | closing old =>
    cases choice with
    | line raw =>
      first
        | rfl
        | (simp only [clientStep]; split <;> rfl)
    | hangup | go now sent => rfl
  | welcome =>
    cases choice with
    | line raw | hangup => rfl
    | go now sent =>
      simp only [clientStep, withSockfd_deliver]
      cases sent <;> rfl
  | loop =>
    cases choice with
    | line raw | hangup => rfl
    | go now sent =>
      by_cases hrun : s.running = true <;> simp [clientStep, withSockfd, setThread, hrun]
  | handling code =>
    cases choice with
    | line raw | hangup =>
      cases code with
      | ret e => cases e <;> rfl
      | call o k => rfl
    | go now sent =>
      cases code with
      | ret e => cases e <;> rfl
      | call o k =>
        simp only [clientStep, withSockfd_perform]
        cases s.perform x c t now sent o <;> rfl
  | removing =>
    cases choice with
    | line raw | hangup => rfl
    | go now sent =>
      simp only [clientStep, withSockfd]
      split
      · rfl
      · split <;> rfl

theorem withSockfd_acceptorStep (pc : AcceptPc) (choice : AcceptChoice) :
    (s.withSockfd fd).acceptorStep pc choice =
      (s.acceptorStep pc choice).map (·.withSockfd fd) := by
  cases pc with
  | top =>
    cases choice with
    | go => by_cases hrun : s.running = true <;> simp [acceptorStep, withSockfd, hrun]
    | connection fd' addr now | error => rfl
  | accepting =>
    cases choice with
    | go => rfl
    | connection fd' addr now =>
      by_cases hfree : 0 ≤ fd' ∧ s.fds fd' = none <;> simp [acceptorStep, withSockfd, hfree]
    | error => by_cases hrun : s.running = true <;> simp [acceptorStep, withSockfd, hrun]
  | adding fd' c session =>
    cases choice with
    | go =>
      simp only [acceptorStep, withSockfd]
      cases sessionsAdd s.sessions session <;> rfl
    | connection fd'' addr now | error => rfl
  | finding fd' c filled =>
    cases choice with
    | go =>
      simp only [acceptorStep, withSockfd]
      cases sessionsFindBySockfd s.sessions fd' <;> rfl
    | connection fd'' addr now | error => rfl
  | slotMissing fd' c | createFailed fd' c slot =>
    cases choice with
    | go =>
      simp only [acceptorStep, withSockfd]
      split
      · rfl
      · split <;> rfl
    | connection fd'' addr now | error => rfl
  | rejecting fd' c | creating fd' c slot | closing fd' c | storing slot threadId | done =>
    cases choice <;> rfl

theorem withSockfd_monitorStep (now : Int) (sent : Bool) (pc : MonitorPc) :
    (s.withSockfd fd).monitorStep now sent pc =
      (s.monitorStep now sent pc).map (·.withSockfd fd) := by
  cases pc with
  | tick => by_cases hrun : s.running = true <;> simp [monitorStep, withSockfd, hrun]
  | sending pending =>
    cases pending with
    | nil => rfl
    | cons n rest =>
      simp only [monitorStep, withSockfd_deliver]
      split <;> rfl
  | done => rfl

/-- No step of the server but a signal has to do with `g_server_sockfd`. -/
theorem withSockfd_step {l : Label} (hl : l ≠ .signal) :
    (s.withSockfd fd).step x l = (s.step x l).map (·.withSockfd fd) := by
  cases l with
  | signal => exact absurd rfl hl
  | acceptor choice => exact s.withSockfd_acceptorStep fd s.accept choice
  | client c choice =>
    have hthreads : (s.withSockfd fd).threads = s.threads := rfl
    simp only [step, hthreads]
    cases s.threads c with
    | none => rfl
    | some t => exact s.withSockfd_clientStep fd c t t.pc choice
  | monitor now sent => exact s.withSockfd_monitorStep fd now sent s.monitor

end WithSockfd

end Server

namespace Process

variable {x : Externs} {p p' : Process} {s : Server} {argv : List Bytes} {port timeout : Int}

/-- The process is where the server `s` is, apart from `g_server_sockfd`. -/
def At (p : Process) (s : Server) : Prop := ∃ fd, p.server = s.withSockfd fd

/-- A step of `main` or of a handler leaves the server where it is or stops it. -/
def Stays (p p' : Process) : Prop :=
  p'.At p.server ∨ p'.At { p.server with running := false }

theorem stays_handlerStep (p : Process) (n : Nat) (pc : HandlerPc) :
    p.Stays (p.handlerStep n pc) := by
  cases pc with
  | entered => exact .inr ⟨p.server.serverSockfd, rfl⟩
  | testing =>
    simp only [handlerStep]
    split <;> exact .inl ⟨p.server.serverSockfd, rfl⟩
  | closing => exact .inl ⟨p.server.serverSockfd, rfl⟩
  | clearing => exact .inl ⟨-1, rfl⟩

theorem stays_mainStep (h : MainStep p p') : p.Stays p' := by
  cases h with
  | stop => exact .inr ⟨p.server.serverSockfd, rfl⟩
  | clear => exact .inl ⟨-1, rfl⟩
  | _ => exact .inl ⟨p.server.serverSockfd, rfl⟩

theorem At.stays (h : p.At s) (hs : p.Stays p') :
    p'.At s ∨ p'.At { s with running := false, serverSockfd := -1 } := by
  obtain ⟨fd, hp⟩ := h
  rcases hs with ⟨fd', hp'⟩ | ⟨fd', hp'⟩
  · exact .inl ⟨fd', by rw [hp', hp, Server.withSockfd_withSockfd]⟩
  · exact .inr ⟨fd', by rw [hp', hp]; rfl⟩

/-- A step of the process is at most one of the transition system. -/
theorem At.step {l : ProcessLabel} (h : p.At s) (hs : p.step x l = some p') :
    ∃ s', Relation.ReflTransGen (serverSystem x timeout).Steps s s' ∧ p'.At s' := by
  have hstays : p.Stays p' → ∃ s',
      Relation.ReflTransGen (serverSystem x timeout).Steps s s' ∧ p'.At s' := by
    intro hstays
    rcases h.stays hstays with hat | hat
    · exact ⟨s, .refl, hat⟩
    · exact ⟨_, .single ⟨.signal, rfl⟩, hat⟩
  cases l with
  | raise =>
    cases hs
    exact ⟨s, .refl, h⟩
  | handler n =>
    obtain ⟨pc, _, rfl⟩ := Option.map_eq_some_iff.1 hs
    exact hstays (stays_handlerStep p n pc)
  | main => exact hstays (stays_mainStep (mainStep_cases hs))
  | server l' =>
    have hl : l' ≠ .signal := by
      rintro rfl
      cases hs
    have hserver : (p.server.step x l').map (fun s => { p with server := s }) = some p' := by
      cases l' with
      | signal => cases hs
      | _ => exact hs
    obtain ⟨s₁, hs₁, rfl⟩ := Option.map_eq_some_iff.1 hserver
    obtain ⟨fd, hp⟩ := h
    rw [hp, Server.withSockfd_step s fd hl] at hs₁
    obtain ⟨s', hs', rfl⟩ := Option.map_eq_some_iff.1 hs₁
    exact ⟨s', .single ⟨l', hs'⟩, fd, rfl⟩

/-- The process that was started with `argv` has come to `p`, in its accept loop or behind it. -/
def Runs (x : Externs) (argv : List Bytes) (p : Process) : Prop :=
  ∃ st, (startupSystem argv).Reach st ∧ st.exit = some .serving ∧ (processSystem x st.server).Reach p

/-- What the start hands over is the initial state of the transition system, or what a signal makes
    of it. -/
theorem at_start (hargs : Startup.arguments argv = some (port, timeout)) {st : Startup}
    (hst : (startupSystem argv).Reach st) (he : st.exit = some .serving) :
    ∃ s, (serverSystem x timeout).Reach s ∧ (processSystem x st.server).init.At s := by
  obtain ⟨port', timeout', fd, hargs', -, -, -, hserver, -⟩ :=
    Startup.serving_outcome hst (Startup.code_of_exit he)
  cases hargs.symm.trans hargs'
  by_cases hraised : Startup.RaisedBehind (.storeRunning true) st.log
  · rw [decide_eq_false (not_not.2 hraised)] at hserver
    exact ⟨_, System.Reach.init.step (l := .signal) rfl, _, hserver⟩
  · rw [decide_eq_true hraised] at hserver
    exact ⟨_, System.Reach.init, _, hserver⟩

/-- The process is always where the transition system can be. -/
theorem exists_reach_at (hargs : Startup.arguments argv = some (port, timeout))
    (h : Runs x argv p) : ∃ s, (serverSystem x timeout).Reach s ∧ p.At s := by
  obtain ⟨st, hst, he, hp⟩ := h
  obtain ⟨s₀, hs₀, hat⟩ := at_start (x := x) hargs hst he
  have hsim : Simulation (processSystem x st.server) s₀ (serverSystem x timeout).Steps At := by
    refine ⟨hat, fun p l p' s hp hstep => ?_⟩
    exact hp.step hstep
  obtain ⟨s, hs, hpat⟩ := hsim.reach hp
  exact ⟨s, hs₀.steps hs, hpat⟩

/-- Nothing fails, and no signal comes, before the accept loop begins. -/
theorem exists_start (hargs : Startup.arguments argv = some (port, timeout)) :
    ∃ st, (startupSystem argv).Reach st ∧ st.exit = some .serving ∧
      st.server = (serverInit timeout).withSockfd 3 := by
  have hmain : Startup.serverMain argv = Startup.mainArguments port timeout := by
    rw [Startup.serverMain, hargs]
  rw [startupSystem, hmain]
  exact ⟨_, @System.Reach.run _ _ _ _ _ (List.replicate 16 (.main true 3)) .init rfl, rfl, rfl⟩

/-- The process gets to wherever the transition system can be. A signal is a handler that nobody
    interrupts. -/
theorem exists_process_at (h : (serverSystem x timeout).Reach s) :
    ∃ p, (processSystem x ((serverInit timeout).withSockfd 3)).Reach p ∧ p.At s := by
  refine h.invariant (P := fun s =>
    ∃ p, (processSystem x ((serverInit timeout).withSockfd 3)).Reach p ∧ p.At s) ?_ ?_
  · exact ⟨_, System.Reach.init, 3, rfl⟩
  · rintro s l s' - ⟨p, hp, fd, hat⟩ hstep
    by_cases hl : l = .signal
    · subst hl
      cases hstep
      have hopen : 0 ≤ ((serverInit timeout).withSockfd 3).serverSockfd := Int.natCast_nonneg 3
      have horderly := orderly_of_reach hopen rfl hp
      obtain ⟨n, calls, s₁, hs₁, hrun⟩ :=
        run_handler (x := x) (s := (serverInit timeout).withSockfd 3) horderly.sockfd
      cases hs₁
      exact ⟨_, hp.run hrun, -1, by rw [hat]; rfl⟩
    · have hserver : p.server.step x l = some (s'.withSockfd fd) := by
        rw [hat, Server.withSockfd_step s fd hl, show s.step x l = some s' from hstep]
        rfl
      have hprocess : p.step x (.server l) = some { p with server := s'.withSockfd fd } := by
        cases l with
        | signal => exact absurd rfl hl
        | _ => simp only [Process.step, hserver, Option.map_some]
      exact ⟨_, hp.step hprocess, fd, rfl⟩

/-- The process, with its handlers and `server_shutdown` access by access, takes its threads through
    exactly the states of the transition system. -/
theorem process_refines (hargs : Startup.arguments argv = some (port, timeout)) (s : Server) :
    (∃ p, Runs x argv p ∧ p.At s) ↔ ∃ fd, (serverSystem x timeout).Reach (s.withSockfd fd) := by
  constructor
  · rintro ⟨p, hp, fd, hat⟩
    obtain ⟨s', hs', fd', hat'⟩ := exists_reach_at hargs hp
    have hsame : s.withSockfd s'.serverSockfd = s' := by
      have h := congrArg (·.withSockfd s'.serverSockfd) (hat.symm.trans hat')
      exact h
    exact ⟨s'.serverSockfd, hsame.symm ▸ hs'⟩
  · rintro ⟨fd, hs⟩
    obtain ⟨st, hst, he, hserver⟩ := exists_start hargs
    obtain ⟨p, hp, fd', hat⟩ := exists_process_at hs
    exact ⟨p, ⟨st, hst, he, hserver ▸ hp⟩, fd', hat⟩

/-- A server that a signal stops while its only client registers. -/
theorem process_refines_registering : ∃ p s, Runs managerExterns [ascii "8080"] p ∧ p.At s ∧
    s.running = false ∧ receivedBy 0 s.log =
      [ascii "WELCOME|CHAT/1.0\n", ascii "REGISTER_OK|ana|127.0.0.1|ACTIVO\n"] := by
  have hargs : Startup.arguments [ascii "8080"] = some (8080, 90) := by decide +kernel
  obtain ⟨s, hs, hp⟩ := System.exists_reach_of_run (S := serverSystem managerExterns 90)
    (connects 4 ++ turns 0 3 ++ writes 0 "REGISTER|ana\n" 3 ++ [.signal] ++ turns 0 6)
    (fun s => decide (s.running = false ∧ receivedBy 0 s.log =
      [ascii "WELCOME|CHAT/1.0\n", ascii "REGISTER_OK|ana|127.0.0.1|ACTIVO\n"]))
    (by decide +kernel)
  obtain ⟨hstopped, hheard⟩ := of_decide_eq_true hp
  obtain ⟨p, hruns, hat⟩ := (process_refines hargs s).2 ⟨s.serverSockfd, hs⟩
  exact ⟨p, s, hruns, hat, hstopped, hheard⟩

end Process

end ChatMultithread
