import ChatMultithread.Server.Startup

/-!
# How the server's start ends

`Course` follows `main` from call to call and says what it may count on with signals about: which
socket it has, unless a handler has closed it meanwhile. The accept loop begins with the flag set
exactly if no signal has come since `server_init` set it, and with a socket exactly if none has
come since `server_init` had one.
-/

namespace ChatMultithread

open Lib

namespace Startup

/-- A signal has arrived since `main` last did `o`. -/
def RaisedBehind (o : StartupOp) (log : List StartupEvent) : Prop :=
  .raised ∈ log.takeWhile fun e => decide (e ≠ .did o)

instance (o : StartupOp) (log : List StartupEvent) : Decidable (RaisedBehind o log) :=
  inferInstanceAs (Decidable (_ ∈ _))

section RaisedBehind

variable {o o' : StartupOp} {log : List StartupEvent}

theorem raisedBehind_raised : RaisedBehind o (.raised :: log) := by
  rw [RaisedBehind, List.takeWhile_cons_of_pos (by simp)]
  exact List.mem_cons_self

theorem not_raisedBehind_self : ¬ RaisedBehind o (.did o :: log) := by
  rw [RaisedBehind, List.takeWhile_cons_of_neg (by simp)]
  exact List.not_mem_nil

theorem raisedBehind_did (h : o' ≠ o) : RaisedBehind o (.did o' :: log) ↔ RaisedBehind o log := by
  rw [RaisedBehind, List.takeWhile_cons_of_pos (by simpa using h), List.mem_cons, RaisedBehind]
  simp

end RaisedBehind

/-- No socket is open. -/
def noSockets : Int → Option ServerSocket := fun _ => none

/-- One socket is open. -/
def onlySocket (fd : Int) (state : ServerSocket) : Int → Option ServerSocket :=
  Function.update noSockets fd (some state)

/-- What `main` knows of its socket. -/
inductive Phase where
  | absent
  /-- `socket` has returned it. -/
  | created (fd : Int)
  /-- It stands in `g_server_sockfd`. -/
  | stored (fd : Int) (state : ServerSocket)
  /-- `server_init` has returned 0. -/
  | serving (fd port : Int)
  /-- `main` or a handler has closed it. -/
  | closed
  deriving DecidableEq, Repr

/-- There is no socket any more, or has never been. -/
def Phase.Over (p : Phase) : Prop := p = .absent ∨ p = .closed

/-- The socket is there in the given state, or was. -/
def Phase.Had (p : Phase) (fd : Int) (state : ServerSocket) : Prop :=
  p = .stored fd state ∨ p = .closed

/-- What `main` has done, and what it knows of its socket. -/
structure Course where
  timeout : Int
  sigpipeIgnored : Bool
  initialised : Bool
  phase : Phase
  deriving DecidableEq, Repr

namespace Course

/-- What `main` does in which phase. A descriptor that it uses was read in this phase. -/
def Allows (g : Course) : StartupOp → Prop
  | .socket => g.phase = .absent
  | .setsockopt fd | .bind fd _ => g.phase = .stored fd .unbound ∨ g.phase = .closed
  | .listen fd => (∃ port, g.phase = .stored fd (.bound port)) ∨ g.phase = .closed
  | .close fd => (∃ state, g.phase = .stored fd state) ∨ g.phase = .closed
  | .sockfd => (∃ fd state, g.phase = .stored fd state) ∨ g.phase.Over
  | .storeSockfd fd => g.phase = .created fd ∨ fd = -1 ∧ g.phase.Over
  | .storeRunning value =>
      if value then ∃ fd port, g.phase = .stored fd (.listening port)
      else (∃ fd state, g.phase = .stored fd state) ∨ g.phase.Over
  | .createMonitor => ∃ fd port, g.phase = .serving fd port
  | .storeTimeout _ | .sigaction _ | .ignoreSigpipe | .sessionsInit => g.phase = .absent
  | .running | .shutdown _ | .sweep => (∃ fd state, g.phase = .stored fd state) ∨ g.phase.Over

/-- What it knows behind an operation. -/
def next (g : Course) : (o : StartupOp) → o.Resp → Course
  | .storeTimeout seconds, _ => { g with timeout := seconds }
  | .ignoreSigpipe, _ => { g with sigpipeIgnored := true }
  | .sessionsInit, _ => { g with initialised := true }
  | .socket, r => if 0 ≤ r then { g with phase := .created r } else g
  | .storeSockfd _, _ =>
      { g with phase := match g.phase with
          | .created fd => .stored fd .unbound
          | _ => .absent }
  | .sockfd, r =>
      { g with phase := match g.phase with
          | .stored fd state => if r = fd then .stored fd state else .closed
          | p => p }
  | .bind fd port, r => if r then { g with phase := .stored fd (.bound port) } else g
  | .listen fd, r =>
      if r then
        { g with phase := match g.phase with
            | .stored _ (.bound port) => .stored fd (.listening port)
            | p => p }
      else g
  | .close _, _ => { g with phase := .closed }
  | .storeRunning value, _ =>
      if value then
        { g with phase := match g.phase with
            | .stored fd (.listening port) => .serving fd port
            | p => p }
      else g
  | .createMonitor, r =>
      if r then g
      else { g with phase := match g.phase with
        | .serving fd port => .stored fd (.listening port)
        | p => p }
  | .sigaction _, _ | .setsockopt _, _ | .shutdown _, _ | .running, _ | .sweep, _ => g

/-- Nothing succeeds on a socket that is closed, and what is read is the socket's descriptor, unless
    a handler has closed it. -/
def Answers (g : Course) : (o : StartupOp) → o.Resp → Prop
  | .socket, r => 0 ≤ r ∨ r = -1
  | .sockfd, r =>
      (∀ fd state, g.phase = .stored fd state → 0 ≤ fd ∧ (r = fd ∨ r = -1)) ∧
        (g.phase = .absent → r = -1)
  | .setsockopt _, r | .bind _ _, r | .listen _, r => g.phase = .closed → r = false
  | _, _ => True

/-- The course as a monitor of `main`. -/
def monitor : Monitor StartupOp StartupOp.Resp Course where
  allows := Allows
  answers := Answers
  next := next

/-- Where `server_init` leaves `main`, which listens on the given port if it has returned 0. -/
def Initialised (g : Course) (port : Int) (g' : Course) (r : Bool) : Prop :=
  if r then ∃ fd, g' = { g with phase := .serving fd port } else g'.phase.Over

/-- Where `main` ends. -/
def Ends (argv : List Bytes) (g : Course) : StartupExit → Prop
  | .serving => ∃ port timeout fd, arguments argv = some (port, timeout) ∧
      g = ⟨timeout, true, true, .serving fd port⟩
  | .failure => g.phase.Over
  | .killed => False

section Safe

variable {timeout port fd : Int} {state : ServerSocket} {g : Course} {p : Phase}

/-- `main` reads the descriptor of a socket that it had. What it reads it can use, and a negative
    number says that a handler has closed the socket. -/
theorem safe_sockfd {α : Type} {post : Course → α → Prop} {k : Int → StartupProg α}
    (hp : g.phase.Had fd state)
    (hk : ∀ r p, p.Had r state → (r < 0 → p = .closed) →
      monitor.Safe post { g with phase := p } (k r)) :
    monitor.Safe post g (.call .sockfd k) := by
  refine ⟨hp.imp (fun h => ⟨fd, state, h⟩) .inr, fun r hr => hk r _ ?_ ?_⟩
  · rcases hp with hp | hp
    · by_cases hfd : r = fd
      · exact .inl (by simp [hp, hfd])
      · exact .inr (by simp [hp, hfd])
    · exact .inr (by simp [hp])
  · intro hneg
    rcases hp with hp | hp
    · obtain ⟨hnonneg, -⟩ := hr.1 fd state hp
      have hfd : r ≠ fd := Int.ne_of_lt (Int.lt_of_lt_of_le hneg hnonneg)
      simp [hp, hfd]
    · simp [hp]

theorem safe_giveUp (hp : g.phase.Had fd state) :
    monitor.Safe (fun g r => r = false ∧ g.phase = .absent) g giveUp := by
  refine safe_sockfd hp fun r p hhad _ => ?_
  refine ⟨hhad.imp_left fun h => ⟨state, h⟩, fun _ _ => ⟨?_, fun _ _ => ⟨rfl, rfl⟩⟩⟩
  exact .inr ⟨rfl, .inr rfl⟩

/-- Who gives up has not initialised anything. -/
theorem safe_giveUp_initialised (hp : g.phase.Had fd state) (g₀ : Course) :
    monitor.Safe (Initialised g₀ port) g giveUp := by
  apply (safe_giveUp hp).mono
  rintro g' r ⟨rfl, h⟩
  exact .inl h

theorem safe_initListen (hp : g.phase.Had fd (.bound port)) :
    monitor.Safe (Initialised g port) g initListen := by
  refine safe_sockfd hp fun r p hhad _ => ?_
  refine ⟨hhad.imp_left fun h => ⟨port, h⟩, fun listening hl => ?_⟩
  cases listening with
  | false => exact safe_giveUp_initialised hhad g
  | true =>
    rcases hhad with rfl | rfl
    · exact ⟨⟨r, port, rfl⟩, fun _ _ => ⟨r, rfl⟩⟩
    · exact nomatch hl rfl

theorem safe_initBind (port : Int) (hp : g.phase.Had fd .unbound) :
    monitor.Safe (Initialised g port) g (initBind port) := by
  refine safe_sockfd hp fun r p hhad _ => ⟨hhad, fun bound hb => ?_⟩
  cases bound with
  | false => exact safe_giveUp_initialised hhad g
  | true =>
    rcases hhad with rfl | rfl
    · exact safe_initListen (g := { g with phase := .stored r (.bound port) }) (.inl rfl)
    · exact nomatch hb rfl

/-- `server_init` listens on the port, or leaves no socket behind. -/
theorem safe_serverInit (port : Int) (hp : g.phase = .absent) :
    monitor.Safe (Initialised g port) g (serverInit port) := by
  refine ⟨hp, fun r hr => ?_⟩
  by_cases hpos : 0 ≤ r
  · have hcreated : monitor.next g .socket r = { g with phase := .created r } := if_pos hpos
    rw [hcreated]
    refine ⟨.inl rfl, fun _ _ => ?_⟩
    refine safe_sockfd (g := { g with phase := .stored r .unbound }) (.inl rfl)
      fun stored p hhad hneg => ?_
    show monitor.Safe _ _ (if stored < 0 then _ else _)
    by_cases hfailed : stored < 0
    · rw [if_pos hfailed]
      exact .inr (hneg hfailed)
    · rw [if_neg hfailed]
      refine safe_sockfd hhad fun fd p hhad _ => ⟨hhad, fun reusable _ => ?_⟩
      cases reusable with
      | false => exact safe_giveUp_initialised hhad g
      | true => exact safe_initBind port hhad
  · have hfailed : monitor.next g .socket r = g := if_neg hpos
    have hr : r = -1 := hr.resolve_left hpos
    rw [hfailed]
    refine ⟨.inr ⟨hr, .inl hp⟩, fun _ _ => ?_⟩
    have habsent : monitor.next g (.storeSockfd r) () = g := by
      obtain ⟨_, _, _, p⟩ := g
      cases hp
      rfl
    rw [habsent]
    refine ⟨.inr (.inl hp), fun stored hs => ?_⟩
    have hread : monitor.next g .sockfd stored = g := by
      obtain ⟨_, _, _, p⟩ := g
      cases hp
      rfl
    have hstored : stored = -1 := hs.2 hp
    show monitor.Safe _ _ (if stored < 0 then _ else _)
    rw [hread, hstored, if_pos (by decide)]
    exact .inl hp

/-- `server_shutdown` of a process without clients leaves no socket behind. -/
theorem safe_shutdownAll (hp : g.phase.Had fd state) :
    monitor.Safe (fun g _ => g.phase.Over) g shutdownAll := by
  refine ⟨hp.imp (fun h => ⟨fd, state, h⟩) .inr, fun _ _ => ?_⟩
  refine safe_sockfd hp fun r p hhad hneg => ?_
  show monitor.Safe _ _ (if 0 ≤ r then _ else _)
  by_cases hpos : 0 ≤ r
  · rw [if_pos hpos]
    refine safe_sockfd hhad fun r p hhad _ => ⟨hhad.imp (fun h => ⟨r, state, h⟩) .inr, fun _ _ => ?_⟩
    refine safe_sockfd hhad fun r p hhad _ => ⟨hhad.imp_left fun h => ⟨state, h⟩, fun _ _ => ?_⟩
    refine ⟨.inr ⟨rfl, .inr rfl⟩, fun _ _ => ⟨.inr (.inl rfl), fun _ _ => .inl rfl⟩⟩
  · rw [if_neg hpos]
    have hclosed := hneg (Int.not_le.1 hpos)
    exact ⟨.inr (.inr hclosed), fun _ _ => .inr hclosed⟩

theorem safe_serverShutdown (hp : g.phase.Had fd state) :
    monitor.Safe (fun g _ => g.phase.Over) g serverShutdown := by
  refine ⟨hp.imp (fun h => ⟨fd, state, h⟩) .inr, fun running _ => ?_⟩
  cases running with
  | true => exact safe_shutdownAll hp
  | false =>
    refine safe_sockfd hp fun r p hhad hneg => ?_
    show monitor.Safe _ _ (if r < 0 then _ else _)
    by_cases hgone : r < 0
    · rw [if_pos hgone]
      exact .inr (hneg hgone)
    · rw [if_neg hgone]
      exact safe_shutdownAll hhad

/-- `main` from `server_init` on serves on the port, or leaves no socket behind. -/
theorem safe_mainServe {argv : List Bytes} (hargs : arguments argv = some (port, timeout)) :
    monitor.Safe (Ends argv) ⟨timeout, true, true, .absent⟩ (mainServe port) := by
  unfold mainServe
  rw [Monitor.safe_bind]
  apply (safe_serverInit port rfl).mono
  intro g initialised h
  cases initialised with
  | false => exact h
  | true =>
    obtain ⟨fd, rfl⟩ := h
    refine ⟨⟨fd, port, rfl⟩, fun created _ => ?_⟩
    cases created with
    | true => exact ⟨port, timeout, fd, hargs, rfl⟩
    | false =>
      show monitor.Safe _ ⟨timeout, true, true, .stored fd (.listening port)⟩ (serverShutdown >>= _)
      rw [Monitor.safe_bind]
      apply (safe_serverShutdown (.inl rfl)).mono
      exact fun g _ h => h

/-- `main` up to the accept loop. -/
theorem safe_serverMain (argv : List Bytes) :
    monitor.Safe (Ends argv) ⟨90, false, false, .absent⟩ (serverMain argv) := by
  unfold serverMain
  split
  · exact .inl rfl
  · rename_i port timeout hargs
    refine ⟨rfl, fun _ _ => ⟨rfl, fun sigint _ => ?_⟩⟩
    cases sigint with
    | false => exact .inl rfl
    | true =>
      refine ⟨rfl, fun sigterm _ => ?_⟩
      cases sigterm with
      | false => exact .inl rfl
      | true => exact ⟨rfl, fun _ _ => ⟨rfl, fun _ _ => safe_mainServe hargs⟩⟩

end Safe

end Course

/-! ## What the handlers leave of it -/

variable {argv : List Bytes} {s s' : Startup} {fd port : Int} {state : ServerSocket} {g : Course}

/-- The socket in `g_server_sockfd` is there while no signal has come, and has been closed when the
    handlers are through. -/
structure Stored (fd : Int) (state : ServerSocket) (s : Startup) : Prop where
  nonneg : 0 ≤ fd
  sockfd : s.serverSockfd = fd ∨ s.serverSockfd = -1
  sockets : s.sockets = onlySocket fd state ∨ s.sockets = noSockets
  gone : s.serverSockfd = -1 → s.sockets = noSockets
  clearing : .clearing ∈ s.handlers.map Prod.snd → s.sockets = noSockets
  quiet : ¬ RaisedBehind (.storeSockfd fd) s.log →
    s.handlers = [] ∧ s.serverSockfd = fd ∧ s.sockets = onlySocket fd state
  raised : RaisedBehind (.storeSockfd fd) s.log → s.handlers = [] → s.serverSockfd = -1

/-- The flag that `server_init` has set stays set until a signal comes. -/
structure Flagged (s : Startup) : Prop where
  up : ¬ RaisedBehind (.storeRunning true) s.log → s.handlers = [] ∧ s.running = true
  down : RaisedBehind (.storeRunning true) s.log → s.handlers = [] → s.running = false

/-- What is so in a phase, whatever the handlers have done. -/
def InPhase (s : Startup) : Phase → Prop
  | .absent => s.serverSockfd = -1 ∧ s.sockets = noSockets
  | .created fd => 0 ≤ fd ∧ s.serverSockfd = -1 ∧ s.sockets = onlySocket fd .unbound
  | .stored fd state => Stored fd state s
  | .serving fd port => Stored fd (.listening port) s ∧ Flagged s
  | .closed => s.sockets = noSockets

/-- The process is where `main` thinks it is. -/
structure Follows (g : Course) (s : Startup) : Prop where
  timeout : s.inactivityTimeoutSeconds = g.timeout
  sigpipeIgnored : s.sigpipeIgnored = g.sigpipeIgnored
  initialised : g.initialised = true → s.sessions = ChatMultithread.sessionsInit
  past : ∀ pc ∈ s.handlers.map Prod.snd, pc ≠ .entered → s.running = false
  phase : InPhase s g.phase

/-! ## A handler runs -/

theorem update_noSockets (fd : Int) : Function.update noSockets fd none = noSockets := by
  funext n
  rw [Function.update_apply]
  split <;> rfl

theorem update_onlySocket_self (fd : Int) (state : ServerSocket) (now : Option ServerSocket) :
    Function.update (onlySocket fd state) fd now = Function.update noSockets fd now :=
  Function.update_idem _ _ _

theorem update_onlySocket_ne (hne : fd ≠ -1) :
    Function.update (onlySocket fd state) (-1) none = onlySocket fd state := by
  rw [onlySocket, Function.update_comm hne, update_noSockets]

section Handler

variable {signum : Signal} {pc : HandlerPc} {rest : List (Signal × HandlerPc)}

/-- A handler takes nothing away but the socket that `g_server_sockfd` names. -/
theorem Stored.handlerStep (h : Stored fd state s) (hhandlers : s.handlers = (signum, pc) :: rest) :
    Stored fd state (s.handlerStep signum rest pc) := by
  have hraised : ¬ ¬ RaisedBehind (.storeSockfd fd) s.log := fun hquiet => by
    have hnil := (h.quiet hquiet).1
    rw [hhandlers] at hnil
    cases hnil
  have hrest : .clearing ∈ rest.map Prod.snd → s.sockets = noSockets := fun hmem =>
    h.clearing (by rw [hhandlers]; exact List.mem_cons_of_mem _ hmem)
  cases pc with
  | entered =>
    refine ⟨h.nonneg, h.sockfd, h.sockets, h.gone, fun hmem => hrest ?_, (absurd · hraised), ?_⟩
    · exact (List.mem_cons.1 hmem).resolve_left fun h => nomatch h
    · exact fun _ hnil => nomatch hnil
  | testing =>
    rw [Startup.handlerStep]
    split
    · refine ⟨h.nonneg, h.sockfd, h.sockets, h.gone, fun hmem => hrest ?_, (absurd · hraised), ?_⟩
      · exact (List.mem_cons.1 hmem).resolve_left fun h => nomatch h
      · exact fun _ hnil => nomatch hnil
    · rename_i hneg
      have hgone : s.serverSockfd = -1 := h.sockfd.resolve_left fun hfd => hneg (hfd ▸ h.nonneg)
      exact ⟨h.nonneg, h.sockfd, h.sockets, h.gone, hrest, (absurd · hraised), fun _ _ => hgone⟩
  | closing =>
    have hclosed : (s.close s.serverSockfd).sockets = noSockets := by
      rw [Startup.close]
      rcases h.sockets with hsockets | hsockets
      · rcases h.sockfd with hfd | hfd
        · rw [hsockets, hfd, update_onlySocket_self, update_noSockets]
        · rw [h.gone hfd, update_noSockets]
      · rw [hsockets, update_noSockets]
    refine ⟨h.nonneg, h.sockfd, .inr hclosed, fun _ => hclosed, fun _ => hclosed,
      (absurd · hraised), ?_⟩
    exact fun _ hnil => nomatch hnil
  | clearing =>
    have hclosed : s.sockets = noSockets := h.clearing (by rw [hhandlers]; exact List.mem_cons_self)
    exact ⟨h.nonneg, .inr rfl, .inr hclosed, fun _ => hclosed, fun _ => hclosed,
      (absurd · hraised), fun _ _ => rfl⟩

/-- A handler leaves everything else alone. -/
theorem handlerStep_frame (s : Startup) (signum : Signal) (rest : List (Signal × HandlerPc))
    (pc : HandlerPc) :
    (s.handlerStep signum rest pc).log = s.log ∧ (s.handlerStep signum rest pc).code = s.code ∧
      (s.handlerStep signum rest pc).inactivityTimeoutSeconds = s.inactivityTimeoutSeconds ∧
      (s.handlerStep signum rest pc).sessions = s.sessions ∧
      (s.handlerStep signum rest pc).sigpipeIgnored = s.sigpipeIgnored := by
  cases pc with
  | testing =>
    rw [Startup.handlerStep]
    split <;> exact ⟨rfl, rfl, rfl, rfl, rfl⟩
  | entered | closing | clearing => exact ⟨rfl, rfl, rfl, rfl, rfl⟩

/-- Whoever handles a signal clears the flag first. -/
theorem running_handlerStep (hpast : pc ≠ .entered → s.running = false) :
    (s.handlerStep signum rest pc).running = false := by
  cases pc with
  | entered => rfl
  | testing =>
    rw [Startup.handlerStep]
    split <;> exact hpast (by decide)
  | closing | clearing => exact hpast (by decide)

theorem Flagged.handlerStep (h : Flagged s) (hhandlers : s.handlers = (signum, pc) :: rest)
    (hpast : pc ≠ .entered → s.running = false) : Flagged (s.handlerStep signum rest pc) := by
  refine ⟨fun hup => ?_, fun _ _ => running_handlerStep hpast⟩
  rw [(handlerStep_frame s signum rest pc).1] at hup
  have hnil := (h.up hup).1
  rw [hhandlers] at hnil
  cases hnil

theorem InPhase.handlerStep {p : Phase} (h : InPhase s p)
    (hhandlers : s.handlers = (signum, pc) :: rest)
    (hpast : pc ≠ .entered → s.running = false) : InPhase (s.handlerStep signum rest pc) p := by
  cases p with
  | stored fd state => exact Stored.handlerStep h hhandlers
  | serving fd port => exact ⟨h.1.handlerStep hhandlers, h.2.handlerStep hhandlers hpast⟩
  | absent =>
    obtain ⟨hfd, hsockets⟩ := h
    cases pc with
    | entered => exact ⟨hfd, hsockets⟩
    | testing =>
      rw [Startup.handlerStep]
      split <;> exact ⟨hfd, hsockets⟩
    | closing => exact ⟨hfd, by rw [Startup.handlerStep, Startup.close, hsockets, update_noSockets]⟩
    | clearing => exact ⟨rfl, hsockets⟩
  | created fd =>
    obtain ⟨hnonneg, hfd, hsockets⟩ := h
    cases pc with
    | entered => exact ⟨hnonneg, hfd, hsockets⟩
    | testing =>
      rw [Startup.handlerStep]
      split <;> exact ⟨hnonneg, hfd, hsockets⟩
    | closing =>
      refine ⟨hnonneg, hfd, ?_⟩
      rw [Startup.handlerStep, Startup.close, hsockets, hfd]
      exact update_onlySocket_ne (by omega)
    | clearing => exact ⟨hnonneg, rfl, hsockets⟩
  | closed =>
    have hsockets : s.sockets = noSockets := h
    cases pc with
    | entered | clearing => exact hsockets
    | testing =>
      rw [Startup.handlerStep]
      split <;> exact hsockets
    | closing =>
      show Function.update s.sockets s.serverSockfd none = noSockets
      rw [hsockets, update_noSockets]

theorem Follows.handlerStep (h : Follows g s) (hhandlers : s.handlers = (signum, pc) :: rest) :
    Follows g (s.handlerStep signum rest pc) := by
  have hpast : pc ≠ .entered → s.running = false :=
    h.past pc (by rw [hhandlers]; exact List.mem_cons_self)
  obtain ⟨-, -, htimeout, hsessions, hsigpipe⟩ := handlerStep_frame s signum rest pc
  exact ⟨htimeout.trans h.timeout, hsigpipe.trans h.sigpipeIgnored,
    fun hinit => hsessions.trans (h.initialised hinit), fun _ _ _ => running_handlerStep hpast,
    h.phase.handlerStep hhandlers hpast⟩

end Handler

/-! ## A signal arrives -/

/-- The process in which the handler of a further signal begins. -/
theorem Follows.raise (h : Follows g s) (signum : Signal) :
    Follows g { s with handlers := (signum, .entered) :: s.handlers, log := .raised :: s.log } := by
  refine ⟨h.timeout, h.sigpipeIgnored, h.initialised, fun pc hpc hne => ?_, ?_⟩
  · exact h.past pc ((List.mem_cons.1 hpc).resolve_left hne) hne
  · have hstored : ∀ {fd state}, Stored fd state s → Stored fd state
        { s with handlers := (signum, .entered) :: s.handlers, log := .raised :: s.log } := by
      intro fd state h
      refine ⟨h.nonneg, h.sockfd, h.sockets, h.gone, fun hmem => ?_, ?_, fun _ hnil => nomatch hnil⟩
      · exact h.clearing ((List.mem_cons.1 hmem).resolve_left fun h => nomatch h)
      · exact fun hquiet => absurd raisedBehind_raised hquiet
    have hphase := h.phase
    generalize g.phase = p at hphase ⊢
    cases p with
    | stored fd state => exact hstored hphase
    | serving fd port =>
      refine ⟨hstored hphase.1, fun hup => absurd raisedBehind_raised hup, ?_⟩
      exact fun _ hnil => nomatch hnil
    | absent | created fd | closed => exact hphase

/-! ## `main` goes on -/

/-- Behind an operation that leaves the socket and the flag alone. -/
theorem Stored.did {o : StartupOp} (h : Stored fd state s) (ho : o ≠ .storeSockfd fd) {t : Startup}
    (hsockfd : t.serverSockfd = s.serverSockfd) (hsockets : t.sockets = s.sockets)
    (hhandlers : t.handlers = s.handlers) (hlog : t.log = .did o :: s.log) : Stored fd state t := by
  obtain ⟨hnonneg, hfd, hopen, hgone, hclearing, hquiet, hover⟩ := h
  rw [← hsockfd] at hfd hgone hquiet hover
  rw [← hsockets] at hopen hgone hclearing hquiet
  rw [← hhandlers] at hclearing hquiet hover
  rw [← raisedBehind_did ho, ← hlog] at hquiet hover
  exact ⟨hnonneg, hfd, hopen, hgone, hclearing, hquiet, hover⟩

/-- Behind an operation that stores neither the descriptor nor the flag. -/
theorem InPhase.did (o : StartupOp) {p : Phase} (h : InPhase s p) {t : Startup}
    (hsockfd : t.serverSockfd = s.serverSockfd) (hsockets : t.sockets = s.sockets)
    (hrunning : t.running = s.running) (hhandlers : t.handlers = s.handlers)
    (hlog : t.log = .did o :: s.log) (hstore : ∀ fd, o ≠ .storeSockfd fd := by intro fd h; cases h)
    (hset : o ≠ .storeRunning true := by intro h; cases h) : InPhase t p := by
  cases p with
  | stored fd state => exact Stored.did h (hstore fd) hsockfd hsockets hhandlers hlog
  | serving fd port =>
    refine ⟨h.1.did (hstore fd) hsockfd hsockets hhandlers hlog, ?_⟩
    obtain ⟨hup, hdown⟩ := h.2
    rw [← hhandlers, ← hrunning, ← raisedBehind_did hset, ← hlog] at hup hdown
    exact ⟨hup, hdown⟩
  | absent => exact ⟨hsockfd.trans h.1, hsockets.trans h.2⟩
  | created fd => exact ⟨h.1, hsockfd.trans h.2.1, hsockets.trans h.2.2⟩
  | closed => exact hsockets.trans h

/-- Behind an operation that stores neither of them and has failed or changes nothing. -/
theorem Follows.did (h : Follows g s) (o : StartupOp) (code : StartupProg StartupExit)
    (hstore : ∀ fd, o ≠ .storeSockfd fd := by intro fd h; cases h)
    (hset : o ≠ .storeRunning true := by intro h; cases h) :
    Follows g { s with code := code, log := .did o :: s.log } :=
  { h with phase := h.phase.did o rfl rfl rfl rfl rfl hstore hset }

/-- A call has succeeded on the socket, which is there for that. -/
theorem Stored.advance (o : StartupOp) {state' : ServerSocket} (h : Stored fd state s)
    (hopen : s.sockets fd ≠ none) (hidle : s.handlers = []) {t : Startup}
    (hsockfd : t.serverSockfd = s.serverSockfd)
    (hsockets : t.sockets = Function.update s.sockets fd (some state'))
    (hhandlers : t.handlers = s.handlers) (hlog : t.log = .did o :: s.log)
    (ho : o ≠ .storeSockfd fd) : Stored fd state' t := by
  have hthere : s.sockets = onlySocket fd state :=
    h.sockets.resolve_right fun hnone => hopen (by rw [hnone]; rfl)
  have hnow : t.sockets = onlySocket fd state' := by
    rw [hsockets, hthere, update_onlySocket_self, onlySocket]
  have hset : s.serverSockfd ≠ -1 := fun hgone => hopen (by rw [h.gone hgone]; rfl)
  refine ⟨h.nonneg, hsockfd ▸ h.sockfd, .inl hnow, fun hgone => ?_, fun hmem => ?_, fun hquiet => ?_,
    fun hraised hnil => ?_⟩
  · exact absurd (hsockfd ▸ hgone) hset
  · rw [hhandlers, hidle] at hmem
    exact absurd hmem List.not_mem_nil
  · rw [hlog, raisedBehind_did ho] at hquiet
    exact ⟨hhandlers.trans hidle, hsockfd.trans (h.quiet hquiet).2.1, hnow⟩
  · rw [hlog, raisedBehind_did ho] at hraised
    exact hsockfd.trans (h.raised hraised hidle)

/-- Behind the store of the descriptor that `socket` has returned. -/
theorem stored_storeSockfd (hnonneg : 0 ≤ fd) (hsockets : s.sockets = onlySocket fd .unbound)
    (hidle : s.handlers = []) (code : StartupProg StartupExit) :
    Stored fd .unbound
      { s with serverSockfd := fd, code := code, log := .did (.storeSockfd fd) :: s.log } := by
  refine ⟨hnonneg, .inl rfl, .inl hsockets, fun hgone => ?_, fun hmem => ?_, fun _ => ?_, ?_⟩
  · exact absurd (show fd = -1 from hgone) (by omega)
  · rw [hidle] at hmem
    exact absurd hmem List.not_mem_nil
  · exact ⟨hidle, rfl, hsockets⟩
  · exact fun hraised => absurd hraised not_raisedBehind_self

/-- Where a call on it succeeds, the socket is there, and the phase says so. -/
theorem InPhase.open_of {p : Phase} (h : InPhase s p) (hopen : s.sockets fd ≠ none) : p ≠ .closed := by
  rintro rfl
  exact hopen (congrFun h fd)

section Perform

variable {ok : Bool} {n : Nat} {t : Startup}

theorem Follows.socket {r : Int} (h : Follows g s) (habsent : g.phase = .absent)
    (hp : s.perform ok n .socket = some (r, t)) (code : StartupProg StartupExit) :
    g.Answers .socket r ∧
      Follows (g.next .socket r) { t with code := code, log := .did .socket :: s.log } := by
  have ⟨htimeout, hsigpipe, hinit, hpast, hphase⟩ := h
  rw [habsent] at hphase
  obtain ⟨hfd, hsockets⟩ := hphase
  rw [Startup.perform] at hp
  split at hp
  · split at hp
    · cases hp
      have hnonneg : (0 : Int) ≤ (n : Int) := Int.natCast_nonneg n
      refine ⟨.inl hnonneg, ?_⟩
      rw [Course.next, if_pos hnonneg]
      refine ⟨htimeout, hsigpipe, hinit, hpast, hnonneg, hfd, ?_⟩
      show Function.update s.sockets n _ = _
      rw [hsockets, onlySocket]
    · cases hp
  · cases hp
    refine ⟨.inr rfl, ?_⟩
    rw [Course.next, if_neg (by decide)]
    exact ⟨htimeout, hsigpipe, hinit, hpast, habsent ▸ ⟨hfd, hsockets⟩⟩

theorem Follows.setsockopt (h : Follows g s) (fd : Int) (code : StartupProg StartupExit) :
    g.Answers (.setsockopt fd) (ok && (s.sockets fd).isSome) ∧
      Follows g { s with code := code, log := .did (.setsockopt fd) :: s.log } := by
  refine ⟨fun hclosed => ?_, h.did (.setsockopt fd) code⟩
  have hphase := h.phase
  rw [hclosed] at hphase
  rw [show s.sockets = noSockets from hphase]
  exact Bool.and_false ok

theorem Follows.bind {r : Bool} (h : Follows g s) (hidle : s.handlers = [])
    (hallowed : g.Allows (.bind fd port)) (hp : s.perform ok n (.bind fd port) = some (r, t))
    (code : StartupProg StartupExit) :
    g.Answers (.bind fd port) r ∧
      Follows (g.next (.bind fd port) r)
        { t with code := code, log := .did (.bind fd port) :: s.log } := by
  have ⟨htimeout, hsigpipe, hinit, hpast, hphase⟩ := h
  rw [Startup.perform] at hp
  split at hp
  · rename_i hopen
    cases hp
    have hthere : s.sockets fd ≠ none := by
      rw [hopen.2]
      exact Option.some_ne_none _
    have hstored : g.phase = .stored fd .unbound := hallowed.resolve_right (hphase.open_of hthere)
    refine ⟨fun hclosed => absurd hclosed (hphase.open_of hthere), htimeout, hsigpipe, hinit, hpast, ?_⟩
    rw [hstored] at hphase
    exact Stored.advance (.bind fd port) hphase hthere hidle rfl rfl rfl rfl fun h => nomatch h
  · cases hp
    exact ⟨fun _ => rfl, h.did (.bind fd port) code⟩

theorem Follows.listen {r : Bool} (h : Follows g s) (hidle : s.handlers = [])
    (hallowed : g.Allows (.listen fd)) (hp : s.perform ok n (.listen fd) = some (r, t))
    (code : StartupProg StartupExit) :
    g.Answers (.listen fd) r ∧
      Follows (g.next (.listen fd) r) { t with code := code, log := .did (.listen fd) :: s.log } := by
  have ⟨htimeout, hsigpipe, hinit, hpast, hphase⟩ := h
  have hfailed : g.Answers (.listen fd) false ∧ Follows (g.next (.listen fd) false)
      { s with code := code, log := .did (.listen fd) :: s.log } :=
    ⟨fun _ => rfl, h.did (.listen fd) code⟩
  rw [Startup.perform] at hp
  split at hp
  · rename_i port hopen
    split at hp
    · cases hp
      have hthere : s.sockets fd ≠ none := by
        rw [hopen]
        exact Option.some_ne_none _
      obtain ⟨port', hstored⟩ := hallowed.resolve_right (hphase.open_of hthere)
      refine ⟨fun hclosed => absurd hclosed (hphase.open_of hthere), htimeout, hsigpipe, hinit,
        hpast, ?_⟩
      rw [hstored] at hphase
      have hsockets : s.sockets = onlySocket fd (.bound port') :=
        Stored.sockets hphase |>.resolve_right fun hnone => hthere (congrFun hnone fd)
      have hport : port' = port := by
        rw [hsockets, onlySocket, Function.update_self] at hopen
        cases hopen
        rfl
      simp only [Course.next, hstored, if_true, hport]
      exact Stored.advance (.listen fd) hphase hthere hidle rfl rfl rfl rfl fun h => nomatch h
    · cases hp
      exact hfailed
  · cases hp
    exact hfailed

theorem Follows.close (h : Follows g s) (hallowed : g.Allows (.close fd))
    (code : StartupProg StartupExit) :
    Follows { g with phase := .closed }
      { s.close fd with code := code, log := .did (.close fd) :: s.log } := by
  have ⟨htimeout, hsigpipe, hinit, hpast, hphase⟩ := h
  refine ⟨htimeout, hsigpipe, hinit, hpast, ?_⟩
  show Function.update s.sockets fd none = noSockets
  rcases hallowed with ⟨state, hstored⟩ | hclosed
  · rw [hstored] at hphase
    rcases Stored.sockets hphase with hsockets | hsockets
    · rw [hsockets, update_onlySocket_self, update_noSockets]
    · rw [hsockets, update_noSockets]
  · rw [hclosed] at hphase
    rw [show s.sockets = noSockets from hphase, update_noSockets]

theorem Follows.sockfd (h : Follows g s) (hallowed : g.Allows .sockfd)
    (code : StartupProg StartupExit) :
    g.Answers .sockfd s.serverSockfd ∧
      Follows (g.next .sockfd s.serverSockfd)
        { s with code := code, log := .did .sockfd :: s.log } := by
  have ⟨htimeout, hsigpipe, hinit, hpast, hphase⟩ := h
  have hdid := (h.did .sockfd code).phase
  refine ⟨⟨fun fd state hstored => ?_, fun habsent => ?_⟩, htimeout, hsigpipe, hinit, hpast, ?_⟩
  · rw [hstored] at hphase
    exact ⟨Stored.nonneg hphase, Stored.sockfd hphase⟩
  · rw [habsent] at hphase
    exact hphase.1
  · rcases hallowed with ⟨fd, state, hstored⟩ | hover
    · rw [hstored] at hdid
      simp only [Course.next, hstored]
      by_cases hfd : s.serverSockfd = fd
      · rw [if_pos hfd]
        exact hdid
      · rw [if_neg hfd]
        exact Stored.gone hdid ((Stored.sockfd hdid).resolve_left hfd)
    · rcases hover with hover | hover <;>
        · rw [hover] at hdid
          simp only [Course.next, hover]
          exact hdid

theorem Follows.storeSockfd (h : Follows g s) (hidle : s.handlers = [])
    (hallowed : g.Allows (.storeSockfd fd)) (code : StartupProg StartupExit) :
    Follows (g.next (.storeSockfd fd) ())
      { s with serverSockfd := fd, code := code, log := .did (.storeSockfd fd) :: s.log } := by
  have ⟨htimeout, hsigpipe, hinit, hpast, hphase⟩ := h
  refine ⟨htimeout, hsigpipe, hinit, hpast, ?_⟩
  rcases hallowed with hcreated | ⟨rfl, hover | hover⟩
  · rw [hcreated] at hphase
    obtain ⟨hnonneg, -, hsockets⟩ := hphase
    simp only [Course.next, hcreated]
    exact stored_storeSockfd hnonneg hsockets hidle code
  · rw [hover] at hphase
    simp only [Course.next, hover]
    exact ⟨rfl, hphase.2⟩
  · rw [hover] at hphase
    simp only [Course.next, hover]
    exact ⟨rfl, hphase⟩

/-- `server_init` has set the flag, and from here on a signal clears it for good. -/
theorem Follows.setRunning (h : Follows g s) (hidle : s.handlers = [])
    (hallowed : g.Allows (.storeRunning true)) (code : StartupProg StartupExit) :
    Follows (g.next (.storeRunning true) ())
      { s with running := true, code := code, log := .did (.storeRunning true) :: s.log } := by
  obtain ⟨htimeout, hsigpipe, hinit, -, hphase⟩ := h
  refine ⟨htimeout, hsigpipe, hinit, fun pc hpc => ?_, ?_⟩
  · rw [hidle] at hpc
    exact absurd hpc List.not_mem_nil
  · obtain ⟨fd, port, hstored⟩ := hallowed
    rw [hstored] at hphase
    simp only [Course.next, hstored, if_true]
    have hbefore : Stored fd (.listening port) s := hphase
    refine ⟨hbefore.did (o := .storeRunning true) (fun h => nomatch h) rfl rfl rfl rfl, ?_, ?_⟩
    · exact fun _ => ⟨hidle, rfl⟩
    · exact fun hraised => absurd hraised not_raisedBehind_self

theorem Follows.clearRunning (h : Follows g s) (hallowed : g.Allows (.storeRunning false))
    (code : StartupProg StartupExit) :
    Follows g
      { s with running := false, code := code, log := .did (.storeRunning false) :: s.log } := by
  have ⟨htimeout, hsigpipe, hinit, hpast, hphase⟩ := h
  refine ⟨htimeout, hsigpipe, hinit, fun _ _ _ => rfl, ?_⟩
  rcases hallowed with ⟨fd, state, hstored⟩ | hover | hover
  · rw [hstored] at hphase ⊢
    exact Stored.did (o := .storeRunning false) hphase (fun h => nomatch h) rfl rfl rfl rfl
  · rw [hover] at hphase ⊢
    exact hphase
  · rw [hover] at hphase ⊢
    exact hphase

theorem Follows.createMonitor (h : Follows g s) (hallowed : g.Allows .createMonitor) (created : Bool)
    (code : StartupProg StartupExit) :
    Follows (g.next .createMonitor created)
      { s with code := code, log := .did .createMonitor :: s.log } := by
  have hdid := h.did .createMonitor code
  cases created with
  | true => exact hdid
  | false =>
    obtain ⟨fd, port, hserving⟩ := hallowed
    have hphase := hdid.phase
    rw [hserving] at hphase
    refine ⟨hdid.timeout, hdid.sigpipeIgnored, hdid.initialised, hdid.past, ?_⟩
    simp only [Course.next, hserving]
    exact hphase.1

/-- An operation of `main` does what the monitor takes it for. -/
theorem Follows.perform {o : StartupOp} {r : o.Resp} (h : Follows g s) (hidle : s.handlers = [])
    (hallowed : g.Allows o) (hp : s.perform ok n o = some (r, t))
    (code : StartupProg StartupExit) :
    g.Answers o r ∧ Follows (g.next o r) { t with code := code, log := .did o :: s.log } := by
  cases o with
  | socket => exact h.socket hallowed hp code
  | bind fd port => exact h.bind hidle hallowed hp code
  | listen fd => exact h.listen hidle hallowed hp code
  | storeTimeout seconds =>
    cases hp
    exact ⟨trivial, rfl, h.sigpipeIgnored, h.initialised, h.past,
      h.phase.did (.storeTimeout seconds) rfl rfl rfl rfl rfl⟩
  | sigaction signum =>
    cases hp
    cases ok with
    | false => exact ⟨trivial, h.did (.sigaction signum) code⟩
    | true =>
      exact ⟨trivial, h.timeout, h.sigpipeIgnored, h.initialised, h.past,
        h.phase.did (.sigaction signum) rfl rfl rfl rfl rfl⟩
  | ignoreSigpipe =>
    cases hp
    exact ⟨trivial, h.timeout, rfl, h.initialised, h.past,
      h.phase.did .ignoreSigpipe rfl rfl rfl rfl rfl⟩
  | sessionsInit =>
    cases hp
    exact ⟨trivial, h.timeout, h.sigpipeIgnored, fun _ => rfl, h.past,
      h.phase.did .sessionsInit rfl rfl rfl rfl rfl⟩
  | setsockopt fd =>
    cases hp
    exact h.setsockopt fd code
  | close fd =>
    cases hp
    exact ⟨trivial, h.close hallowed code⟩
  | sockfd =>
    cases hp
    exact h.sockfd hallowed code
  | storeSockfd fd =>
    cases hp
    exact ⟨trivial, h.storeSockfd hidle hallowed code⟩
  | storeRunning value =>
    cases hp
    refine ⟨trivial, ?_⟩
    cases value with
    | true => exact h.setRunning hidle hallowed code
    | false => exact h.clearRunning hallowed code
  | createMonitor =>
    cases hp
    exact ⟨trivial, h.createMonitor hallowed _ code⟩
  | shutdown fd | sweep | running =>
    cases hp
    exact ⟨trivial, h.did _ code⟩

end Perform

/-! ## Whole runs -/

/-- The process follows a course that `main` is safe on, and nobody is interrupted by its end. -/
structure OnCourse (argv : List Bytes) (s : Startup) : Prop where
  idle : ∀ e, s.code = .ret e → s.handlers = []
  course : s.code = .ret .killed ∧ s.sockets = noSockets ∨
    ∃ g, Follows g s ∧ Course.monitor.Safe (Course.Ends argv) g s.code

theorem onCourse_init : OnCourse argv (startupSystem argv).init where
  idle _ _ := rfl
  course := by
    refine .inr ⟨⟨90, false, false, .absent⟩, ⟨rfl, rfl, (fun h => nomatch h), ?_, rfl, rfl⟩,
      Course.safe_serverMain argv⟩
    exact fun pc hpc => absurd hpc List.not_mem_nil

/-- No operation of `main` begins or ends a handler. -/
theorem handlers_perform {ok : Bool} {n : Nat} {o : StartupOp} {r : o.Resp} {t : Startup}
    (hp : s.perform ok n o = some (r, t)) : t.handlers = s.handlers := by
  cases o with
  | socket | bind fd port =>
    rw [Startup.perform] at hp
    split at hp
    · first
        | (cases hp; rfl)
        | (split at hp <;> cases hp; rfl)
    · cases hp
      rfl
  | listen fd =>
    rw [Startup.perform] at hp
    split at hp
    · split at hp <;> (cases hp; rfl)
    · cases hp
      rfl
  | sigaction signum =>
    cases hp
    cases ok <;> rfl
  | _ =>
    cases hp
    rfl

theorem OnCourse.mainStep {ok : Bool} {n : Nat} (h : OnCourse argv s) (hidle : s.handlers = [])
    (hs : s.mainStep ok n s.code = some s') : OnCourse argv s' := by
  obtain ⟨-, ⟨hkilled, -⟩ | ⟨g, hfollows, hsafe⟩⟩ := h
  · rw [hkilled] at hs
    cases hs
  · generalize hcode : s.code = code at hs hsafe
    cases code with
    | ret e => cases hs
    | call o k =>
      obtain ⟨⟨r, t⟩, hp, rfl⟩ := Option.map_eq_some_iff.1 hs
      obtain ⟨hanswers, hnext⟩ := hfollows.perform hidle hsafe.1 hp (k r)
      exact ⟨fun _ _ => (handlers_perform hp).trans hidle, .inr ⟨_, hnext, hsafe.2 r hanswers⟩⟩

theorem OnCourse.step {l : StartupLabel} (h : OnCourse argv s) (hs : s.step l = some s') :
    OnCourse argv s' := by
  cases l with
  | main ok n =>
    rw [Startup.step] at hs
    split at hs
    · exact h.mainStep ‹_› hs
    · cases hs
  | handler =>
    rw [Startup.step] at hs
    split at hs
    · cases hs
    · rename_i signum pc rest hhandlers
      cases hs
      have hcode := (handlerStep_frame s signum rest pc).2.1
      refine ⟨fun e he => ?_, ?_⟩
      · have hnil := h.idle e (hcode.symm.trans he)
        rw [hhandlers] at hnil
        cases hnil
      · rw [hcode]
        rcases h.course with ⟨hkilled, -⟩ | ⟨g, hfollows, hsafe⟩
        · have hnil := h.idle _ hkilled
          rw [hhandlers] at hnil
          cases hnil
        · exact .inr ⟨g, hfollows.handlerStep hhandlers, hsafe⟩
  | raise signum =>
    rw [Startup.step] at hs
    split at hs
    · cases hs
    · rename_i o k hcode
      split at hs
      · cases hs
      · cases hs
        rw [deliver]
        split
        · refine ⟨fun e he => ?_, ?_⟩
          · exact absurd (hcode.symm.trans he) (fun h => nomatch h)
          · rcases h.course with ⟨hkilled, -⟩ | ⟨g, hfollows, hsafe⟩
            · exact absurd (hcode.symm.trans hkilled) (fun h => nomatch h)
            · exact .inr ⟨g, hfollows.raise signum, hsafe⟩
        · exact ⟨fun _ _ => rfl, .inl ⟨rfl, rfl⟩⟩

theorem onCourse_reach (h : (startupSystem argv).Reach s) : OnCourse argv s :=
  h.invariant onCourse_init fun _ _ _ _ hs hstep => hs.step hstep

/-- In what the start can end. A signal that comes before `server_init` has set the flag is
    forgotten: the accept loop begins in spite of it, without a socket if it came behind the call of
    `socket`. -/
def Outcome (argv : List Bytes) (s : Startup) : StartupExit → Prop
  | .serving => ∃ port timeout fd, arguments argv = some (port, timeout) ∧ 0 ≤ fd ∧
      s.handlers = [] ∧ s.sigpipeIgnored = true ∧
      s.server = { ChatMultithread.serverInit timeout with
        running := decide (¬ RaisedBehind (.storeRunning true) s.log)
        serverSockfd := if RaisedBehind (.storeSockfd fd) s.log then -1 else fd } ∧
      s.sockets = if RaisedBehind (.storeSockfd fd) s.log then noSockets
        else onlySocket fd (.listening port)
  | .failure | .killed => s.sockets = noSockets

/-- How the accept loop begins. -/
theorem serving_outcome (h : (startupSystem argv).Reach s) (hcode : s.code = .ret .serving) :
    Outcome argv s .serving := by
  obtain ⟨hidle, hcourse⟩ := onCourse_reach h
  have hhandlers := hidle .serving hcode
  rw [hcode] at hcourse
  rcases hcourse with ⟨hkilled, -⟩ | ⟨g, hfollows, port, timeout, fd, hargs, rfl⟩
  · cases hkilled
  · obtain ⟨hstored, hflagged⟩ := hfollows.phase
    have hrunning : s.running = decide (¬ RaisedBehind (.storeRunning true) s.log) := by
      by_cases hraised : RaisedBehind (.storeRunning true) s.log
      · rw [hflagged.down hraised hhandlers, decide_eq_false (not_not.2 hraised)]
      · rw [(hflagged.up hraised).2, decide_eq_true hraised]
    refine ⟨port, timeout, fd, hargs, hstored.nonneg, hhandlers, hfollows.sigpipeIgnored, ?_⟩
    rw [server, hfollows.timeout, hfollows.initialised rfl, hrunning]
    by_cases hraised : RaisedBehind (.storeSockfd fd) s.log
    · have hgone := hstored.raised hraised hhandlers
      rw [if_pos hraised, if_pos hraised, hgone]
      exact ⟨rfl, hstored.gone hgone⟩
    · obtain ⟨-, hsockfd, hsockets⟩ := hstored.quiet hraised
      rw [if_neg hraised, if_neg hraised, hsockfd]
      exact ⟨rfl, hsockets⟩

theorem code_of_exit {e : StartupExit} (he : s.exit = some e) : s.code = .ret e := by
  unfold exit at he
  split at he
  · rename_i e' hcode
    cases he
    exact hcode
  · cases he

/-- The start ends with a server that listens on the given port, unless a signal has come, or with
    nothing open. -/
theorem startup_outcome (h : (startupSystem argv).Reach s) {e : StartupExit}
    (he : s.exit = some e) : Outcome argv s e := by
  have hcode := code_of_exit he
  have hcourse := (onCourse_reach h).course
  cases e with
  | serving => exact serving_outcome h hcode
  | failure =>
    rw [hcode] at hcourse
    rcases hcourse with ⟨-, hsockets⟩ | ⟨g, hfollows, hphase | hphase⟩
    · exact hsockets
    · exact (hphase ▸ hfollows.phase : InPhase s .absent).2
    · exact (hphase ▸ hfollows.phase : InPhase s .closed)
  | killed =>
    rw [hcode] at hcourse
    rcases hcourse with ⟨-, hsockets⟩ | ⟨g, -, hends⟩
    · exact hsockets
    · exact hends.elim

/-- SIGINT arrives between `listen` and the store of the flag. -/
def deafStart : List StartupLabel :=
  List.replicate 14 (.main true 3) ++ .raise .sigint :: List.replicate 4 .handler ++
    List.replicate 2 (.main true 3)

/-- The server goes on without a socket, and without having noticed. -/
theorem startup_outcome_deaf : ∃ s, (startupSystem [ascii "8080"]).Reach s ∧
    s.exit = some .serving ∧ s.running = true ∧ s.serverSockfd = -1 ∧
    Outcome [ascii "8080"] s .serving := by
  obtain ⟨s, hs, hp⟩ := System.exists_reach_of_run (S := startupSystem [ascii "8080"]) deafStart
    (fun s => decide (s.exit = some .serving ∧ s.running = true ∧ s.serverSockfd = -1))
    (by decide +kernel)
  obtain ⟨hexit, hrunning, hsockfd⟩ := of_decide_eq_true hp
  exact ⟨s, hs, hexit, hrunning, hsockfd, startup_outcome hs hexit⟩

end Startup

end ChatMultithread
