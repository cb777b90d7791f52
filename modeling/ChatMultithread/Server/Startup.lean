import ChatMultithread.Lib.CInt
import ChatMultithread.Lib.Decimal
import ChatMultithread.Lib.Prog
import ChatMultithread.Server.Shutdown

/-!
# The server's start

`main` of the server up to its call of `server_start_accept_loop`, with `server_init`, and the
invocations of `handle_termination_signal` that interrupt it. There is only one thread yet: while a
handler runs `main` stands still, and a further signal interrupts the handler.
-/

namespace ChatMultithread

open Lib

/-- `parse_positive_int()`: what it stores, or `none` for -1. -/
def parsePositiveInt (text : Bytes) : Option Int :=
  let parsed := strtol text
  if parsed.erange = true ∨ parsed.stop.length = text.length ∨ parsed.stop ≠ [] ∨ parsed.value ≤ 0 ∨
      parsed.value > 65535 then none
  else some (toInt parsed.value)

/-- The signals with a handler. -/
inductive Signal where
  | sigint
  | sigterm
  deriving DecidableEq, Repr

/-- A socket before it accepts anything. -/
inductive ServerSocket where
  | unbound
  | bound (port : Int)
  | listening (port : Int)
  deriving DecidableEq, Repr

/-- An operation of `main`. -/
inductive StartupOp where
  /-- `g_inactivity_timeout_seconds = ...`. -/
  | storeTimeout (seconds : Int)
  /-- Whether `sigaction` succeeds. -/
  | sigaction (signum : Signal)
  /-- `signal(SIGPIPE, SIG_IGN)`. -/
  | ignoreSigpipe
  | sessionsInit
  | socket
  /-- Whether `setsockopt` succeeds. -/
  | setsockopt (fd : Int)
  /-- Whether `bind` succeeds. -/
  | bind (fd port : Int)
  /-- Whether `listen` succeeds. -/
  | listen (fd : Int)
  | shutdown (fd : Int)
  | close (fd : Int)
  /-- Reads `g_server_sockfd`. -/
  | sockfd
  /-- `g_server_sockfd = ...`. -/
  | storeSockfd (fd : Int)
  /-- Reads `g_server_running`. -/
  | running
  /-- `g_server_running = ...`. -/
  | storeRunning (value : Bool)
  /-- Whether `pthread_create` starts the monitor. -/
  | createMonitor
  /-- The loop over `g_sessions` of `server_shutdown`. -/
  | sweep
  deriving DecidableEq, Repr

abbrev StartupOp.Resp : StartupOp → Type
  | .sigaction _ | .setsockopt _ | .bind _ _ | .listen _ | .running | .createMonitor => Bool
  | .socket | .sockfd => Int
  | .storeTimeout _ | .ignoreSigpipe | .sessionsInit | .shutdown _ | .close _ | .storeSockfd _
  | .storeRunning _ | .sweep => Unit

/-- Code of `main` between operations. -/
abbrev StartupProg := Prog StartupOp StartupOp.Resp

/-- How the start ends: `main` returns, it enters the accept loop, or a signal without a handler
    ends the process. -/
inductive StartupExit where
  | failure
  | serving
  | killed
  deriving DecidableEq, Repr

namespace Startup

/-- One operation of `main`. -/
def call (o : StartupOp) : StartupProg o.Resp := .op o

@[simp] theorem call_bind {α : Type} (o : StartupOp) (f : o.Resp → StartupProg α) :
    (call o >>= f) = .call o f := rfl

/-- The branches of `server_init` that close the socket. -/
def giveUp : StartupProg Bool := do
  let fd ← call .sockfd
  call (.close fd)
  call (.storeSockfd (-1))
  return false

/-- `server_init()` from its `listen` on. -/
def initListen : StartupProg Bool := do
  let fd ← call .sockfd
  let listening ← call (.listen fd)
  if !listening then giveUp
  else do
    call (.storeRunning true)
    return true

/-- `server_init()` from its `bind` on. -/
def initBind (port : Int) : StartupProg Bool := do
  let fd ← call .sockfd
  let bound ← call (.bind fd port)
  if !bound then giveUp else initListen

/-- `server_init()`: whether it returns 0. -/
def serverInit (port : Int) : StartupProg Bool := do
  let fd ← call .socket
  call (.storeSockfd fd)
  let stored ← call .sockfd
  if stored < 0 then return false
  else do
    let fd ← call .sockfd
    let reusable ← call (.setsockopt fd)
    if !reusable then giveUp else initBind port

/-- `server_shutdown()` behind its guard. -/
def shutdownAll : StartupProg Unit := do
  call (.storeRunning false)
  let fd ← call .sockfd
  if 0 ≤ fd then do
    let fd ← call .sockfd
    call (.shutdown fd)
    let fd ← call .sockfd
    call (.close fd)
    call (.storeSockfd (-1))
    call .sweep
  else call .sweep

/-- `server_shutdown()`. -/
def serverShutdown : StartupProg Unit := do
  let running ← call .running
  if !running then do
    let fd ← call .sockfd
    if fd < 0 then return () else shutdownAll
  else shutdownAll

/-- `main` from its call of `server_init` on. -/
def mainServe (port : Int) : StartupProg StartupExit := do
  let initialised ← serverInit port
  if !initialised then return .failure
  else do
    let created ← call .createMonitor
    if !created then do
      serverShutdown
      return .failure
    else return .serving

/-- `main` behind its arguments. -/
def mainArguments (port timeout : Int) : StartupProg StartupExit := do
  call (.storeTimeout timeout)
  let sigint ← call (.sigaction .sigint)
  if !sigint then return .failure
  else do
    let sigterm ← call (.sigaction .sigterm)
    if !sigterm then return .failure
    else do
      call .ignoreSigpipe
      call .sessionsInit
      mainServe port

/-- The port and the timeout in the arguments behind the name of the program. -/
def arguments : List Bytes → Option (Int × Int)
  | [port] => (parsePositiveInt port).map fun p => (p, 90)
  | [port, timeout] =>
      (parsePositiveInt port).bind fun p => (parsePositiveInt timeout).map fun t => (p, t)
  | _ => none

/-- `main` up to its call of `server_start_accept_loop`. -/
def serverMain (argv : List Bytes) : StartupProg StartupExit :=
  match arguments argv with
  | none => return .failure
  | some (port, timeout) => mainArguments port timeout

end Startup

/-- What a run of the start leaves in the log. -/
inductive StartupEvent where
  | did (o : StartupOp)
  /-- A signal arrived that has a handler. -/
  | raised
  deriving DecidableEq, Repr

/-- The process with its globals, the sockets it has, and its log, the newest entry first. A running
    handler stands in front of the one that it interrupts. -/
structure Startup where
  running : Bool
  serverSockfd : Int
  inactivityTimeoutSeconds : Int
  sessions : Sessions
  sockets : Int → Option ServerSocket
  handled : Signal → Bool
  sigpipeIgnored : Bool
  handlers : List (Signal × HandlerPc)
  code : StartupProg StartupExit
  log : List StartupEvent

/-- What moves: `main`, whose environment may let a call succeed and has a descriptor to give; or
    the innermost handler; or a signal arrives. -/
inductive StartupLabel where
  | main (ok : Bool) (fd : Nat)
  | handler
  | raise (signum : Signal)
  deriving DecidableEq, Repr

namespace Startup

/-- `close(fd)`. -/
def close (s : Startup) (fd : Int) : Startup :=
  { s with sockets := Function.update s.sockets fd none }

/-- One operation of `main`: its answer, and the process afterwards. No call succeeds on a
    descriptor that is not open. -/
def perform (s : Startup) (ok : Bool) (fd : Nat) : (o : StartupOp) → Option (o.Resp × Startup)
  | .storeTimeout seconds => some ((), { s with inactivityTimeoutSeconds := seconds })
  | .sigaction signum =>
      some (ok, if ok then { s with handled := Function.update s.handled signum true } else s)
  | .ignoreSigpipe => some ((), { s with sigpipeIgnored := true })
  | .sessionsInit => some ((), { s with sessions := ChatMultithread.sessionsInit })
  | .socket =>
      if ok then
        if s.sockets fd = none then
          some (fd, { s with sockets := Function.update s.sockets fd (some .unbound) })
        else none
      else some (-1, s)
  | .setsockopt fd => some (ok && (s.sockets fd).isSome, s)
  | .bind fd port =>
      if ok ∧ s.sockets fd = some .unbound then
        some (true, { s with sockets := Function.update s.sockets fd (some (.bound port)) })
      else some (false, s)
  | .listen fd =>
      match s.sockets fd with
      | some (.bound port) =>
          if ok then
            some (true, { s with sockets := Function.update s.sockets fd (some (.listening port)) })
          else some (false, s)
      | _ => some (false, s)
  | .shutdown _ | .sweep => some ((), s)
  | .close fd => some ((), s.close fd)
  | .sockfd => some (s.serverSockfd, s)
  | .storeSockfd fd => some ((), { s with serverSockfd := fd })
  | .running => some (s.running, s)
  | .storeRunning value => some ((), { s with running := value })
  | .createMonitor => some (ok, s)

/-- One step of the innermost `handle_termination_signal`, which has interrupted `rest`. -/
def handlerStep (s : Startup) (signum : Signal) (rest : List (Signal × HandlerPc)) :
    HandlerPc → Startup
  | .entered => { s with running := false, handlers := (signum, .testing) :: rest }
  | .testing =>
      if 0 ≤ s.serverSockfd then { s with handlers := (signum, .closing) :: rest }
      else { s with handlers := rest }
  | .closing => { s.close s.serverSockfd with handlers := (signum, .clearing) :: rest }
  | .clearing => { s with serverSockfd := -1, handlers := rest }

/-- One step of `main`, while no handler runs. -/
def mainStep (s : Startup) (ok : Bool) (fd : Nat) : StartupProg StartupExit → Option Startup
  | .ret _ => none
  | .call o k => (s.perform ok fd o).map fun p => { p.2 with code := k p.1, log := .did o :: s.log }

/-- A signal arrives. Its default action ends the process, and the kernel closes what is open. -/
def deliver (s : Startup) (signum : Signal) : Startup :=
  if s.handled signum then
    { s with handlers := (signum, .entered) :: s.handlers, log := .raised :: s.log }
  else { s with handlers := [], code := .ret .killed, sockets := fun _ => none }

/-- One step of the process. It ends with `main`, or where the accept loop begins. -/
def step (s : Startup) : StartupLabel → Option Startup
  | .main ok fd =>
      match s.handlers with
      | [] => s.mainStep ok fd s.code
      | _ :: _ => none
  | .handler =>
      match s.handlers with
      | [] => none
      | (signum, pc) :: rest => some (s.handlerStep signum rest pc)
  | .raise signum =>
      match s.code with
      | .ret _ => none
      | .call _ _ =>
          -- a signal is blocked while it is handled
          if signum ∈ s.handlers.map Prod.fst then none else some (s.deliver signum)

/-- How the start has ended. -/
def exit (s : Startup) : Option StartupExit :=
  match s.code with
  | .ret e => some e
  | .call _ _ => none

/-- The server whose accept loop begins. -/
def server (s : Startup) : Server :=
  { ChatMultithread.serverInit s.inactivityTimeoutSeconds with
    sessions := s.sessions
    running := s.running
    serverSockfd := s.serverSockfd }

end Startup

/-- An element of `g_sessions` before anything is written to it. -/
def zeroSession : ClientSession where
  sockfd := 0
  addr := ⟨0, 0, 0, 0⟩
  threadId := 0
  username := []
  status := .activo
  lastActivity := 0
  isRegistered := false
  isActive := false

/-- The process that is started with the given arguments. -/
def startupSystem (argv : List Bytes) : System Startup StartupLabel where
  init :=
    { running := false
      serverSockfd := -1
      inactivityTimeoutSeconds := 90
      sessions := fun _ => zeroSession
      sockets := fun _ => none
      handled := fun _ => false
      sigpipeIgnored := false
      handlers := []
      code := Startup.serverMain argv
      log := [] }
  step := Startup.step

end ChatMultithread
