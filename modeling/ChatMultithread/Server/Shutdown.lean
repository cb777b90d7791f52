import ChatMultithread.Server.System

/-!
# The server process

`main` of the server from its call of `server_start_accept_loop` on, with the invocations of
`handle_termination_signal`, beside the threads of the server. The transition system of the
server has a signal as one step; here the handler and `server_shutdown` read and write
`g_server_running` and `g_server_sockfd` one access at a time, and a signal may arrive at any
point, also while another one is handled.
-/

namespace ChatMultithread

open Lib

/-- A call that `handle_termination_signal` or `server_shutdown` makes on a socket. -/
inductive SocketCall where
  | shutdown (fd : Int)
  | close (fd : Int)
  deriving DecidableEq, Repr

/-- Where an invocation of `handle_termination_signal` stands. -/
inductive HandlerPc where
  /-- At `g_server_running = 0`. -/
  | entered
  /-- At `if (g_server_sockfd >= 0)`. -/
  | testing
  | closing
  /-- At `g_server_sockfd = -1`. -/
  | clearing
  deriving DecidableEq, Repr

/-- Where `main` stands. -/
inductive MainPc where
  /-- In `server_start_accept_loop`. -/
  | accepting
  /-- At `!g_server_running` in the guard of `server_shutdown`. -/
  | testingRunning
  /-- At `g_server_sockfd < 0` in this guard. -/
  | testingSockfd
  /-- At `g_server_running = 0`. -/
  | stopping
  /-- At `if (g_server_sockfd >= 0)`. -/
  | testingOpen
  | shuttingDown
  | closing
  /-- At `g_server_sockfd = -1`. -/
  | clearing
  /-- At the loop over `g_sessions`. -/
  | sweeping
  /-- Behind `server_shutdown`, in whose last step the table was `sessions`. -/
  | returned (sessions : Sessions)

/-- The server with `main` and the running signal handlers. `calls` records the calls of
    `SocketCall` in their order. -/
structure Process where
  server : Server
  handlers : List HandlerPc
  main : MainPc
  calls : List SocketCall

/-- Which part of the process moves. -/
inductive ProcessLabel where
  | server (l : Label)
  /-- SIGINT or SIGTERM arrives. -/
  | raise
  | handler (n : Nat)
  | main
  deriving DecidableEq, Repr

/-- The sockets on which the loop of `server_shutdown` calls `shutdown`. -/
def activeSockets (t : Sessions) : List Int :=
  ((List.finRange maxClients).filter fun i => (t i).isActive && decide (0 ≤ (t i).sockfd)).map
    fun i => (t i).sockfd

namespace Process

/-- One step of invocation `n` of `handle_termination_signal`; at its end it is gone. -/
def handlerStep (p : Process) (n : Nat) : HandlerPc → Process
  | .entered =>
      { p with server := { p.server with running := false }, handlers := p.handlers.set n .testing }
  | .testing =>
      if 0 ≤ p.server.serverSockfd then { p with handlers := p.handlers.set n .closing }
      else { p with handlers := p.handlers.eraseIdx n }
  | .closing =>
      { p with
        handlers := p.handlers.set n .clearing
        calls := p.calls ++ [.close p.server.serverSockfd] }
  | .clearing =>
      { p with
        server := { p.server with serverSockfd := -1 }
        handlers := p.handlers.eraseIdx n }

/-- One step of `main`: the return from the accept loop, or a step of `server_shutdown`. -/
def mainStep (p : Process) : MainPc → Option Process
  | .accepting =>
      match p.server.accept with
      | .done => some { p with main := .testingRunning }
      | _ => none
  | .testingRunning =>
      if p.server.running then some { p with main := .stopping }
      else some { p with main := .testingSockfd }
  | .testingSockfd =>
      if p.server.serverSockfd < 0 then some { p with main := .returned p.server.sessions }
      else some { p with main := .stopping }
  | .stopping =>
      some { p with server := { p.server with running := false }, main := .testingOpen }
  | .testingOpen =>
      if 0 ≤ p.server.serverSockfd then some { p with main := .shuttingDown }
      else some { p with main := .sweeping }
  | .shuttingDown =>
      some { p with main := .closing, calls := p.calls ++ [.shutdown p.server.serverSockfd] }
  | .closing =>
      some { p with main := .clearing, calls := p.calls ++ [.close p.server.serverSockfd] }
  | .clearing =>
      some { p with server := { p.server with serverSockfd := -1 }, main := .sweeping }
  | .sweeping =>
      some { p with
        main := .returned p.server.sessions
        calls := p.calls ++ (activeSockets p.server.sessions).map .shutdown }
  | .returned _ => none

/-- One step of the process. -/
def step (x : Externs) (p : Process) : ProcessLabel → Option Process
  | .server .signal => none
  | .server l => (p.server.step x l).map fun s => { p with server := s }
  | .raise => some { p with handlers := p.handlers ++ [.entered] }
  | .handler n => p.handlers[n]?.map (p.handlerStep n)
  | .main => p.mainStep p.main

end Process

/-- The process whose `main` enters the accept loop with the server `s`. -/
def processSystem (x : Externs) (s : Server) : System Process ProcessLabel where
  init := { server := s, handlers := [], main := .accepting, calls := [] }
  step := Process.step x

end ChatMultithread
