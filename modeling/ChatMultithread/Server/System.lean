import ChatMultithread.Lib.Transition
import ChatMultithread.Server.ClientThread
import ChatMultithread.Server.Externs

/-!
# The server as a transition system

The accept loop, the client threads and the inactivity monitor interleave at the granularity of
the critical sections of `g_sessions_mutex` and of the system calls. A label says which of them
moves and what its environment answers: the descriptor `accept` returns, the line a client sent,
the clock, whether a `send` succeeds.

A connection is numbered by the order in which it was accepted; descriptors are what the kernel
hands out, and `fds` says to which connection each open one belongs. The event log, the numbers
of the connections and the owner recorded with a looked-up descriptor are there to state
properties with: no step depends on them.
-/

namespace ChatMultithread

open Lib

/-- The number of an accepted connection. -/
abbrev Conn := Nat

/-- On whose behalf a string was written to a socket. -/
inductive Source where
  | client (c : Conn)
  | monitor
  deriving DecidableEq, Repr

/-- What a run leaves in the log. -/
inductive Event where
  /-- `recv_line` returned a line to the thread of `c`. -/
  | received (c : Conn) (line : Bytes)
  /-- The thread of `c` executed `add_session(user, fd)`. -/
  | named (c : Conn) (user : Bytes)
  /-- `dst` was sent `buf`, through a descriptor that was `aim`'s when `src` obtained it. -/
  | delivered (src : Source) (aim : Option Conn) (dst : Conn) (buf : Bytes)
  /-- `close` was called on the descriptor that `accept` returned for `c`, while it was
      `owner`'s. -/
  | closed (c : Conn) (owner : Option Conn)
  deriving DecidableEq, Repr

/-- Where the thread of a client stands in `client_thread_main`. -/
inductive ThreadPc where
  /-- At `sockfd = session->sockfd`. -/
  | start
  /-- At the `send_line` of `WELCOME`. -/
  | welcome
  /-- At the head of the loop. -/
  | loop
  /-- At `recv_line`. -/
  | receiving
  /-- In the loop body, with the rest of it still to run. -/
  | handling (code : ServerProg LoopExit)
  /-- At the critical section of `sessions_remove_by_sockfd`. -/
  | removing
  /-- Behind that section, at the `shutdown` and `close` of `old_sockfd`. -/
  | closing (oldSockfd : Int)
  | done

/-- A client thread: its argument, its local `sockfd`, where it stands, and the descriptor it
    holds from `find_user_fd` and has not sent to yet, with its owner at the lookup. -/
structure Thread where
  slot : Slot
  sockfd : Int
  pc : ThreadPc
  target : Option (Int × Option Conn)

/-- Where the accept loop stands, with the connection it is working on. -/
inductive AcceptPc where
  | top
  | accepting
  /-- At `sessions_add`. -/
  | adding (fd : Int) (c : Conn) (session : ClientSession)
  /-- At the `close` of a connection for which the table has no room. -/
  | rejecting (fd : Int) (c : Conn)
  /-- At `sessions_find_by_sockfd`, the session just put into `filled`. -/
  | finding (fd : Int) (c : Conn) (filled : Slot)
  /-- At `sessions_remove_by_sockfd` in the branch `session_slot == NULL`. -/
  | slotMissing (fd : Int) (c : Conn)
  /-- At `pthread_create`. -/
  | creating (fd : Int) (c : Conn) (slot : Slot)
  /-- At `sessions_remove_by_sockfd` after `pthread_create` has failed. -/
  | createFailed (fd : Int) (c : Conn) (slot : Slot)
  /-- Behind the critical section of one of these removals. -/
  | closing (fd : Int) (c : Conn)
  /-- At the store of `thread_id`. -/
  | storing (slot : Slot) (threadId : Nat)
  | done
  deriving DecidableEq

/-- An entry of the monitor's `sockets` and `notifications`, with the owner of the descriptor
    at the time it was copied. -/
structure Notification where
  sockfd : Int
  aim : Option Conn
  text : Bytes
  deriving DecidableEq, Repr

/-- Where the monitor stands. -/
inductive MonitorPc where
  | tick
  | sending (pending : List Notification)
  | done
  deriving DecidableEq, Repr

/-- The server and the part of the kernel it uses. -/
structure Server where
  sessions : Sessions
  running : Bool
  serverSockfd : Int
  inactivityTimeoutSeconds : Int
  fds : Int → Option Conn
  nextConn : Conn
  accept : AcceptPc
  threads : Conn → Option Thread
  monitor : MonitorPc
  log : List Event

/-- What the environment answers the accept loop. -/
inductive AcceptChoice where
  | connection (fd : Int) (addr : InAddr) (now : Int)
  | error
  | go
  deriving DecidableEq, Repr

/-- What the environment answers a client thread. -/
inductive ClientChoice where
  | line (raw : Bytes)
  | hangup
  | go (now : Int) (sent : Bool)
  deriving DecidableEq, Repr

/-- Which thread moves, and what its environment answers. -/
inductive Label where
  | acceptor (choice : AcceptChoice)
  | client (c : Conn) (choice : ClientChoice)
  | monitor (now : Int) (sent : Bool)
  | signal
  deriving DecidableEq, Repr

namespace Server

/-- A string written whole to a descriptor. Nobody gets it when the descriptor is closed. -/
def deliver (s : Server) (src : Source) (aim : Option Conn) (fd : Int) (buf : Bytes) : Server :=
  match s.fds fd with
  | none => s
  | some dst => { s with log := .delivered src aim dst buf :: s.log }

/-- The strings of a broadcast. -/
def deliverAll (s : Server) (src : Source) (sends : List (Int × Bytes)) : Server :=
  sends.foldl (fun s p => s.deliver src (s.fds p.1) p.1 p.2) s

/-- `close(fd)` for the connection `c`. -/
def close (s : Server) (c : Conn) (fd : Int) : Server :=
  { s with fds := Function.update s.fds fd none, log := .closed c (s.fds fd) :: s.log }

def setThread (s : Server) (c : Conn) (t : Thread) : Server :=
  { s with threads := Function.update s.threads c (some t) }

/-- The `if (session->is_active)` of `update_session_activity`. -/
def touched (session : ClientSession) (now : Int) : ClientSession :=
  if session.isActive then
    { session with
      lastActivity := now
      status := if session.status = .inactivo then .activo else session.status }
  else session

/-- The owner of `fd` when thread `t` of `c` obtained it. -/
def aimOf (c : Conn) (t : Thread) (fd : Int) : Option Conn :=
  match t.target with
  | some (fd', owner) => if fd' = fd then owner else some c
  | none => some c

/-- One operation of the thread `t` of `c`: its answer, the state and the thread's looked-up
    descriptor afterwards. -/
def perform (x : Externs) (s : Server) (c : Conn) (t : Thread) (now : Int) (sent : Bool) :
    (o : Op) → Option (o.Resp × Server × Option (Int × Option Conn))
  | .sessionsFindBySockfd sockfd => some (sessionsFindBySockfd s.sessions sockfd, s, t.target)
  | .touchActivity i =>
      some ((), { s with sessions := Function.update s.sessions i (touched (s.sessions i) now) },
        t.target)
  | .readSockfd => some ((s.sessions t.slot).sockfd, s, t.target)
  | .readAddr => some ((s.sessions t.slot).addr, s, t.target)
  | .readUsername => some ((s.sessions t.slot).username, s, t.target)
  | .usernameExists user => some (x.usernameExists s.sessions user, s, t.target)
  | .addSession user fd =>
      some ((), { s with
        sessions := x.addSession s.sessions user fd
        log := .named c user :: s.log }, t.target)
  | .findUserFd user =>
      some (x.findUserFd s.sessions user, s,
        if 0 ≤ x.findUserFd s.sessions user then
          some (x.findUserFd s.sessions user, s.fds (x.findUserFd s.sessions user))
        else t.target)
  | .broadcastAll msg =>
      some ((), s.deliverAll (.client c) (x.broadcastAll s.sessions msg), t.target)
  | .broadcastExcept msg fd =>
      some ((), s.deliverAll (.client c) (x.broadcastExcept s.sessions msg fd), t.target)
  | .getAllUsers n => some (x.getAllUsers s.sessions n, s, t.target)
  | .getUserInfo user => some (x.getUserInfo s.sessions user, s, t.target)
  | .setUserStatus user status =>
      some ((), { s with sessions := x.setUserStatus s.sessions user status }, t.target)
  | .send fd buf =>
      some (sent && (s.fds fd).isSome,
        if sent then s.deliver (.client c) (aimOf c t fd) fd buf else s,
        if t.target.map Prod.fst = some fd then none else t.target)
  | .undefinedBehaviour => none

/-- One step of the thread `t` of connection `c` through `client_thread_main`. -/
def clientStep (x : Externs) (s : Server) (c : Conn) (t : Thread) :
    ThreadPc → ClientChoice → Option Server
  | .start, .go _ _ =>
      some (s.setThread c { t with sockfd := (s.sessions t.slot).sockfd, pc := .welcome })
  | .welcome, .go _ sent =>
      if sent then
        some ((s.deliver (.client c) (some c) t.sockfd (ascii "WELCOME|CHAT/1.0\n")).setThread c
          { t with pc := .loop })
      else some (s.setThread c { t with pc := .removing })
  | .loop, .go _ _ =>
      if s.running then some (s.setThread c { t with pc := .receiving })
      else some (s.setThread c { t with pc := .removing })
  | .receiving, .line raw =>
      if raw ≠ [] ∧ msgTerminatorChar ∉ raw.dropLast ∧ raw.length ≤ maxLineLen - 1 ∧
          (raw.length = maxLineLen - 1 ∨ raw.getLast? = some msgTerminatorChar) then
        some ({ s with log := .received c (cstr raw) :: s.log }.setThread c
          { t with pc := .handling (clientLine t.sockfd (cstr raw)) })
      else none
  | .receiving, .hangup => some (s.setThread c { t with pc := .removing })
  | .handling (.ret .continue_), .go _ _ =>
      some (s.setThread c { t with pc := .loop, target := none })
  | .handling (.ret .break_), .go _ _ =>
      some (s.setThread c { t with pc := .removing, target := none })
  | .handling (.call o k), .go now sent =>
      match s.perform x c t now sent o with
      | none => none
      | some (r, s', target) =>
          some (s'.setThread c { t with pc := .handling (k r), target := target })
  | .removing, .go _ _ =>
      match sessionsRemoveBySockfd s.sessions t.sockfd with
      | (none, _) => some (s.setThread c { t with pc := .done })
      | (some old, sessions) =>
          if 0 ≤ old then
            some ({ s with sessions := sessions }.setThread c { t with pc := .closing old })
          else some ({ s with sessions := sessions }.setThread c { t with pc := .done })
  | .closing old, .go _ _ => some ((s.close c old).setThread c { t with pc := .done })
  | _, _ => none

/-- The record that the accept loop hands to `sessions_add`. -/
def newSession (fd : Int) (addr : InAddr) (now : Int) : ClientSession where
  sockfd := fd
  addr := addr
  threadId := 0
  username := []
  status := .activo
  lastActivity := now
  isRegistered := false
  isActive := true

/-- One step of `server_start_accept_loop`. `accept` returns a descriptor that is not open. -/
def acceptorStep (s : Server) : AcceptPc → AcceptChoice → Option Server
  | .top, .go =>
      if s.running then some { s with accept := .accepting } else some { s with accept := .done }
  | .accepting, .connection fd addr now =>
      if 0 ≤ fd ∧ s.fds fd = none then
        some { s with
          fds := Function.update s.fds fd (some s.nextConn)
          nextConn := s.nextConn + 1
          accept := .adding fd s.nextConn (newSession fd addr now) }
      else none
  | .accepting, .error =>
      if s.running then some { s with accept := .top } else some { s with accept := .done }
  | .adding fd c session, .go =>
      match sessionsAdd s.sessions session with
      | none => some { s with accept := .rejecting fd c }
      | some (i, sessions) => some { s with sessions := sessions, accept := .finding fd c i }
  | .rejecting fd c, .go => some { s.close c fd with accept := .top }
  | .finding fd c _, .go =>
      match sessionsFindBySockfd s.sessions fd with
      | none => some { s with accept := .slotMissing fd c }
      | some i => some { s with accept := .creating fd c i }
  | .creating _ c i, .go =>
      some { s.setThread c { slot := i, sockfd := 0, pc := .start, target := none } with
        accept := .storing i c }
  | .creating fd c i, .error => some { s with accept := .createFailed fd c i }
  | .slotMissing fd c, .go | .createFailed fd c _, .go =>
      match sessionsRemoveBySockfd s.sessions fd with
      | (none, _) => some { s with accept := .top }
      | (some old, sessions) =>
          if 0 ≤ old then some { s with sessions := sessions, accept := .closing old c }
          else some { s with sessions := sessions, accept := .top }
  | .closing fd c, .go => some { s.close c fd with accept := .top }
  | .storing i threadId, .go =>
      some { s with
        sessions := Function.update s.sessions i { s.sessions i with threadId := threadId }
        accept := .top }
  | _, _ => none

/-- The line the monitor prepares for a session it has marked. -/
def inactivityNotice (username : Bytes) : Bytes :=
  snprintf maxLineLen (lineOf (ascii "STATUS_CHANGED")
    [if username = [] then ascii "UNREGISTERED" else username, ascii "INACTIVO"])

/-- The loop over `g_sessions` of `inactivity_monitor_main`. -/
def markLoop (fds : Int → Option Conn) (now timeout : Int) :
    List Slot → Sessions → List Notification → Sessions × List Notification
  | [], t, pending => (t, pending)
  | i :: rest, t, pending =>
      match (if (t i).isActive then sessionMarkInactiveIfNeeded (t i) now timeout else none) with
      | none => markLoop fds now timeout rest t pending
      | some session =>
          markLoop fds now timeout rest (Function.update t i session)
            (pending ++ [⟨session.sockfd, fds session.sockfd, inactivityNotice session.username⟩])

/-- One step of `inactivity_monitor_main`: a critical section, or one `send_line`. -/
def monitorStep (s : Server) (now : Int) (sent : Bool) : MonitorPc → Option Server
  | .tick =>
      if s.running then
        let (sessions, pending) :=
          markLoop s.fds now s.inactivityTimeoutSeconds (List.finRange maxClients) s.sessions []
        some { s with sessions := sessions, monitor := .sending pending }
      else some { s with monitor := .done }
  | .sending [] => some { s with monitor := .tick }
  | .sending (n :: rest) =>
      if 0 ≤ n.sockfd ∧ sent then
        some { s.deliver .monitor n.aim n.sockfd n.text with monitor := .sending rest }
      else some { s with monitor := .sending rest }
  | .done => none

/-- One step of the server. -/
def step (x : Externs) (s : Server) : Label → Option Server
  | .acceptor choice => s.acceptorStep s.accept choice
  | .client c choice =>
      match s.threads c with
      | none => none
      | some t => s.clientStep x c t t.pc choice
  | .monitor now sent => s.monitorStep now sent s.monitor
  | .signal => some { s with running := false, serverSockfd := -1 }

end Server

/-- The server that `server_init` has set up, with the given timeout. -/
def serverInit (timeout : Int) : Server where
  sessions := sessionsInit
  running := true
  serverSockfd := 0
  inactivityTimeoutSeconds := timeout
  fds := fun _ => none
  nextConn := 0
  accept := .top
  threads := fun _ => none
  monitor := .tick
  log := []

/-- The server over given externs. -/
def serverSystem (x : Externs) (timeout : Int) : System Server Label where
  init := serverInit timeout
  step := Server.step x

/-! ## Schedules -/

/-- The accept loop takes in a client behind `fd` and starts its thread. -/
def connects (fd : Int) : List Label :=
  [.acceptor .go, .acceptor (.connection fd ⟨127, 0, 0, 1⟩ 0)] ++ List.replicate 4 (.acceptor .go)

/-- The thread of `c` takes `n` steps, in which every send is whole. -/
def turns (c : Conn) (n : Nat) : List Label := List.replicate n (.client c (.go 0 true))

/-- The thread of `c` receives a line and takes `n` steps. -/
def writes (c : Conn) (line : String) (n : Nat) : List Label :=
  .client c (.line (ascii line)) :: turns c n

end ChatMultithread
