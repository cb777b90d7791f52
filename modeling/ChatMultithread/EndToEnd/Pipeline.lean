import ChatMultithread.Client.InputLoop
import ChatMultithread.Client.ReceiverLoop
import ChatMultithread.Common.Fields
import ChatMultithread.Server.ClientThread

/-!
# From one user's keyboard to another user's screen

The stages between a typed line and what the recipients show: `parse_command` and
`command_to_proto` of the sender's client, `recv_line` and the loop body of the sender's thread,
and `recv_line` and `dispatch_message` of the recipients' clients. The server answers the
thread's operations from an environment that is fixed while the line is handled.
-/

namespace ChatMultithread

open Lib

/-- An environment in which the thread's session has descriptor `fd` and the name `user`, and
    every send is whole. -/
structure Answers (answer : (o : Op) → Option o.Resp) (fd : Int) (user : Bytes) : Prop where
  find : ∀ fd, (answer (.sessionsFindBySockfd fd)).isSome
  touch : ∀ i, answer (.touchActivity i) = some ()
  sockfd : answer .readSockfd = some fd
  username : answer .readUsername = some user
  broadcastAll : ∀ msg, answer (.broadcastAll msg) = some ()
  send : ∀ fd buf, answer (.send fd buf) = some true

/-- The answers of a server with two sessions, `user` behind `fd` and `peer` behind `peerFd`. -/
def twoUsers (fd : Int) (user : Bytes) (peerFd : Int) (peer : Bytes) :
    (o : Op) → Option o.Resp
  | .sessionsFindBySockfd _ => some (some 0)
  | .touchActivity _ => some ()
  | .readSockfd => some fd
  | .readAddr => some ⟨127, 0, 0, 1⟩
  | .readUsername => some user
  | .usernameExists u => some (u == user || u == peer)
  | .addSession _ _ => some ()
  | .findUserFd u => some (if u = user then fd else if u = peer then peerFd else -1)
  | .broadcastAll _ => some ()
  | .broadcastExcept _ _ => some ()
  | .getAllUsers _ => some (user ++ [59] ++ peer)
  | .getUserInfo _ => some none
  | .setUserStatus _ _ => some ()
  | .send _ _ => some true
  | .undefinedBehaviour => none

theorem answers_twoUsers (fd : Int) (user : Bytes) (peerFd : Int) (peer : Bytes) :
    Answers (twoUsers fd user peerFd peer) fd user where
  find _ := rfl
  touch _ := rfl
  sockfd := rfl
  username := rfl
  broadcastAll _ := rfl
  send _ _ := rfl

/-- What the user's client sends for a typed line. -/
def wireOf (line : Bytes) : Option Bytes :=
  match commandToProto (parseCommand line) with
  | (.ok, wire) => some wire
  | _ => none

/-- The operations that the sender's thread performs for the first line of what its socket
    receives. -/
def serverCalls (answer : (o : Op) → Option o.Resp) (fd : Int) (wire : Bytes) :
    Option (List Op) :=
  match recvLine maxLineLen (bytesIn wire) with
  | .line buffer _ => ((clientLine fd (cstr buffer)).exec answer).map Prod.fst
  | _ => none

/-- The strings sent to a descriptor. -/
def sentTo (fd : Int) (calls : List Op) : List Bytes :=
  calls.filterMap fun
    | .send fd' buf => if fd' = fd then some buf else none
    | _ => none

/-- The strings handed to `broadcast_all`. -/
def broadcastsOf (calls : List Op) : List Bytes :=
  calls.filterMap fun
    | .broadcastAll msg => some msg
    | _ => none

/-! ## The thread of the sender -/

section Thread

variable {answer : (o : Op) → Option o.Resp} {fd : Int} {user : Bytes}

theorem Answers.exec_updateSessionActivity (h : Answers answer fd user) (sockfd : Int) :
    ∃ calls, (updateSessionActivity sockfd).exec answer = some (calls, ()) ∧
      (∀ fd, sentTo fd calls = []) ∧ broadcastsOf calls = [] := by
  obtain ⟨r, hr⟩ := Option.isSome_iff_exists.1 (h.find sockfd)
  cases r with
  | none =>
    refine ⟨[.sessionsFindBySockfd sockfd], ?_, fun _ => rfl, rfl⟩
    rw [updateSessionActivity_eq, Prog.exec_call _ hr]
    rfl
  | some i =>
    refine ⟨[.sessionsFindBySockfd sockfd, .touchActivity i], ?_, fun _ => rfl, rfl⟩
    rw [updateSessionActivity_eq, Prog.exec_call _ hr, Prog.exec_call _ (h.touch i)]
    rfl

/-- The thread hands a line that is neither of its own commands to the handler that the parser
    finds for it. -/
theorem Answers.exec_clientLine (h : Answers answer fd user) (sockfd : Int) (line : Bytes)
    (hlen : line.length < maxMsg) (hping : line ≠ ascii "PING\n") (hquit : line ≠ ascii "QUIT\n")
    (hcmd : lineCommand line ≠ .invalid) :
    ∃ pre, (∀ fd, sentTo fd pre = []) ∧ broadcastsOf pre = [] ∧
      (clientLine sockfd line).exec answer =
        if InBounds line then
          ((handlerOf (lineMessage line)).exec answer).map fun q => (pre ++ q.1, .continue_)
        else none := by
  obtain ⟨pre, hpre, hsent, hbroad⟩ := h.exec_updateSessionActivity sockfd
  refine ⟨pre, hsent, hbroad, ?_⟩
  rw [clientLine_eq sockfd hlen, Prog.exec_bind, hpre, Option.bind_some, lineBody, if_neg hping,
    if_neg hquit]
  by_cases hin : InBounds line
  · rw [if_neg (not_not.2 hin), if_neg hcmd, if_pos hin, Prog.exec_bind]
    cases (handlerOf (lineMessage line)).exec answer with
    | none => rfl
    | some q => simp
  · rw [if_pos hin, if_neg hin]
    cases hub : answer .undefinedBehaviour with
    | none => simp [Prog.exec, hub]
    | some r => exact r.elim

end Thread

end ChatMultithread
