import ChatMultithread.Lib.Prog
import ChatMultithread.Server.SessionManager

/-!
# Command handlers

`src/server/handlers.c`. A handler is a program over the operations at which another thread can
run: the critical sections of the session manager, the functions that `handlers.c` declares
`extern`, the unlocked reads of the thread's own session and `send`. Everything between two
operations is local to the thread.
-/

namespace ChatMultithread

open Lib

/-- An operation of a client thread on what it shares with other threads. -/
inductive Op where
  | sessionsFindBySockfd (sockfd : Int)
  /-- The second critical section of `update_session_activity`, on the slot found by the first. -/
  | touchActivity (slot : Slot)
  | readSockfd
  | readAddr
  | readUsername
  | usernameExists (user : Bytes)
  | addSession (user : Bytes) (fd : Int)
  | findUserFd (user : Bytes)
  | broadcastAll (msg : Bytes)
  | broadcastExcept (msg : Bytes) (excludeFd : Int)
  | getAllUsers (n : Nat)
  | getUserInfo (user : Bytes)
  | setUserStatus (user status : Bytes)
  /-- `send` or `send_line`, which writes the whole string or fails. -/
  | send (fd : Int) (buf : Bytes)
  /-- An access outside an array. -/
  | undefinedBehaviour
  deriving DecidableEq

/-- The answer to an operation. Undefined behaviour has none: the thread does not go on. -/
abbrev Op.Resp : Op → Type
  | .sessionsFindBySockfd _ => Option Slot
  | .touchActivity _ | .addSession _ _ | .broadcastAll _ | .broadcastExcept _ _
  | .setUserStatus _ _ => Unit
  | .readSockfd | .findUserFd _ => Int
  | .readAddr => InAddr
  | .readUsername | .getAllUsers _ => Bytes
  | .usernameExists _ => Bool
  | .getUserInfo _ => Option (Bytes × Bytes)
  | .send _ _ => Bool
  | .undefinedBehaviour => Empty

/-- Server code between operations. -/
abbrev ServerProg := Prog Op Op.Resp

/-- One operation. -/
def perform (o : Op) : ServerProg o.Resp := .op o

@[simp] theorem perform_bind {α : Type} (o : Op) (f : o.Resp → ServerProg α) :
    (perform o >>= f) = .call o f := rfl

/-- `send(fd, buf, strlen(buf), MSG_NOSIGNAL)` with its result ignored. -/
def sendIgnored (fd : Int) (buf : Bytes) : ServerProg Unit :=
  .call (.send fd buf) fun _ => .ret ()

@[simp] theorem sendIgnored_bind {α : Type} (fd : Int) (buf : Bytes) (f : Unit → ServerProg α) :
    (sendIgnored fd buf >>= f) = .call (.send fd buf) fun _ => f () := rfl

/-- `handle_register()`. -/
def handleRegister (msg : ParsedMessage) : ServerProg Unit := do
  let fd ← perform .readSockfd
  if !isValidUsername msg.arg1 then
    sendIgnored fd (buildError maxMsg cmdRegister errBadFormat (ascii "Nombre invalido"))
  else do
    let exists_ ← perform (.usernameExists msg.arg1)
    if exists_ then
      sendIgnored fd
        (buildError maxMsg cmdRegister errDuplicateName (ascii "El nombre ya esta en uso"))
    else do
      perform (.addSession msg.arg1 fd)
      let addr ← perform .readAddr
      sendIgnored fd (buildRegisterOk maxMsg msg.arg1 (sockaddrToIpString addr))

/-- `handle_msg()`. The sender's name is a pointer into the session, so it is read when the
    line is built. -/
def handleMsg (msg : ParsedMessage) : ServerProg Unit := do
  let fd ← perform .readSockfd
  let dstFd ← perform (.findUserFd msg.arg1)
  if dstFd < 0 then
    sendIgnored fd (buildError maxMsg cmdMsg errUserNotFound (ascii "Usuario no existe"))
  else do
    let sender ← perform .readUsername
    sendIgnored dstFd (buildDeliver maxMsg sender msg.arg2)
    sendIgnored fd (buildMsgOk maxMsg msg.arg1)

/-- `handle_broadcast()`. -/
def handleBroadcast (msg : ParsedMessage) : ServerProg Unit := do
  let fd ← perform .readSockfd
  let username ← perform .readUsername
  perform (.broadcastAll (buildBroadcastFrom maxMsg username msg.arg2))
  sendIgnored fd (buildBroadcastOk maxMsg)

/-- `handle_quit()`. -/
def handleQuit : ServerProg Unit := do
  let fd ← perform .readSockfd
  sendIgnored fd (snprintf 64 (lineOf srvBye []))

/-- `handle_list()`. -/
def handleList : ServerProg Unit := do
  let users ← perform (.getAllUsers maxMsg)
  let fd ← perform .readSockfd
  sendIgnored fd (buildListOk maxMsg users)

/-- `handle_info()`. -/
def handleInfo (msg : ParsedMessage) : ServerProg Unit := do
  let fd ← perform .readSockfd
  let exists_ ← perform (.usernameExists msg.arg1)
  if !exists_ then
    sendIgnored fd (buildError maxMsg cmdInfo errUserNotFound (ascii "Usuario no existe"))
  else do
    let info ← perform (.getUserInfo msg.arg1)
    match info with
    | none =>
        sendIgnored fd (buildError maxMsg cmdInfo errUnknownCmd (ascii "No se pudo obtener info"))
    | some (ip, status) => sendIgnored fd (buildInfoOk maxMsg msg.arg1 ip status)

/-- `handle_status()`. -/
def handleStatus (msg : ParsedMessage) : ServerProg Unit := do
  let fd ← perform .readSockfd
  if !isValidStatus msg.arg1 then
    sendIgnored fd (buildError maxMsg cmdStatus errInvalidStatus (ascii "Estado invalido"))
  else do
    let username ← perform .readUsername
    perform (.setUserStatus username msg.arg1)
    sendIgnored fd (buildStatusOk maxMsg msg.arg1)
    let username ← perform .readUsername
    perform (.broadcastExcept (buildStatusChanged maxMsg username msg.arg1) fd)

/-- `handle_parsed_message()`: 0 to go on, 1 to close the session. -/
def handleParsedMessage (msg : ParsedMessage) : ServerProg Int := do
  match msg.type with
  | .register => handleRegister msg; return 0
  | .list => handleList; return 0
  | .info => handleInfo msg; return 0
  | .status => handleStatus msg; return 0
  | .msg => handleMsg msg; return 0
  | .broadcast => handleBroadcast msg; return 0
  | .quit => handleQuit; return 1
  | .invalid => do
      let fd ← perform .readSockfd
      sendIgnored fd
        (buildError maxMsg (ascii "UNKNOWN") errUnknownCmd (ascii "Comando invalido"))
      return 0

/-! ## The handlers call by call -/

theorem sendIgnored_eq (fd : Int) (buf : Bytes) :
    sendIgnored fd buf = .call (.send fd buf) fun _ => .ret () := rfl

theorem handleRegister_eq (msg : ParsedMessage) : handleRegister msg =
    .call .readSockfd fun fd =>
      if !isValidUsername msg.arg1 then
        sendIgnored fd (buildError maxMsg cmdRegister errBadFormat (ascii "Nombre invalido"))
      else .call (.usernameExists msg.arg1) fun exists_ =>
        if exists_ then
          sendIgnored fd
            (buildError maxMsg cmdRegister errDuplicateName (ascii "El nombre ya esta en uso"))
        else .call (.addSession msg.arg1 fd) fun _ => .call .readAddr fun addr =>
          sendIgnored fd (buildRegisterOk maxMsg msg.arg1 (sockaddrToIpString addr)) := rfl

theorem handleMsg_eq (msg : ParsedMessage) : handleMsg msg =
    .call .readSockfd fun fd => .call (.findUserFd msg.arg1) fun dstFd =>
      if dstFd < 0 then
        sendIgnored fd (buildError maxMsg cmdMsg errUserNotFound (ascii "Usuario no existe"))
      else .call .readUsername fun sender =>
        .call (.send dstFd (buildDeliver maxMsg sender msg.arg2)) fun _ =>
          sendIgnored fd (buildMsgOk maxMsg msg.arg1) := rfl

theorem handleBroadcast_eq (msg : ParsedMessage) : handleBroadcast msg =
    .call .readSockfd fun fd => .call .readUsername fun username =>
      .call (.broadcastAll (buildBroadcastFrom maxMsg username msg.arg2)) fun _ =>
        sendIgnored fd (buildBroadcastOk maxMsg) := rfl

theorem handleQuit_eq : handleQuit =
    .call .readSockfd fun fd => sendIgnored fd (snprintf 64 (lineOf srvBye [])) := rfl

theorem handleList_eq : handleList =
    .call (.getAllUsers maxMsg) fun users => .call .readSockfd fun fd =>
      sendIgnored fd (buildListOk maxMsg users) := rfl

theorem handleInfo_eq (msg : ParsedMessage) : handleInfo msg =
    .call .readSockfd fun fd => .call (.usernameExists msg.arg1) fun exists_ =>
      if !exists_ then
        sendIgnored fd (buildError maxMsg cmdInfo errUserNotFound (ascii "Usuario no existe"))
      else .call (.getUserInfo msg.arg1) fun info =>
        match info with
        | none =>
            sendIgnored fd
              (buildError maxMsg cmdInfo errUnknownCmd (ascii "No se pudo obtener info"))
        | some (ip, status) => sendIgnored fd (buildInfoOk maxMsg msg.arg1 ip status) := rfl

theorem handleStatus_eq (msg : ParsedMessage) : handleStatus msg =
    .call .readSockfd fun fd =>
      if !isValidStatus msg.arg1 then
        sendIgnored fd
          (buildError maxMsg cmdStatus errInvalidStatus (ascii "Estado invalido"))
      else .call .readUsername fun username => .call (.setUserStatus username msg.arg1) fun _ =>
        .call (.send fd (buildStatusOk maxMsg msg.arg1)) fun _ => .call .readUsername fun username =>
          .call (.broadcastExcept (buildStatusChanged maxMsg username msg.arg1) fd) fun _ =>
            .ret () := rfl

/-- The handler that a command is dispatched to. -/
def handlerOf (msg : ParsedMessage) : ServerProg Unit :=
  match msg.type with
  | .register => handleRegister msg
  | .list => handleList
  | .info => handleInfo msg
  | .status => handleStatus msg
  | .msg => handleMsg msg
  | .broadcast => handleBroadcast msg
  | .quit => handleQuit
  | .invalid =>
      .call .readSockfd fun fd =>
        sendIgnored fd
          (buildError maxMsg (ascii "UNKNOWN") errUnknownCmd (ascii "Comando invalido"))

/-- Every command is handled, and only `QUIT` asks for the session to be closed. -/
theorem handleParsedMessage_eq (msg : ParsedMessage) : handleParsedMessage msg =
    handlerOf msg >>= fun _ => .ret (if msg.type = .quit then 1 else 0) := by
  unfold handleParsedMessage handlerOf
  cases msg.type <;> rfl

end ChatMultithread
