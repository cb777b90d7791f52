import ChatMultithread.Client.Decoding
import ChatMultithread.Lib.Room
import ChatMultithread.Server.Proofs.Listing
import ChatMultithread.Server.System

/-!
# What the chat is for

The chat as its users see it: a room whose occupants may have names, and who are told things.
There are no descriptors, no threads and no buffers here, and nothing of the order in which the
server does what belongs to one request. `step` says what each thing that happens to the room
changes, and who hears what of it.
-/

namespace ChatMultithread

open Lib

/-- The names a user can have. -/
abbrev Username := { u : Bytes // isValidUsername u = true }

/-- What the room knows of an occupant beside the name. -/
structure UserInfo where
  addr : InAddr
  status : UserStatus
  lastActivity : Int
  deriving DecidableEq, Repr

/-- What a client can be told. -/
inductive Message where
  | welcome
  | pong
  | bye
  | broadcastOk
  | fields (m : ServerMessage)
  deriving DecidableEq, Repr

/-- The line in which the client is told. -/
def Message.encode : Message → Bytes
  | welcome => ascii "WELCOME|CHAT/1.0\n"
  | pong => ascii "PONG\n"
  | bye => ascii "BYE\n"
  | broadcastOk => buildBroadcastOk maxMsg
  | fields m => m.encode

/-- What a client can ask for. -/
inductive Request where
  | ping
  | quit
  | register (user : Bytes)
  | list
  | info (user : Bytes)
  | status (word : Bytes)
  | msg (dst text : Bytes)
  | broadcast (text : Bytes)
  /-- `QUIT` in a spelling that the thread itself does not know. -/
  | sayBye
  | unknown
  deriving DecidableEq, Repr

/-- The request in a line. -/
def requestOf (line : Bytes) : Request :=
  if line = ascii "PING\n" then .ping
  else if line = ascii "QUIT\n" then .quit
  else match lineCommand line with
    | .register => .register (field line 1)
    | .list => .list
    | .info => .info (field line 1)
    | .status => .status (field line 1)
    | .msg => .msg (field line 1) (field line 2)
    | .broadcast => .broadcast (field line 2)
    | .quit => .sayBye
    | .invalid => .unknown

abbrev ChatRoom := Room maxClients Conn Username UserInfo Message

abbrev User := Occupant Conn Username UserInfo

namespace ChatRoom

/-- The name in the messages of a user; who has none signs with an empty one. -/
def signature (o : User) : Bytes := (o.name.map Subtype.val).getD []

/-- The user with the name. -/
def find (r : ChatRoom) (user : Bytes) : Option User :=
  if huser : isValidUsername user = true then (r.holder ⟨user, huser⟩).bind r.seats else none

/-- A sign of life. -/
def alive (now : Int) (info : UserInfo) : UserInfo :=
  { info with
    lastActivity := now
    status := if info.status = .inactivo then .activo else info.status }

def refuse (op code : Bytes) (desc : String) : Message := .fields (.error op code (ascii desc))

/-- A request of the user `o` in seat `i`. -/
def serve (r : ChatRoom) (i : Slot) (o : User) : Request → ChatRoom
  | .ping => r.tell o.client .pong
  | .quit => (r.tell o.client .bye).vacate i
  | .sayBye => r.tell o.client .bye
  | .unknown => r.tell o.client
      (refuse (ascii "PROTO") (ascii "NOT_IMPLEMENTED") "Parser pending")
  | .register user =>
      if huser : isValidUsername user = true then
        if hfree : r.holder ⟨user, huser⟩ = none then
          (r.christen i ⟨user, huser⟩ hfree).tell o.client
            (.fields (.registerOk user (sockaddrToIpString o.info.addr)))
        else r.tell o.client (refuse cmdRegister errDuplicateName "El nombre ya esta en uso")
      else r.tell o.client (refuse cmdRegister errBadFormat "Nombre invalido")
  | .list => r.tell o.client
      (.fields (.listOk (snprintf maxMsg (joined (r.names.map Subtype.val)))))
  | .info user =>
      match find r user with
      | none => r.tell o.client (refuse cmdInfo errUserNotFound "Usuario no existe")
      | some p => r.tell o.client (.fields
          (.infoOk user (sockaddrToIpString p.info.addr) (statusToString p.info.status)))
  | .status word =>
      match statusOfString word with
      | none => r.tell o.client (refuse cmdStatus errInvalidStatus "Estado invalido")
      | some v =>
          -- who has no name gives the word, but has no status
          (((if o.name.isSome then r.amendAt i fun info => { info with status := v } else r).tell
            o.client (.fields (.statusOk word)))).tellAll fun j p =>
              if j ≠ i ∧ p.name.isSome then
                some (.fields (.statusChanged (signature o) word))
              else none
  | .msg dst text =>
      match find r dst with
      | none => r.tell o.client (refuse cmdMsg errUserNotFound "Usuario no existe")
      | some p =>
          (r.tell p.client (.fields (.deliver (signature o) text))).tell o.client
            (.fields (.msgOk dst))
  | .broadcast text =>
      (r.tellAll fun _ p =>
        if p.name.isSome then some (.fields (.broadcastFrom (signature o) text)) else none).tell
          o.client .broadcastOk

/-- The user has been silent for too long. -/
def Idle (now timeout : Int) (info : UserInfo) : Prop :=
  info.status ≠ .inactivo ∧ ¬ now - info.lastActivity < timeout

instance (now timeout : Int) (info : UserInfo) : Decidable (Idle now timeout info) :=
  inferInstanceAs (Decidable (_ ∧ _))

/-- What happens to a room. -/
inductive Happening where
  | arrives (c : Conn) (addr : InAddr) (now : Int)
  | sends (c : Conn) (line : Bytes) (now : Int)
  | leaves (c : Conn)
  | ticks (now : Int)
  deriving DecidableEq, Repr

/-- The room afterwards. Those who have no seat cannot ask for anything. -/
def step (timeout : Int) (r : ChatRoom) : Happening → ChatRoom
  | .arrives c addr now =>
      if hc : r.Absent c then
        match r.free with
        | none => r
        | some i => (r.enter i c ⟨addr, .activo, now⟩ hc).tell c .welcome
      else r
  | .sends c line now =>
      match r.seatOf c with
      | none => r
      | some i =>
          let r' := r.amendAt i (alive now)
          match r'.seats i with
          | none => r
          | some o => serve r' i o (requestOf line)
  | .leaves c =>
      match r.seatOf c with
      | none => r
      | some i => r.vacate i
  | .ticks now =>
      (r.tellAll fun _ o =>
        if Idle now timeout o.info then
          some (.fields (.statusChanged
            (if o.name.isSome then signature o else ascii "UNREGISTERED") statusInactive))
        else none).amend fun _ info =>
          if Idle now timeout info then { info with status := .inactivo } else info

/-- Two users; the second is told what the first says. -/
example : (step 60 (step 60 (step 60 (step 60 (step 60 Room.empty
    (.arrives 0 ⟨10, 0, 0, 7⟩ 0)) (.sends 0 (ascii "REGISTER|ana\n") 1))
    (.arrives 1 ⟨10, 0, 0, 8⟩ 2)) (.sends 1 (ascii "REGISTER|luis\n") 3))
    (.sends 0 (ascii "MSG|luis|hola\n") 4)).heard 1 =
    [.welcome, .fields (.registerOk (ascii "luis") (ascii "10.0.0.8")),
      .fields (.deliver (ascii "ana") (ascii "hola"))] := by decide +kernel

end ChatRoom

end ChatMultithread
