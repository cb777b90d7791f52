import ChatMultithread.Common.Protocol
import Mathlib.Logic.Function.Basic

/-!
# The server's parser and its message builders

`src/common/protocol.c`. `parse_message` scans a line byte by byte into a local
`fields[3][MAX_MSG]`; an access outside that array has no defined behaviour, so the scan is an
`Option` and has no result there. The builders are single `snprintf` calls.
-/

namespace ChatMultithread

open Lib

/-- `command_type_t`. -/
inductive CommandType where
  | register | list | info | status | msg | broadcast | quit | invalid
  deriving DecidableEq, Repr

/-- `parsed_message_t`. -/
structure ParsedMessage where
  type : CommandType
  arg1 : Bytes
  arg2 : Bytes
  raw : Bytes
  deriving DecidableEq, Repr

/-- The local array of `parse_message` and its two indices. A row is the string it holds: it is
    zero-filled at first, so the bytes written to it are followed by a NUL. -/
structure Scan where
  fields : Fin 3 → Bytes
  f : Nat
  c : Nat

/-- `fields[f][c] = '\0'`. -/
def Scan.terminate (s : Scan) : Option Scan :=
  if h : s.f < 3 ∧ s.c < maxMsg then
    some { s with fields := Function.update s.fields ⟨s.f, h.1⟩ ((s.fields ⟨s.f, h.1⟩).take s.c) }
  else none

/-- `fields[f][c++] = b`, for `b` not NUL. -/
def Scan.put (s : Scan) (b : UInt8) : Option Scan :=
  if h : s.f < 3 ∧ s.c < maxMsg then
    some { s with
      fields := Function.update s.fields ⟨s.f, h.1⟩ ((s.fields ⟨s.f, h.1⟩).take s.c ++ [b])
      c := s.c + 1 }
  else none

/-- What an escape stands for: `\n` is a newline, and every other byte is itself. -/
def unescape (b : UInt8) : UInt8 := if b = 110 then msgTerminatorChar else b

/-- The loop of `parse_message`, on the part of the line from index `i` on. -/
def scanLine : Bytes → Scan → Option Scan
  | [], s => some s
  | b :: rest, s =>
      if b = msgTerminatorChar then some s
      else if b = escapeChar then
        match rest with
        | [] => some s
        | e :: rest => (s.put (unescape e)).bind (scanLine rest)
      else if b = fieldSepChar then
        s.terminate.bind fun s =>
          if s.f + 1 ≥ 3 then some { s with f := s.f + 1, c := 0 }
          else scanLine rest { s with f := s.f + 1, c := 0 }
      else if s.c < maxMsg - 1 then (s.put b).bind (scanLine rest)
      else scanLine rest s

/-- The chain of `strcmp`s that assigns `out->type`. -/
def commandType (word : Bytes) : CommandType :=
  if word = ascii "REGISTER" then .register
  else if word = ascii "LIST" then .list
  else if word = ascii "INFO" then .info
  else if word = ascii "STATUS" then .status
  else if word = ascii "MSG" then .msg
  else if word = ascii "BROADCAST" then .broadcast
  else if word = ascii "QUIT" then .quit
  else .invalid

/-- `parse_message()`: the returned code and the message written to `*out`, or no result when
    the scan leaves its array. -/
def parseMessage (line : Bytes) : Option (Int × ParsedMessage) := do
  let s ← scanLine line { fields := fun _ => [], f := 0, c := 0 }
  let s ← s.terminate
  let type := commandType (s.fields 0)
  return (if type = .invalid then -1 else 0,
    { type := type
      arg1 := strncpy (maxMsg - 1) (s.fields 1)
      arg2 := strncpy (maxMsg - 1) (s.fields 2)
      raw := strncpy (maxMsg - 1) line })

/-- `protocol_parse()`. -/
def protocolParse (line : Bytes) : Option (Int × ParsedMessage) := parseMessage line

/-! ## Builders -/

/-- The text of a builder's format: its word, then each argument behind a separator, and the
    newline. -/
def lineOf (word : Bytes) (args : List Bytes) : Bytes :=
  word ++ args.flatMap (fieldSepChar :: ·) ++ [msgTerminatorChar]

def buildRegisterOk (n : Nat) (user ip : Bytes) : Bytes :=
  snprintf n (lineOf (ascii "REGISTER_OK") [user, ip, ascii "ACTIVO"])

def buildError (n : Nat) (op code desc : Bytes) : Bytes :=
  snprintf n (lineOf (ascii "ERROR") [op, code, desc])

def buildListOk (n : Nat) (users : Bytes) : Bytes :=
  snprintf n (lineOf (ascii "LIST_OK") [users])

def buildInfoOk (n : Nat) (user ip status : Bytes) : Bytes :=
  snprintf n (lineOf (ascii "INFO_OK") [user, ip, status])

def buildStatusOk (n : Nat) (status : Bytes) : Bytes :=
  snprintf n (lineOf (ascii "STATUS_OK") [status])

def buildStatusChanged (n : Nat) (user status : Bytes) : Bytes :=
  snprintf n (lineOf (ascii "STATUS_CHANGED") [user, status])

def buildMsgOk (n : Nat) (dst : Bytes) : Bytes :=
  snprintf n (lineOf (ascii "MSG_OK") [dst])

def buildDeliver (n : Nat) (src msg : Bytes) : Bytes :=
  snprintf n (lineOf (ascii "DELIVER") [src, msg])

def buildBroadcastOk (n : Nat) : Bytes :=
  snprintf n (lineOf (ascii "BROADCAST_OK") [])

def buildBroadcastFrom (n : Nat) (src msg : Bytes) : Bytes :=
  snprintf n (lineOf (ascii "BROADCAST_FROM") [src, msg])

end ChatMultithread
