import ChatMultithread.Lib.CString

/-!
# The protocol shared by client and server

`include/common.h` and `include/protocol.h`: the limits, the words of the protocol and the two
inline helpers that build and take apart a line.
-/

namespace ChatMultithread

open Lib

/-! ## Limits -/

abbrev maxClients : Nat := 64
@[simp] def maxUsernameLen : Nat := 32
@[simp] def maxLineLen : Nat := 1024
/-- `MAX_MSG`, the server's alias of `MAX_LINE_LEN`. -/
@[simp] def maxMsg : Nat := maxLineLen
/-- `MAX_USER`, an alias of `MAX_USERNAME_LEN`. -/
@[simp] def maxUser : Nat := maxUsernameLen
/-- `MAX_MSG_LEN`, the client's alias of `MAX_LINE_LEN`. -/
@[simp] def maxMsgLen : Nat := maxLineLen
@[simp] def maxChatLen : Nat := 900

/-! ## Format -/

/-- `FIELD_SEP_CHAR`, `'|'`. -/
abbrev fieldSepChar : UInt8 := 124
/-- `MSG_TERMINATOR_CHAR`, `'\n'`. -/
abbrev msgTerminatorChar : UInt8 := 10
/-- `'\\'`, which escapes the byte behind it in a line for the server. -/
abbrev escapeChar : UInt8 := 92

def protoVersion : Bytes := ascii "CHAT/1.0"

/-! ## Commands, client to server -/

def cmdRegister : Bytes := ascii "REGISTER"
def cmdList : Bytes := ascii "LIST"
def cmdInfo : Bytes := ascii "INFO"
def cmdStatus : Bytes := ascii "STATUS"
def cmdMsg : Bytes := ascii "MSG"
def cmdBroadcast : Bytes := ascii "BROADCAST"
def cmdQuit : Bytes := ascii "QUIT"

/-! ## Answers, server to client -/

def srvWelcome : Bytes := ascii "WELCOME"
def srvRegisterOk : Bytes := ascii "REGISTER_OK"
def srvListOk : Bytes := ascii "LIST_OK"
def srvInfoOk : Bytes := ascii "INFO_OK"
def srvStatusOk : Bytes := ascii "STATUS_OK"
def srvMsgOk : Bytes := ascii "MSG_OK"
def srvDeliver : Bytes := ascii "DELIVER"
def srvBroadcastOk : Bytes := ascii "BROADCAST_OK"
def srvBroadcastFrom : Bytes := ascii "BROADCAST_FROM"
def srvStatusChanged : Bytes := ascii "STATUS_CHANGED"
def srvError : Bytes := ascii "ERROR"
def srvBye : Bytes := ascii "BYE"

/-! ## Status values and error codes -/

def statusActive : Bytes := ascii "ACTIVO"
def statusBusy : Bytes := ascii "OCUPADO"
def statusInactive : Bytes := ascii "INACTIVO"

def errDuplicateName : Bytes := ascii "DUPLICATE_NAME"
def errUserNotFound : Bytes := ascii "USER_NOT_FOUND"
def errInvalidStatus : Bytes := ascii "INVALID_STATUS"
def errUnknownCmd : Bytes := ascii "UNKNOWN_CMD"
def errBadFormat : Bytes := ascii "BAD_FORMAT"

/-! ## Helpers -/

/-- One guarded `n += snprintf(buf + n, buf_size - n, ...)` of `proto_build`: nothing is written
    once `n` has reached the size, and `n` counts what would have been written. -/
def protoAppend (bufSize : Nat) (st : Bytes × Nat) (s : Bytes) : Bytes × Nat :=
  if st.2 < bufSize then
    (st.1.take st.2 ++ snprintf (bufSize - st.2) s, st.2 + s.length)
  else st

/-- The two calls for an optional field, skipped for `NULL`. -/
def protoField (bufSize : Nat) (st : Bytes × Nat) : Option Bytes → Bytes × Nat
  | none => st
  | some f => protoAppend bufSize st (fieldSepChar :: f)

/-- `proto_build()`: `TIPO|f1|f2|f3\n` in a buffer of `buf_size` bytes. Returns the string left
    in the buffer and the accumulated length `n`. -/
def protoBuild (bufSize : Nat) (type : Bytes) (f1 f2 f3 : Option Bytes) : Bytes × Nat :=
  let st := (snprintf bufSize type, type.length)
  let st := protoField bufSize st f1
  let st := protoField bufSize st f2
  let st := protoField bufSize st f3
  protoAppend bufSize st [msgTerminatorChar]

/-- `proto_parse_type()`: the type of a received line, and the string behind the first
    separator if there is one. -/
def protoParseType (line : Bytes) : Bytes × Option Bytes :=
  let line := if line.getLast? = some msgTerminatorChar then line.dropLast else line
  match strchr fieldSepChar line with
  | none => (strncpy (maxMsgLen - 1) line, none)
  | some (type, rest) => (type, some rest)

def protoRegister (user : Bytes) : Bytes := (protoBuild maxMsgLen cmdRegister user none none).1
def protoList : Bytes := (protoBuild maxMsgLen cmdList none none none).1
def protoInfo (user : Bytes) : Bytes := (protoBuild maxMsgLen cmdInfo user none none).1
def protoStatus (status : Bytes) : Bytes := (protoBuild maxMsgLen cmdStatus status none none).1
def protoMsg (dest msg : Bytes) : Bytes := (protoBuild maxMsgLen cmdMsg dest msg none).1
def protoBroadcast (msg : Bytes) : Bytes := (protoBuild maxMsgLen cmdBroadcast msg none none).1
def protoQuit : Bytes := (protoBuild maxMsgLen cmdQuit none none none).1

/-- What `proto_build` has written of a line that fits its buffer. -/
theorem protoAppend_of_lt {n : Nat} {s t : Bytes} (h : s.length + t.length < n) :
    protoAppend n (s, s.length) t = (s ++ t, (s ++ t).length) := by
  have hs : s.length < n := by omega
  have ht : t.length < n - s.length := by omega
  simp [protoAppend, hs, snprintf_of_lt ht]

/-- `proto_build` of one field. -/
theorem protoBuild_one {n : Nat} {type f : Bytes} (h : type.length + f.length + 2 < n) :
    (protoBuild n type f none none).1 = type ++ fieldSepChar :: f ++ [msgTerminatorChar] := by
  have h0 : type.length < n := by omega
  have h1 := protoAppend_of_lt (n := n) (s := type) (t := fieldSepChar :: f) (by simp; omega)
  have h2 := protoAppend_of_lt (n := n) (s := type ++ fieldSepChar :: f)
    (t := [msgTerminatorChar]) (by simp; omega)
  simp only [protoBuild, protoField, snprintf_of_lt h0, h1, h2]

/-- `proto_build` of two fields. -/
theorem protoBuild_two {n : Nat} {type f g : Bytes}
    (h : type.length + f.length + g.length + 3 < n) :
    (protoBuild n type f g none).1 =
      type ++ fieldSepChar :: f ++ fieldSepChar :: g ++ [msgTerminatorChar] := by
  have h0 : type.length < n := by omega
  have h1 := protoAppend_of_lt (n := n) (s := type) (t := fieldSepChar :: f) (by simp; omega)
  have h2 := protoAppend_of_lt (n := n) (s := type ++ fieldSepChar :: f)
    (t := fieldSepChar :: g) (by simp; omega)
  have h3 := protoAppend_of_lt (n := n) (s := type ++ fieldSepChar :: f ++ fieldSepChar :: g)
    (t := [msgTerminatorChar]) (by simp; omega)
  simp only [protoBuild, protoField, snprintf_of_lt h0, h1, h2, h3]

/-! ## Taking a line apart -/

/-- A line with a word in front is split behind the word. -/
theorem protoParseType_cons {word : Bytes} (hword : fieldSepChar ∉ word) (rest : Bytes) :
    protoParseType (word ++ fieldSepChar :: (rest ++ [msgTerminatorChar])) =
      (word, some rest) := by
  have hline : word ++ fieldSepChar :: (rest ++ [msgTerminatorChar]) =
      (word ++ fieldSepChar :: rest) ++ [msgTerminatorChar] := by simp
  rw [protoParseType, hline, List.getLast?_concat, if_pos rfl, List.dropLast_concat,
    strchr_append hword]

/-- A line of a word only. -/
theorem protoParseType_word {word : Bytes} (hword : fieldSepChar ∉ word)
    (hlen : word.length ≤ maxMsgLen - 1) :
    protoParseType (word ++ [msgTerminatorChar]) = (word, none) := by
  rw [protoParseType, List.getLast?_concat, if_pos rfl, List.dropLast_concat,
    strchr_eq_none.2 hword, strncpy_of_le hlen]

/-- What stands behind the word, wherever a line is cut. -/
theorem protoParseType_prefix {word : Bytes} (hword : fieldSepChar ∉ word) (rest : Bytes) :
    ∃ rest', protoParseType (word ++ fieldSepChar :: rest) = (word, some rest') ∧
      (rest' = rest ∨ rest = rest' ++ [msgTerminatorChar]) := by
  have hkeep : (word ++ fieldSepChar :: rest).getLast? ≠ some msgTerminatorChar →
      protoParseType (word ++ fieldSepChar :: rest) = (word, some rest) := by
    intro hlast
    rw [protoParseType, if_neg hlast, strchr_append hword]
  rcases List.eq_nil_or_concat rest with rfl | ⟨rest', b, rfl⟩
  · exact ⟨[], hkeep (by rw [List.getLast?_concat]; decide), .inl rfl⟩
  · rw [List.concat_eq_append] at hkeep ⊢
    by_cases hb : b = msgTerminatorChar
    · subst hb
      exact ⟨rest', protoParseType_cons hword rest', .inr rfl⟩
    · refine ⟨rest' ++ [b], hkeep ?_, .inl rfl⟩
      rw [← List.cons_append, ← List.append_assoc, List.getLast?_concat]
      exact fun h => hb (Option.some.inj h)

end ChatMultithread
