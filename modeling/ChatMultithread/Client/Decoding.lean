import ChatMultithread.Client.Register
import ChatMultithread.Common.Builders

/-!
# The client decodes what the server encodes

Nine of the server's messages carry fields. The builders of `src/common/protocol.c` write them, and
`dispatch_message` and `client_register` read them back, each with its own mixture of `strtok`,
`strchr` and clamped copies into buffers of different sizes.
-/

namespace ChatMultithread

open Lib

/-- A field that fits a buffer with room for `n` bytes and is taken apart as one. -/
structure FieldWithin (n : Nat) (f : Bytes) : Prop where
  ne_nil : f ≠ []
  length_le : f.length ≤ n
  nul : (0 : UInt8) ∉ f
  newline : msgTerminatorChar ∉ f
  separator : fieldSepChar ∉ f

/-- A chat text that fits the client's buffer. It may be empty and may contain separators. -/
structure ChatText (t : Bytes) : Prop where
  length_le : t.length ≤ maxChatLen - 1
  nul : (0 : UInt8) ∉ t
  newline : msgTerminatorChar ∉ t

instance (n : Nat) (f : Bytes) : Decidable (FieldWithin n f) :=
  decidable_of_iff (f ≠ [] ∧ f.length ≤ n ∧ (0 : UInt8) ∉ f ∧ msgTerminatorChar ∉ f ∧
    fieldSepChar ∉ f) ⟨fun h => ⟨h.1, h.2.1, h.2.2.1, h.2.2.2.1, h.2.2.2.2⟩,
    fun h => ⟨h.1, h.2, h.3, h.4, h.5⟩⟩

instance (t : Bytes) : Decidable (ChatText t) :=
  decidable_of_iff (t.length ≤ maxChatLen - 1 ∧ (0 : UInt8) ∉ t ∧ msgTerminatorChar ∉ t)
    ⟨fun h => ⟨h.1, h.2.1, h.2.2⟩, fun h => ⟨h.1, h.2, h.3⟩⟩

/-- The messages of the server that carry fields. -/
inductive ServerMessage where
  | registerOk (user ip : Bytes)
  | error (op code desc : Bytes)
  | listOk (users : Bytes)
  | infoOk (user ip status : Bytes)
  | statusOk (status : Bytes)
  | statusChanged (user status : Bytes)
  | msgOk (dst : Bytes)
  | deliver (src msg : Bytes)
  | broadcastFrom (src msg : Bytes)
  deriving DecidableEq, Repr

namespace ServerMessage

/-- The line that the builder of the message writes. -/
def encode : ServerMessage → Bytes
  | registerOk user ip => buildRegisterOk maxMsg user ip
  | error op code desc => buildError maxMsg op code desc
  | listOk users => buildListOk maxMsg users
  | infoOk user ip status => buildInfoOk maxMsg user ip status
  | statusOk status => buildStatusOk maxMsg status
  | statusChanged user status => buildStatusChanged maxMsg user status
  | msgOk dst => buildMsgOk maxMsg dst
  | deliver src msg => buildDeliver maxMsg src msg
  | broadcastFrom src msg => buildBroadcastFrom maxMsg src msg

/-- The type of the message. -/
def type : ServerMessage → Bytes
  | registerOk _ _ => srvRegisterOk
  | error _ _ _ => srvError
  | listOk _ => srvListOk
  | infoOk _ _ _ => srvInfoOk
  | statusOk _ => srvStatusOk
  | statusChanged _ _ => srvStatusChanged
  | msgOk _ => srvMsgOk
  | deliver _ _ => srvDeliver
  | broadcastFrom _ _ => srvBroadcastFrom

/-- The fields of the line. -/
def args : ServerMessage → List Bytes
  | registerOk user ip => [user, ip, statusActive]
  | error op code desc => [op, code, desc]
  | listOk users => [users]
  | infoOk user ip status => [user, ip, status]
  | statusOk status => [status]
  | statusChanged user status => [user, status]
  | msgOk dst => [dst]
  | deliver src msg | broadcastFrom src msg => [src, msg]

/-- The fields fit the buffers of the client. -/
def Fits : ServerMessage → Prop
  | registerOk user ip => FieldWithin 31 user ∧ FieldWithin 63 ip
  | error op code desc => FieldWithin 63 op ∧ FieldWithin 63 code ∧ FieldWithin 255 desc
  | listOk users => FieldWithin 1014 users
  | infoOk user ip status => FieldWithin 31 user ∧ FieldWithin 63 ip ∧ FieldWithin 15 status
  | statusOk status => FieldWithin 15 status
  | statusChanged user status => FieldWithin 31 user ∧ FieldWithin 15 status
  | msgOk dst => FieldWithin 31 dst
  | deliver src msg | broadcastFrom src msg => FieldWithin 31 src ∧ ChatText msg

instance : (m : ServerMessage) → Decidable m.Fits
  | registerOk _ _ | error _ _ _ | listOk _ | infoOk _ _ _ | statusOk _ | statusChanged _ _
  | msgOk _ | deliver _ _ | broadcastFrom _ _ => by unfold Fits; infer_instance

/-- What the receiver thread is to show of the message; a registration is answered before it
    runs. -/
def shown : ServerMessage → Option UiEvent
  | registerOk _ _ => none
  | error op code desc => some (.error op code desc)
  | listOk users => some (.list users)
  | infoOk user ip status => some (.info user ip status)
  | statusOk status => some (.statusOk status)
  | statusChanged user status => some (.statusChanged user status)
  | msgOk dst => some (.msgOk dst)
  | deliver src msg => some (.privateIn src msg)
  | broadcastFrom src msg => some (.broadcastIn src msg)

/-- What `client_register` is to make of the message in the state that `main` hands it, if the
    message is an answer to a registration. -/
def registered : ServerMessage → Option (Except RegisterError ClientState)
  | registerOk user ip => some (.ok ⟨user, ip, statusActive⟩)
  | error _ code desc => some (.error (.rejected code desc))
  | _ => none

end ServerMessage

/-! ## One field -/

variable {n : Nat} {f : Bytes}

theorem FieldWithin.copyField (h : FieldWithin n f) {len : Nat} (hlen : n ≤ len - 1) :
    copyField len f = f :=
  copyField_of_lt (Nat.le_trans h.length_le hlen) h.newline

theorem FieldWithin.takeField_append (h : FieldWithin n f) {len : Nat} (hlen : n ≤ len - 1)
    (rest : Bytes) : takeField len (some (f ++ fieldSepChar :: rest)) = (f, some rest) := by
  rw [takeField, Option.bind_some, strtok_append h.ne_nil h.separator]
  simp only [h.copyField hlen]

theorem FieldWithin.takeField_last (h : FieldWithin n f) {len : Nat} (hlen : n ≤ len - 1) :
    takeField len (some f) = (f, some []) := by
  rw [takeField, Option.bind_some, strtok_last h.ne_nil h.separator]
  simp only [h.copyField hlen]

theorem FieldWithin.nextToken_append (h : FieldWithin n f) (rest : Bytes) :
    nextToken (some (f ++ fieldSepChar :: rest)) = (some f, some rest) := by
  rw [nextToken, Option.bind_some, strtok_append h.ne_nil h.separator]

theorem FieldWithin.nextToken_last (h : FieldWithin n f) :
    nextToken (some f) = (some f, some []) := by
  rw [nextToken, Option.bind_some, strtok_last h.ne_nil h.separator]

theorem FieldWithin.strncpy_of_le (h : FieldWithin n f) {k : Nat} (hk : n ≤ k) :
    strncpy k f = f :=
  Lib.strncpy_of_le (Nat.le_trans h.length_le hk)

theorem FieldWithin.strcspnCut_eq (h : FieldWithin n f) : strcspnCut msgTerminatorChar f = f :=
  strcspnCut_of_not_mem h.newline

/-- A sender and a text are taken apart at the first separator. -/
theorem FieldWithin.parseMsgFields {src msg : Bytes} (h : FieldWithin 31 src) (hmsg : ChatText msg) :
    parseMsgFields (some (src ++ fieldSepChar :: msg)) maxUsernameLen maxChatLen = (src, msg) :=
  parseMsgFields_cons h.separator (Nat.lt_succ_of_le h.length_le) h.newline hmsg.length_le
    hmsg.newline

/-! ## One line -/

theorem length_lineOf (word : Bytes) (args : List Bytes) :
    (lineOf word args).length = word.length + (args.map fun a => a.length + 1).sum + 1 := by
  simp [lineOf, List.length_flatMap, Nat.add_assoc]

/-- A line that fits its buffer is split behind its word. -/
theorem protoParseType_built {word : Bytes} (hword : fieldSepChar ∉ word) {a : Bytes}
    {args : List Bytes} (hlen : (lineOf word (a :: args)).length < maxMsg) :
    protoParseType (snprintf maxMsg (lineOf word (a :: args))) =
      (word, some (a ++ args.flatMap (fieldSepChar :: ·))) := by
  rw [snprintf_of_lt hlen]
  have hline : lineOf word (a :: args) =
      word ++ fieldSepChar :: ((a ++ args.flatMap (fieldSepChar :: ·)) ++ [msgTerminatorChar]) := by
    simp [lineOf]
  rw [hline, protoParseType_cons hword]

/-- Both decoders copy the line whole before they take it apart. -/
theorem strncpy_snprintf (s : Bytes) :
    strncpy (maxMsgLen - 1) (snprintf maxMsg s) = snprintf maxMsg s :=
  strncpy_of_le (length_snprintf_le _ _)

namespace ServerMessage

variable {m : ServerMessage}

theorem encode_eq (m : ServerMessage) : m.encode = snprintf maxMsg (lineOf m.type m.args) := by
  cases m <;> rfl

theorem separator_type (m : ServerMessage) : fieldSepChar ∉ m.type := by
  unfold type
  split <;> decide

/-- A line of fields that fit the client's buffers is not cut. -/
theorem Fits.length_lt (h : m.Fits) : (lineOf m.type m.args).length < maxMsg := by
  have hwords : srvRegisterOk.length = 11 ∧ srvError.length = 5 ∧ srvListOk.length = 7 ∧
      srvInfoOk.length = 7 ∧ srvStatusOk.length = 9 ∧ srvStatusChanged.length = 14 ∧
      srvMsgOk.length = 6 ∧ srvDeliver.length = 7 ∧ srvBroadcastFrom.length = 14 ∧
      statusActive.length = 6 := by decide
  rw [length_lineOf]
  cases m with
  | registerOk user ip =>
    have h1 := h.1.length_le
    have h2 := h.2.length_le
    simp only [type, args, List.map_cons, List.map_nil, List.sum_cons, List.sum_nil, maxMsg,
      maxLineLen]
    omega
  | error op code desc =>
    have h1 := h.1.length_le
    have h2 := h.2.1.length_le
    have h3 := h.2.2.length_le
    simp only [type, args, List.map_cons, List.map_nil, List.sum_cons, List.sum_nil, maxMsg,
      maxLineLen]
    omega
  | infoOk user ip status =>
    have h1 := h.1.length_le
    have h2 := h.2.1.length_le
    have h3 := h.2.2.length_le
    simp only [type, args, List.map_cons, List.map_nil, List.sum_cons, List.sum_nil, maxMsg,
      maxLineLen]
    omega
  | listOk f | statusOk f | msgOk f =>
    have h1 := FieldWithin.length_le h
    simp only [type, args, List.map_cons, List.map_nil, List.sum_cons, List.sum_nil, maxMsg,
      maxLineLen]
    omega
  | statusChanged user status =>
    have h1 := h.1.length_le
    have h2 := h.2.length_le
    simp only [type, args, List.map_cons, List.map_nil, List.sum_cons, List.sum_nil, maxMsg,
      maxLineLen]
    omega
  | deliver src msg | broadcastFrom src msg =>
    have h1 := h.1.length_le
    have h2 := h.2.length_le
    simp only [maxChatLen] at h2
    simp only [type, args, List.map_cons, List.map_nil, List.sum_cons, List.sum_nil, maxMsg,
      maxLineLen]
    omega

/-- What both decoders find behind the type: the fields between separators. -/
theorem Fits.parseType (h : m.Fits) :
    ∃ a args, m.args = a :: args ∧
      protoParseType (strncpy (maxMsgLen - 1) m.encode) =
        (m.type, some (a ++ args.flatMap (fieldSepChar :: ·))) := by
  have hargs : ∃ a args, m.args = a :: args := by
    cases m <;> exact ⟨_, _, rfl⟩
  obtain ⟨a, args, hargs⟩ := hargs
  have hlen := h.length_lt
  rw [hargs] at hlen
  refine ⟨a, args, hargs, ?_⟩
  rw [encode_eq, strncpy_snprintf, hargs]
  exact protoParseType_built (separator_type m) hlen

/-! ## The decoders -/

/-- The receiver thread shows the fields that were encoded. -/
theorem Fits.dispatchMessage (h : m.Fits) {e : UiEvent} (he : m.shown = some e) :
    dispatchMessage m.encode = (e, 0) := by
  obtain ⟨a, args, hargs, hparse⟩ := h.parseType
  rw [ChatMultithread.dispatchMessage, hparse]
  cases m with
  | registerOk user ip => cases he
  | error op code desc =>
    cases he
    cases hargs
    have hne : ∀ word ∈ [srvDeliver, srvBroadcastFrom, srvStatusChanged, srvListOk, srvInfoOk,
        srvStatusOk, srvMsgOk, srvBroadcastOk], srvError ≠ word := by decide
    simp only [List.forall_mem_cons] at hne
    simp only [type, hne, if_false, if_true, List.flatMap_cons, List.flatMap_nil, List.append_nil,
      List.cons_append]
    rw [h.1.takeField_append (by decide)]
    simp only [h.2.1.takeField_append (show 63 ≤ 64 - 1 by decide),
      h.2.2.takeField_last (show 255 ≤ 256 - 1 by decide)]
  | listOk users =>
    cases he
    cases hargs
    have hne : ∀ word ∈ [srvDeliver, srvBroadcastFrom, srvStatusChanged], srvListOk ≠ word := by
      decide
    simp only [List.forall_mem_cons] at hne
    simp only [type, hne, if_false, if_true, List.flatMap_nil, List.append_nil, Option.getD_some]
    rw [FieldWithin.copyField h (show 1014 ≤ maxMsgLen - 1 by decide)]
  | infoOk user ip status =>
    cases he
    cases hargs
    have hne : ∀ word ∈ [srvDeliver, srvBroadcastFrom, srvStatusChanged, srvListOk],
        srvInfoOk ≠ word := by decide
    simp only [List.forall_mem_cons] at hne
    simp only [type, hne, if_false, if_true, List.flatMap_cons, List.flatMap_nil, List.append_nil,
      List.cons_append, parseThreeFields, parseTwoFields]
    rw [h.1.takeField_append (show 31 ≤ maxUsernameLen - 1 by decide)]
    simp only [h.2.1.takeField_append (show 63 ≤ 64 - 1 by decide),
      h.2.2.takeField_last (show 15 ≤ 16 - 1 by decide)]
  | statusOk status =>
    cases he
    cases hargs
    have hne : ∀ word ∈ [srvDeliver, srvBroadcastFrom, srvStatusChanged, srvListOk, srvInfoOk],
        srvStatusOk ≠ word := by decide
    simp only [List.forall_mem_cons] at hne
    simp only [type, hne, if_false, if_true, List.flatMap_nil, List.append_nil, Option.getD_some]
    rw [FieldWithin.copyField h (show 15 ≤ 16 - 1 by decide)]
  | statusChanged user status =>
    cases he
    cases hargs
    have hne : ∀ word ∈ [srvDeliver, srvBroadcastFrom], srvStatusChanged ≠ word := by decide
    simp only [List.forall_mem_cons] at hne
    simp only [type, hne, if_false, if_true, List.flatMap_cons, List.flatMap_nil, List.append_nil,
      parseTwoFields]
    rw [h.1.takeField_append (show 31 ≤ maxUsernameLen - 1 by decide)]
    simp only [h.2.takeField_last (show 15 ≤ 16 - 1 by decide)]
  | msgOk dst =>
    cases he
    cases hargs
    have hne : ∀ word ∈ [srvDeliver, srvBroadcastFrom, srvStatusChanged, srvListOk, srvInfoOk,
        srvStatusOk], srvMsgOk ≠ word := by decide
    simp only [List.forall_mem_cons] at hne
    simp only [type, hne, if_false, if_true, List.flatMap_nil, List.append_nil, Option.getD_some]
    rw [FieldWithin.copyField h (show 31 ≤ maxUsernameLen - 1 by decide)]
  | deliver src msg =>
    cases he
    cases hargs
    simp only [type, if_true, List.flatMap_cons, List.flatMap_nil, List.append_nil]
    rw [h.1.parseMsgFields h.2]
  | broadcastFrom src msg =>
    cases he
    cases hargs
    have hne : srvBroadcastFrom ≠ srvDeliver := by decide
    simp only [type, if_neg hne, if_true, List.flatMap_cons, List.flatMap_nil, List.append_nil]
    rw [h.1.parseMsgFields h.2]

/-- `client_register` keeps the fields that were encoded. -/
theorem Fits.registerReply (h : m.Fits) {r : Except RegisterError ClientState}
    (hr : m.registered = some r) : registerReply clientInit m.encode = r := by
  obtain ⟨a, args, hargs, hparse⟩ := h.parseType
  rw [ChatMultithread.registerReply, hparse]
  cases m with
  | registerOk user ip =>
    cases hr
    cases hargs
    have hactive : FieldWithin 15 statusActive := by decide
    simp only [type, if_true, List.flatMap_cons, List.flatMap_nil, List.append_nil,
      List.cons_append, registeredState]
    rw [h.1.nextToken_append]
    dsimp only
    rw [h.2.nextToken_append]
    dsimp only
    rw [hactive.nextToken_last]
    simp only [Option.map_some, Option.getD_some, hactive.strcspnCut_eq]
    rw [h.1.strncpy_of_le (by decide), h.2.strncpy_of_le (by decide),
      hactive.strncpy_of_le (by decide)]
  | error op code desc =>
    cases hr
    cases hargs
    have hne : srvError ≠ srvRegisterOk := by decide
    simp only [type, if_neg hne, if_true, List.flatMap_cons, List.flatMap_nil, List.append_nil,
      List.cons_append, registerRejected]
    rw [h.1.nextToken_append]
    dsimp only
    rw [h.2.1.nextToken_append]
    dsimp only
    rw [h.2.2.nextToken_last]
    simp only [Option.map_some, Option.getD_some, h.2.2.strcspnCut_eq]
    rw [h.2.1.strncpy_of_le (by decide), h.2.2.strncpy_of_le (by decide)]
  | _ => cases hr

end ServerMessage

/-- Decoding undoes encoding: the type of the line is the message's, the receiver thread shows its
    fields, and `client_register` stores or prints those it reads. -/
theorem decode_encode {m : ServerMessage} (h : m.Fits) :
    (protoParseType m.encode).1 = m.type ∧
      (∀ e, m.shown = some e → dispatchMessage m.encode = (e, 0)) ∧
      ∀ r, m.registered = some r → registerReply clientInit m.encode = r := by
  refine ⟨?_, fun e he => h.dispatchMessage he, fun r hr => h.registerReply hr⟩
  obtain ⟨a, args, hargs, hparse⟩ := h.parseType
  rw [ServerMessage.encode_eq, strncpy_snprintf] at hparse
  rw [ServerMessage.encode_eq, hparse]

/-- A text with a separator in it. -/
theorem decode_encode_pipe :
    dispatchMessage (buildDeliver maxMsg (ascii "ana") (ascii "a|b")) =
      (.privateIn (ascii "ana") (ascii "a|b"), 0) := by
  have hfits : (ServerMessage.deliver (ascii "ana") (ascii "a|b")).Fits :=
    ⟨by decide, by decide⟩
  exact (decode_encode hfits).2.1 _ rfl

end ChatMultithread
