import ChatMultithread.Client.ReceiverLoop
import ChatMultithread.Common.Builders

/-!
# How a client registers

`client_register` of `src/client/main_client.c`. It takes the first line of the stream for the
server's welcome and the next one for the answer to its `REGISTER`, whatever these lines are.
-/

namespace ChatMultithread

open Lib

/-- The fields of `ClientState` that the registration writes. -/
structure ClientState where
  username : Bytes
  myIp : Bytes
  myStatus : Bytes
  deriving DecidableEq, Repr

/-- The state that `main` hands to `client_register`. -/
def clientInit : ClientState := ⟨[], [], statusActive⟩

/-- What `client_register` prints before it returns `CLIENT_ERR`. -/
inductive RegisterError where
  | closedBeforeWelcome
  | notWelcome (line : Bytes)
  | sendFailed
  | closedDuringRegister
  | rejected (code description : Bytes)
  | unexpected (line : Bytes)
  deriving DecidableEq, Repr

/-- A run of `client_register`: the protocol version it warns about, what it has sent, and the
    state it leaves with `CLIENT_OK` or the error. -/
structure RegisterRun where
  versionWarning : Option Bytes
  sent : Bytes
  result : Except RegisterError ClientState

/-- The next call of `strtok` in a row, on what the calls before it left. -/
def nextToken (rest : Option Bytes) : Option Bytes × Option Bytes :=
  match rest.bind (strtok fieldSepChar) with
  | none => (none, none)
  | some (tok, rest) => (some tok, some rest)

/-- The state after a `REGISTER_OK` with the given fields. -/
def registeredState (state : ClientState) (rest : Option Bytes) : ClientState :=
  let t1 := nextToken rest
  let t2 := nextToken t1.2
  let t3 := nextToken t2.2
  { username := (t1.1.map (strncpy (maxUsernameLen - 1))).getD state.username
    myIp := (t2.1.map (strncpy (64 - 1))).getD state.myIp
    myStatus := (t3.1.map fun tok =>
      strncpy (16 - 1) (strcspnCut msgTerminatorChar tok)).getD state.myStatus }

/-- The code and the description of an `ERROR` with the given fields. -/
def registerRejected (rest : Option Bytes) : RegisterError :=
  let t1 := nextToken rest
  let t2 := nextToken t1.2
  let t3 := nextToken t2.2
  .rejected ((t2.1.map (strncpy (64 - 1))).getD (ascii "DESCONOCIDO"))
    ((t3.1.map fun tok => strncpy (256 - 1) (strcspnCut msgTerminatorChar tok)).getD [])

/-- What `client_register` makes of the line it takes for the answer. -/
def registerReply (state : ClientState) (buf : Bytes) : Except RegisterError ClientState :=
  let typed := protoParseType (strncpy (maxMsgLen - 1) buf)
  if typed.1 = srvRegisterOk then .ok (registeredState state typed.2)
  else if typed.1 = srvError then .error (registerRejected typed.2)
  else .error (.unexpected buf)

/-- `client_register()` on the input of its socket; `sendOk` says whether the `send` succeeds. -/
def clientRegister (state : ClientState) (username : Bytes) (sendOk : Bool)
    (input : List Recv) : RegisterRun :=
  match clientRecvLine maxMsgLen input with
  | .closed | .failed => ⟨none, [], .error .closedBeforeWelcome⟩
  | .line buffer rest =>
      let typed := protoParseType (strncpy (maxMsgLen - 1) (cstr buffer))
      if typed.1 ≠ srvWelcome then ⟨none, [], .error (.notWelcome (cstr buffer))⟩
      else
        let warning := typed.2.filter (· ≠ protoVersion)
        if !sendOk then ⟨warning, [], .error .sendFailed⟩
        else
          match clientRecvLine maxMsgLen rest with
          | .closed | .failed =>
              ⟨warning, protoRegister username, .error .closedDuringRegister⟩
          | .line buffer _ =>
              ⟨warning, protoRegister username, registerReply state (cstr buffer)⟩

/-- `client_register(u)` has returned with `result` on what has arrived: whatever arrives behind it,
    the result is this one. -/
def Returns (u stream : Bytes) (result : Except RegisterError ClientState) : Prop :=
  ∀ more, (clientRegister clientInit u true (bytesIn stream ++ more)).result = result

/-! ## Reading the stream -/

theorem clientRecvLineLoop_append {room : Nat} {s b rest : Bytes}
    (h : nextFrame msgTerminatorChar room s = some (b, rest)) (used : Bytes) (more : List Recv) :
    clientRecvLineLoop room used (bytesIn s ++ more) =
      .line (used ++ b) (bytesIn rest ++ more) := by
  induction s generalizing room used b with
  | nil =>
    cases room with
    | zero =>
      cases h
      simp [bytesIn, clientRecvLineLoop]
    | succ room => cases h
  | cons ch s ih =>
    cases room with
    | zero =>
      cases h
      simp [bytesIn, clientRecvLineLoop]
    | succ room =>
      rw [nextFrame] at h
      simp only [bytesIn, List.map_cons, List.cons_append, clientRecvLineLoop]
      split at h
      · rename_i hch
        cases h
        rw [if_pos hch]
      · rename_i hch
        obtain ⟨⟨b', rest'⟩, hnext, heq⟩ := Option.map_eq_some_iff.1 h
        cases heq
        have hrest := ih hnext (used ++ [ch])
        rw [← List.append_cons] at hrest
        rw [if_neg hch]
        exact hrest

/-- What has arrived whole is read, whatever comes behind it. -/
theorem clientRecvLine_append {s b rest : Bytes}
    (h : nextFrame msgTerminatorChar (maxMsgLen - 1) s = some (b, rest)) (more : List Recv) :
    clientRecvLine maxMsgLen (bytesIn s ++ more) = .line b (bytesIn rest ++ more) :=
  clientRecvLineLoop_append h [] more

theorem clientRecvLineLoop_prefix {room : Nat} {used buffer : Bytes} {input rest : List Recv}
    (h : clientRecvLineLoop room used input = .line buffer rest) : ∃ b, buffer = used ++ b := by
  induction input generalizing room used with
  | nil =>
    cases room with
    | zero =>
      cases h
      exact ⟨[], (List.append_nil _).symm⟩
    | succ room => cases h
  | cons r input ih =>
    cases room with
    | zero =>
      cases h
      exact ⟨[], (List.append_nil _).symm⟩
    | succ room =>
      cases r with
      | byte ch =>
        rw [clientRecvLineLoop] at h
        split at h
        · cases h
          exact ⟨_, rfl⟩
        · obtain ⟨b, rfl⟩ := ih h
          exact ⟨ch :: b, by simp⟩
      | interrupted | failed => cases h

/-- A line that begins without a terminator is read with its beginning. -/
theorem clientRecvLineLoop_begin {pre : Bytes} (hpre : msgTerminatorChar ∉ pre) {room : Nat}
    (hlen : pre.length ≤ room) (used : Bytes) (input : List Recv) :
    clientRecvLineLoop room used (bytesIn pre ++ input) =
      clientRecvLineLoop (room - pre.length) (used ++ pre) input := by
  induction pre generalizing room used with
  | nil => simp [bytesIn]
  | cons ch pre ih =>
    obtain ⟨hch, hrest⟩ := not_or.1 (List.mem_cons.not.1 hpre)
    obtain ⟨room, rfl⟩ := Nat.exists_eq_succ_of_ne_zero (Nat.ne_zero_of_lt hlen)
    have hnext := ih hrest (Nat.le_of_succ_le_succ hlen) (used ++ [ch])
    simp only [bytesIn, List.map_cons, List.cons_append, clientRecvLineLoop,
      if_neg (Ne.symm hch), List.length_cons] at hnext ⊢
    rw [hnext, ← List.append_cons, Nat.succ_eq_add_one, Nat.add_sub_add_right]

/-! ## What the client returns -/

theorem strncpy_cstr_of_isFrame {b : Bytes} (h : IsFrame msgTerminatorChar (maxMsgLen - 1) b) :
    strncpy (maxMsgLen - 1) (cstr b) = cstr b :=
  strncpy_of_le (Nat.le_trans (length_cstr_le b) h.length_le)

theorem bytesIn_append (s t : Bytes) : bytesIn (s ++ t) = bytesIn s ++ bytesIn t :=
  List.map_append

section Run

variable (state : ClientState) (u : Bytes) {b r rest : Bytes}
  (hb : IsFrame msgTerminatorChar (maxMsgLen - 1) b)
include hb

/-- Behind a welcome the client sends its `REGISTER` and takes the next line for the answer. -/
theorem clientRegister_welcome (htype : (protoParseType (cstr b)).1 = srvWelcome)
    (input : List Recv) :
    (clientRegister state u true (bytesIn b ++ input)).sent = protoRegister u ∧
      (clientRegister state u true (bytesIn b ++ input)).result =
        match clientRecvLine maxMsgLen input with
        | .closed | .failed => .error .closedDuringRegister
        | .line buffer _ => registerReply state (cstr buffer) := by
  have hnext : nextFrame msgTerminatorChar (maxMsgLen - 1) b = some (b, []) := by
    simpa using hb.nextFrame []
  have hread := clientRecvLine_append hnext input
  have hinput : bytesIn [] ++ input = input := rfl
  rw [hinput] at hread
  unfold clientRegister
  rw [hread]
  simp only [strncpy_cstr_of_isFrame hb, htype, ne_eq, not_true_eq_false, if_false,
    Bool.not_true, Bool.false_eq_true]
  cases clientRecvLine maxMsgLen input <;> exact ⟨rfl, rfl⟩

/-- The second line of a stream is taken for the answer. -/
theorem clientRegister_reply (htype : (protoParseType (cstr b)).1 = srvWelcome)
    (hr : IsFrame msgTerminatorChar (maxMsgLen - 1) r) (more : List Recv) :
    (clientRegister state u true (bytesIn (b ++ (r ++ rest)) ++ more)).result =
      registerReply state (cstr r) := by
  rw [bytesIn_append, List.append_assoc, (clientRegister_welcome state u hb htype _).2,
    clientRecvLine_append (hr.nextFrame rest)]

/-- Only a `REGISTER_OK` makes `client_register` return `CLIENT_OK`. -/
theorem registerReply_ok_iff :
    (∃ state', registerReply state (cstr b) = .ok state') ↔
      (protoParseType (cstr b)).1 = srvRegisterOk := by
  unfold registerReply
  rw [strncpy_cstr_of_isFrame hb]
  dsimp only
  constructor
  · rintro ⟨state', h⟩
    split at h
    · rename_i hok
      exact hok
    · split at h <;> cases h
  · intro hok
    rw [if_pos hok]
    exact ⟨_, rfl⟩

end Run

section Begin

variable (state : ClientState) (u : Bytes) {word : Bytes} (hword : IsWord word)
include hword

/-- A line that begins with a word is read with that word in front. -/
theorem clientRecvLine_begin {text buffer : Bytes} {more rest : List Recv}
    (h : clientRecvLine maxMsgLen (bytesIn (word ++ fieldSepChar :: text) ++ more) =
      .line buffer rest) : ∃ b, buffer = word ++ fieldSepChar :: b := by
  have hpre : msgTerminatorChar ∉ word ++ [fieldSepChar] := by
    rw [List.mem_append, not_or]
    exact ⟨hword.terminator, by decide⟩
  have hlen : (word ++ [fieldSepChar]).length ≤ maxMsgLen - 1 := by
    have hshort := hword.length_le
    rw [List.length_append, List.length_singleton]
    simp only [maxMsgLen, maxLineLen]
    omega
  rw [List.append_cons, bytesIn_append, List.append_assoc, clientRecvLine,
    clientRecvLineLoop_begin hpre hlen] at h
  obtain ⟨b, rfl⟩ := clientRecvLineLoop_prefix h
  exact ⟨b, by simp⟩

/-- Its type is the word. -/
theorem protoParseType_begin (b : Bytes) :
    (protoParseType (strncpy (maxMsgLen - 1) (cstr (word ++ fieldSepChar :: b)))).1 = word := by
  have hlen := hword.length_le
  have hroom : ∃ m, maxMsgLen - 1 - word.length = m + 1 :=
    Nat.exists_eq_add_of_le' (show 1 ≤ maxMsgLen - 1 - word.length by
      simp only [maxMsgLen, maxLineLen]
      omega)
  obtain ⟨m, hm⟩ := hroom
  have hshort : word.length ≤ maxMsgLen - 1 := by omega
  have hcons : cstr (fieldSepChar :: b) = fieldSepChar :: cstr b :=
    cstr_append (s := [fieldSepChar]) (by decide) b
  have hcut : strncpy (maxMsgLen - 1) (cstr (word ++ fieldSepChar :: b)) =
      word ++ fieldSepChar :: (cstr b).take m := by
    rw [cstr_append hword.nul, hcons, strncpy, List.take_append, List.take_of_length_le hshort, hm,
      List.take_succ_cons]
  obtain ⟨rest, htype, -⟩ := protoParseType_prefix hword.separator ((cstr b).take m)
  rw [hcut, htype]

/-- A stream that does not begin with a welcome ends the registration before anything is sent. -/
theorem clientRegister_begin (hne : word ≠ srvWelcome) (text : Bytes) (more : List Recv) :
    (clientRegister state u true (bytesIn (word ++ fieldSepChar :: text) ++ more)).sent = [] ∧
      ∃ e, (clientRegister state u true (bytesIn (word ++ fieldSepChar :: text) ++ more)).result =
        .error e := by
  unfold clientRegister
  cases hread : clientRecvLine maxMsgLen (bytesIn (word ++ fieldSepChar :: text) ++ more) with
  | closed | failed => exact ⟨rfl, _, rfl⟩
  | line buffer rest =>
    obtain ⟨b, rfl⟩ := clientRecvLine_begin hword hread
    simp only [protoParseType_begin hword, ne_eq, hne, not_false_eq_true, if_true]
    exact ⟨trivial, _, rfl⟩

end Begin

end ChatMultithread
