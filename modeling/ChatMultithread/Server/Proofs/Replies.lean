import ChatMultithread.Server.Proofs.Events

/-!
# One reply for every command

Whatever a client sends, its thread answers it with one line, on the client's own socket: every way
through the fast paths of the thread, the dispatcher and the handlers ends with one reply, early
returns included. `replyMonitor` counts the replies.
-/

namespace ChatMultithread

open Lib

namespace Server

/-- The command word in the errors of a handler, and the word of its confirmation. -/
def replyWordsOf : CommandType → Option (Bytes × Bytes)
  | .register => some (cmdRegister, srvRegisterOk)
  | .list => some (cmdList, srvListOk)
  | .info => some (cmdInfo, srvInfoOk)
  | .status => some (cmdStatus, srvStatusOk)
  | .msg => some (cmdMsg, srvMsgOk)
  | .broadcast => some (cmdBroadcast, srvBroadcastOk)
  | .quit | .invalid => none

/-- `buf` is the reply of the command in a line. -/
inductive RepliesTo (line : Bytes) : Bytes → Prop
  | pong (h : line = ascii "PING\n") : RepliesTo line (ascii "PONG\n")
  | bye (h : lineCommand line = .quit) : RepliesTo line (ascii "BYE\n")
  | ok {cmd word : Bytes} (h : replyWordsOf (lineCommand line) = some (cmd, word))
      (args : List Bytes) : RepliesTo line (snprintf maxMsg (lineOf word args))
  | error {cmd word : Bytes} (h : replyWordsOf (lineCommand line) = some (cmd, word))
      (code desc : Bytes) : RepliesTo line (buildError maxMsg cmd code desc)
  | rejected (h : lineCommand line = .invalid) (hping : line ≠ ascii "PING\n") (args : List Bytes) :
      RepliesTo line (snprintf maxMsg (lineOf srvError args))

/-- The type that a receiver finds in the string is that of an event. -/
def IsEvent (buf : Bytes) : Prop := (protoParseType (cstr buf)).1 ∈ eventWords

instance (buf : Bytes) : Decidable (IsEvent buf) := inferInstanceAs (Decidable (_ ∈ _))

/-- The string that an operation sends to one socket, unless it is an event. -/
def replyOf : Op → Option (Int × Bytes)
  | .send fd buf => if IsEvent buf then none else some (fd, buf)
  | _ => none

/-- The event that an operation sends, to one socket or to many. -/
def eventOf : Op → Option Bytes
  | .send _ buf => if IsEvent buf then some buf else none
  | .broadcastAll buf | .broadcastExcept buf _ => some buf
  | _ => none

/-- The session has the descriptor `fd`, and sends succeed. -/
def Answer (fd : Int) : Sigma Op.Resp → Prop
  | ⟨.readSockfd, r⟩ => r = fd
  | ⟨.send _ _, r⟩ => r = true
  | _ => True

/-- The operations of a thread with descriptor `fd` while it handles `line`, by the replies that it
    has sent. -/
def replyMonitor (fd : Int) (line : Bytes) : Monitor Op Op.Resp (List (Int × Bytes)) where
  allows g
    | .send fd' buf =>
        IsEvent buf ∧ (∃ name, EventLine name line buf) ∨
          ¬ IsEvent buf ∧ fd' = fd ∧ RepliesTo line buf ∧ g = []
    | .broadcastAll buf | .broadcastExcept buf _ => ∃ name, EventLine name line buf
    | .undefinedBehaviour => False
    | _ => True
  answers _ o r := Answer fd ⟨o, r⟩
  next g o _ := g ++ (replyOf o).toList

/-- One reply has been sent, and the loop ends behind the line `QUIT` only. -/
def Replied (fd : Int) (line : Bytes) (g : List (Int × Bytes)) (exit : LoopExit) : Prop :=
  (∃ buf, g = [(fd, buf)] ∧ RepliesTo line buf) ∧
    (exit = .break_ ↔ line = ascii "QUIT\n")

variable {fd : Int} {line : Bytes}

/-! ## Replies are no events -/

theorem not_isEvent_lineOf {word : Bytes} (hword : word ∈ replyWords) (args : List Bytes) :
    ¬ IsEvent (snprintf maxMsg (lineOf word args)) := by
  have hdisjoint : ∀ word ∈ replyWords, word ∉ eventWords := by decide
  unfold IsEvent
  rw [protoParseType_lineOf (isWord_of_replyWords word hword)]
  exact hdisjoint word hword

theorem replyWordsOf_mem {type : CommandType} {cmd word : Bytes}
    (h : replyWordsOf type = some (cmd, word)) : word ∈ replyWords := by
  cases type <;> cases h <;> decide

theorem RepliesTo.not_isEvent {buf : Bytes} (h : RepliesTo line buf) : ¬ IsEvent buf := by
  cases h with
  | pong h => decide +kernel
  | bye h => decide +kernel
  | ok h args => exact not_isEvent_lineOf (replyWordsOf_mem h) args
  | error h code desc => exact not_isEvent_lineOf (show srvError ∈ replyWords by decide) _
  | rejected h hping args => exact not_isEvent_lineOf (by decide) args

/-- The type of a reply is the word of its command's confirmation, or one that confirms nothing. -/
theorem RepliesTo.type {buf : Bytes} (h : RepliesTo line buf) :
    (protoParseType (cstr buf)).1 ∈ [ascii "PONG", srvBye, srvError] ∨
      ∃ cmd, replyWordsOf (lineCommand line) = some (cmd, (protoParseType (cstr buf)).1) := by
  have herror : ∀ args, (protoParseType (cstr (snprintf maxMsg (lineOf srvError args)))).1 ∈
      [ascii "PONG", srvBye, srvError] := by
    intro args
    rw [protoParseType_lineOf (isWord_of_replyWords _ (by decide))]
    decide
  cases h with
  | pong h => exact .inl (by decide +kernel)
  | bye h => exact .inl (by decide +kernel)
  | @ok cmd word h args =>
    rw [protoParseType_lineOf (isWord_of_replyWords word (replyWordsOf_mem h))]
    exact .inr ⟨cmd, h⟩
  | error h code desc => exact .inl (herror _)
  | rejected h hping args => exact .inl (herror args)

/-- The word of a confirmation names its command. -/
theorem replyWordsOf_inj {type type' : CommandType} {cmd cmd' word : Bytes}
    (h : replyWordsOf type = some (cmd, word)) (h' : replyWordsOf type' = some (cmd', word)) :
    type = type' := by
  have hfind : ∀ type, ∀ p ∈ replyWordsOf type,
      [CommandType.register, .list, .info, .status, .msg, .broadcast].find?
        (fun type => (replyWordsOf type).map Prod.snd == some p.2) = some type := by
    intro type
    cases type <;> decide +kernel
  exact Option.some.inj ((hfind type (cmd, word) h).symm.trans (hfind type' (cmd', word) h'))

/-- The word that confirms one command is in the reply of no other. -/
theorem RepliesTo.type_ne {buf cmd word : Bytes} {type : CommandType} (h : RepliesTo line buf)
    (htype : replyWordsOf type = some (cmd, word)) (hcmd : lineCommand line ≠ type) :
    (protoParseType (cstr buf)).1 ≠ word := by
  intro hbuf
  rcases h.type with hword | ⟨cmd', hword⟩
  · rw [hbuf] at hword
    have hother : ∀ type, ∀ p ∈ replyWordsOf type, p.2 ∉ [ascii "PONG", srvBye, srvError] := by
      intro type
      cases type <;> decide
    exact hother type _ htype hword
  · rw [hbuf] at hword
    exact hcmd (replyWordsOf_inj hword htype)

/-! ## What a line can make a thread say -/

/-- The operations with which a thread can handle a line, whatever it is answered. -/
def wordMonitor (line : Bytes) : Monitor Op Op.Resp Unit where
  allows _
    | .send _ buf => RepliesTo line buf ∨ ∃ name, EventLine name line buf
    | .broadcastAll buf | .broadcastExcept buf _ => ∃ name, EventLine name line buf
    | .addSession _ _ => lineCommand line = .register
    | .setUserStatus _ _ => lineCommand line = .status
    | _ => True
  answers _ _ _ := True
  next _ _ _ := ()

/-- The rest of a line. -/
def Wording {α : Type} (line : Bytes) (code : ServerProg α) : Prop :=
  (wordMonitor line).Safe (fun _ _ => True) () code

section Wording

/-- A confirmation or an error ends every branch of a handler. -/
theorem wording_ok {cmd word : Bytes} (h : replyWordsOf (lineCommand line) = some (cmd, word))
    (args : List Bytes) :
    Wording line (sendIgnored fd (snprintf maxMsg (lineOf word args))) :=
  ⟨.inl (.ok h args), fun _ _ => trivial⟩

theorem wording_error {cmd word : Bytes} (h : replyWordsOf (lineCommand line) = some (cmd, word))
    (code desc : Bytes) : Wording line (sendIgnored fd (buildError maxMsg cmd code desc)) :=
  ⟨.inl (.error h code desc), fun _ _ => trivial⟩

theorem handleRegister_wording (hcmd : lineCommand line = .register) :
    Wording line (handleRegister (lineMessage line)) := by
  have hwords : replyWordsOf (lineCommand line) = some (cmdRegister, srvRegisterOk) := by
    rw [hcmd]
    rfl
  rw [handleRegister_eq]
  refine ⟨trivial, fun fd _ => ?_⟩
  split
  · exact wording_error hwords _ _
  · refine ⟨trivial, fun exists_ _ => ?_⟩
    dsimp only
    split
    · exact wording_error hwords _ _
    · exact ⟨hcmd, fun _ _ => ⟨trivial, fun addr _ => wording_ok hwords _⟩⟩

theorem handleMsg_wording (hcmd : lineCommand line = .msg) :
    Wording line (handleMsg (lineMessage line)) := by
  have hwords : replyWordsOf (lineCommand line) = some (cmdMsg, srvMsgOk) := by
    rw [hcmd]
    rfl
  rw [handleMsg_eq]
  refine ⟨trivial, fun fd _ => ⟨trivial, fun dstFd _ => ?_⟩⟩
  dsimp only
  split
  · exact wording_error hwords _ _
  · refine ⟨trivial, fun sender _ => ⟨.inr ⟨sender, .deliver hcmd⟩, fun _ _ => ?_⟩⟩
    exact wording_ok hwords _

theorem handleBroadcast_wording (hcmd : lineCommand line = .broadcast) :
    Wording line (handleBroadcast (lineMessage line)) := by
  have hwords : replyWordsOf (lineCommand line) = some (cmdBroadcast, srvBroadcastOk) := by
    rw [hcmd]
    rfl
  rw [handleBroadcast_eq]
  refine ⟨trivial, fun fd _ => ⟨trivial, fun username _ => ⟨⟨username, .broadcast hcmd⟩, ?_⟩⟩⟩
  intro _ _
  exact wording_ok hwords _

theorem handleQuit_wording (hcmd : lineCommand line = .quit) : Wording line handleQuit := by
  have hbye : snprintf 64 (lineOf srvBye []) = ascii "BYE\n" := by decide
  rw [handleQuit_eq, hbye]
  exact ⟨trivial, fun fd _ => ⟨.inl (.bye hcmd), fun _ _ => trivial⟩⟩

theorem handleList_wording (hcmd : lineCommand line = .list) : Wording line handleList := by
  have hwords : replyWordsOf (lineCommand line) = some (cmdList, srvListOk) := by
    rw [hcmd]
    rfl
  rw [handleList_eq]
  exact ⟨trivial, fun users _ => ⟨trivial, fun fd _ => wording_ok hwords _⟩⟩

theorem handleInfo_wording (hcmd : lineCommand line = .info) :
    Wording line (handleInfo (lineMessage line)) := by
  have hwords : replyWordsOf (lineCommand line) = some (cmdInfo, srvInfoOk) := by
    rw [hcmd]
    rfl
  rw [handleInfo_eq]
  refine ⟨trivial, fun fd _ => ⟨trivial, fun exists_ _ => ?_⟩⟩
  dsimp only
  split
  · exact wording_error hwords _ _
  · refine ⟨trivial, fun info _ => ?_⟩
    dsimp only
    split
    · exact wording_error hwords _ _
    · exact wording_ok hwords _

theorem handleStatus_wording (hcmd : lineCommand line = .status) :
    Wording line (handleStatus (lineMessage line)) := by
  have hwords : replyWordsOf (lineCommand line) = some (cmdStatus, srvStatusOk) := by
    rw [hcmd]
    rfl
  rw [handleStatus_eq]
  refine ⟨trivial, fun fd _ => ?_⟩
  split
  · exact wording_error hwords _ _
  · rename_i hvalid
    have hstatus : isValidStatus (lineMessage line).arg1 = true := by simpa using hvalid
    refine ⟨trivial, fun _ _ => ⟨hcmd, fun _ _ => ⟨.inl (.ok hwords _), fun _ _ => ?_⟩⟩⟩
    exact ⟨trivial, fun username _ => ⟨⟨username, .statusChanged hcmd hstatus⟩, fun _ _ => trivial⟩⟩

theorem handlerOf_wording (hcmd : lineCommand line ≠ .invalid) :
    Wording line (handlerOf (lineMessage line)) := by
  have htype := lineMessage_type line
  unfold handlerOf
  split
  case h_1 h => exact handleRegister_wording (htype.symm.trans h)
  case h_2 h => exact handleList_wording (htype.symm.trans h)
  case h_3 h => exact handleInfo_wording (htype.symm.trans h)
  case h_4 h => exact handleStatus_wording (htype.symm.trans h)
  case h_5 h => exact handleMsg_wording (htype.symm.trans h)
  case h_6 h => exact handleBroadcast_wording (htype.symm.trans h)
  case h_7 h => exact handleQuit_wording (htype.symm.trans h)
  case h_8 h => exact absurd (htype.symm.trans h) hcmd

end Wording

/-! ## The handlers -/

/-- One reply to the thread's own client. -/
def OneReply (fd : Int) (line : Bytes) (g : List (Int × Bytes)) (_ : Unit) : Prop :=
  ∃ buf, g = [(fd, buf)] ∧ RepliesTo line buf

/-- The reply is the first string of its kind. -/
theorem replied_send {α : Type} {post : List (Int × Bytes) → α → Prop} {buf : Bytes}
    {k : Bool → ServerProg α} (h : RepliesTo line buf)
    (hk : (replyMonitor fd line).Safe post [(fd, buf)] (k true)) :
    (replyMonitor fd line).Safe post [] (.call (.send fd buf) k) := by
  refine ⟨.inr ⟨h.not_isEvent, rfl, h, rfl⟩, fun sent hsent => ?_⟩
  obtain rfl : sent = true := hsent
  have hnext : (replyMonitor fd line).next [] (.send fd buf) true = [(fd, buf)] := by
    simp [replyMonitor, replyOf, h.not_isEvent]
  rw [hnext]
  exact hk

/-- A reply ends every branch of a handler. -/
theorem replied_sendIgnored {buf : Bytes} (h : RepliesTo line buf) :
    (replyMonitor fd line).Safe (OneReply fd line) [] (sendIgnored fd buf) := by
  rw [sendIgnored_eq]
  exact replied_send h ⟨buf, rfl, h⟩

/-- What precedes the reply of a handler leaves the list of replies as it is. -/
theorem replied_call {post : List (Int × Bytes) → Unit → Prop} {o : Op}
    {k : o.Resp → ServerProg Unit} {g : List (Int × Bytes)}
    (hallowed : (replyMonitor fd line).allows g o) (hreply : replyOf o = none)
    (hk : ∀ r, Answer fd ⟨o, r⟩ → (replyMonitor fd line).Safe post g (k r)) :
    (replyMonitor fd line).Safe post g (.call o k) := by
  refine ⟨hallowed, fun r hr => ?_⟩
  have hnext : (replyMonitor fd line).next g o r = g := by simp [replyMonitor, hreply]
  rw [hnext]
  exact hk r hr

theorem handleRegister_replies (hcmd : lineCommand line = .register) :
    (replyMonitor fd line).Safe (OneReply fd line) [] (handleRegister (lineMessage line)) := by
  have hwords : replyWordsOf (lineCommand line) = some (cmdRegister, srvRegisterOk) := by
    rw [hcmd]
    rfl
  rw [handleRegister_eq]
  refine replied_call trivial rfl fun fd' hfd => ?_
  obtain rfl : fd' = fd := hfd
  split
  · exact replied_sendIgnored (.error hwords _ _)
  · refine replied_call trivial rfl fun exists_ _ => ?_
    split
    · exact replied_sendIgnored (.error hwords _ _)
    · refine replied_call trivial rfl fun _ _ => ?_
      refine replied_call trivial rfl fun addr _ => ?_
      exact replied_sendIgnored (.ok hwords _)

theorem handleMsg_replies (hcmd : lineCommand line = .msg) :
    (replyMonitor fd line).Safe (OneReply fd line) [] (handleMsg (lineMessage line)) := by
  have hwords : replyWordsOf (lineCommand line) = some (cmdMsg, srvMsgOk) := by
    rw [hcmd]
    rfl
  rw [handleMsg_eq]
  refine replied_call trivial rfl fun fd' hfd => ?_
  obtain rfl : fd' = fd := hfd
  refine replied_call trivial rfl fun dstFd _ => ?_
  split
  · exact replied_sendIgnored (.error hwords _ _)
  · refine replied_call trivial rfl fun sender _ => ?_
    have hline : EventLine sender line (buildDeliver maxMsg sender (lineMessage line).arg2) :=
      .deliver hcmd
    have hevent : IsEvent (buildDeliver maxMsg sender (lineMessage line).arg2) := hline.type
    refine replied_call (.inl ⟨hevent, sender, hline⟩) (if_pos hevent) fun _ _ => ?_
    exact replied_sendIgnored (.ok hwords _)

theorem handleBroadcast_replies (hcmd : lineCommand line = .broadcast) :
    (replyMonitor fd line).Safe (OneReply fd line) [] (handleBroadcast (lineMessage line)) := by
  have hwords : replyWordsOf (lineCommand line) = some (cmdBroadcast, srvBroadcastOk) := by
    rw [hcmd]
    rfl
  rw [handleBroadcast_eq]
  refine replied_call trivial rfl fun fd' hfd => ?_
  obtain rfl : fd' = fd := hfd
  refine replied_call trivial rfl fun username _ => ?_
  have hline : EventLine username line (buildBroadcastFrom maxMsg username (lineMessage line).arg2) :=
    .broadcast hcmd
  refine replied_call ⟨username, hline⟩ rfl fun _ _ => ?_
  exact replied_sendIgnored (.ok hwords _)

theorem handleQuit_replies (hcmd : lineCommand line = .quit) :
    (replyMonitor fd line).Safe (OneReply fd line) [] handleQuit := by
  have hbye : snprintf 64 (lineOf srvBye []) = ascii "BYE\n" := by decide
  rw [handleQuit_eq, hbye]
  refine replied_call trivial rfl fun fd' hfd => ?_
  obtain rfl : fd' = fd := hfd
  exact replied_sendIgnored (.bye hcmd)

theorem handleList_replies (hcmd : lineCommand line = .list) :
    (replyMonitor fd line).Safe (OneReply fd line) [] handleList := by
  have hwords : replyWordsOf (lineCommand line) = some (cmdList, srvListOk) := by
    rw [hcmd]
    rfl
  rw [handleList_eq]
  refine replied_call trivial rfl fun users _ => ?_
  refine replied_call trivial rfl fun fd' hfd => ?_
  obtain rfl : fd' = fd := hfd
  exact replied_sendIgnored (.ok hwords _)

theorem handleInfo_replies (hcmd : lineCommand line = .info) :
    (replyMonitor fd line).Safe (OneReply fd line) [] (handleInfo (lineMessage line)) := by
  have hwords : replyWordsOf (lineCommand line) = some (cmdInfo, srvInfoOk) := by
    rw [hcmd]
    rfl
  rw [handleInfo_eq]
  refine replied_call trivial rfl fun fd' hfd => ?_
  obtain rfl : fd' = fd := hfd
  refine replied_call trivial rfl fun exists_ _ => ?_
  split
  · exact replied_sendIgnored (.error hwords _ _)
  · refine replied_call trivial rfl fun info _ => ?_
    split
    · exact replied_sendIgnored (.error hwords _ _)
    · exact replied_sendIgnored (.ok hwords _)

theorem handleStatus_replies (hcmd : lineCommand line = .status) :
    (replyMonitor fd line).Safe (OneReply fd line) [] (handleStatus (lineMessage line)) := by
  have hwords : replyWordsOf (lineCommand line) = some (cmdStatus, srvStatusOk) := by
    rw [hcmd]
    rfl
  rw [handleStatus_eq]
  refine replied_call trivial rfl fun fd' hfd => ?_
  obtain rfl : fd' = fd := hfd
  split
  · exact replied_sendIgnored (.error hwords _ _)
  · rename_i hvalid
    have hstatus : isValidStatus (lineMessage line).arg1 = true := by simpa using hvalid
    have hok : RepliesTo line (buildStatusOk maxMsg (lineMessage line).arg1) := .ok hwords _
    refine replied_call trivial rfl fun username _ => ?_
    refine replied_call trivial rfl fun _ _ => ?_
    refine replied_send hok ?_
    -- the others are told behind the reply
    refine replied_call trivial rfl fun username _ => ?_
    have hline : EventLine username line
        (buildStatusChanged maxMsg username (lineMessage line).arg1) := .statusChanged hcmd hstatus
    exact replied_call ⟨username, hline⟩ rfl fun _ _ => ⟨_, rfl, hok⟩

theorem handlerOf_replies (hcmd : lineCommand line ≠ .invalid) :
    (replyMonitor fd line).Safe (OneReply fd line) [] (handlerOf (lineMessage line)) := by
  have htype := lineMessage_type line
  unfold handlerOf
  split
  case h_1 h => exact handleRegister_replies (htype.symm.trans h)
  case h_2 h => exact handleList_replies (htype.symm.trans h)
  case h_3 h => exact handleInfo_replies (htype.symm.trans h)
  case h_4 h => exact handleStatus_replies (htype.symm.trans h)
  case h_5 h => exact handleMsg_replies (htype.symm.trans h)
  case h_6 h => exact handleBroadcast_replies (htype.symm.trans h)
  case h_7 h => exact handleQuit_replies (htype.symm.trans h)
  case h_8 h => exact absurd (htype.symm.trans h) hcmd

/-! ## The loop body -/

theorem replied_sendOrBreak {buf : Bytes} (h : RepliesTo line buf) (hline : line ≠ ascii "QUIT\n") :
    (replyMonitor fd line).Safe (Replied fd line) [] (sendOrBreak fd buf) :=
  replied_send h ⟨⟨buf, rfl, h⟩, iff_of_false nofun hline⟩

theorem lineBody_replies (hin : InBounds line) :
    (replyMonitor fd line).Safe (Replied fd line) [] (lineBody fd line) := by
  have hpending : protoPending = snprintf maxMsg (lineOf srvError
      [ascii "PROTO", ascii "NOT_IMPLEMENTED", ascii "Parser pending"]) := by decide
  apply safe_lineBody
  · intro hping
    apply replied_sendOrBreak (.pong hping)
    rw [hping]
    decide
  · intro hquit
    have hcmd : lineCommand line = .quit := by
      rw [hquit]
      decide +kernel
    exact replied_send (.bye hcmd) ⟨⟨_, rfl, .bye hcmd⟩, iff_of_true rfl hquit⟩
  · exact fun hout => absurd hin hout
  · intro hping hquit hcmd
    rw [hpending]
    exact replied_sendOrBreak (.rejected hcmd hping _) hquit
  · intro hquit _ hcmd
    exact (handlerOf_replies hcmd).mono fun g _ h => ⟨h, iff_of_false LoopExit.noConfusion hquit⟩

theorem clientLine_replies (hlen : line.length < maxMsg) (hin : InBounds line) :
    (replyMonitor fd line).Safe (Replied fd line) [] (clientLine fd line) := by
  have hnext : ∀ o r, replyOf o = none → (replyMonitor fd line).next [] o r = [] := by
    intro o r ho
    simp [replyMonitor, ho]
  apply safe_clientLine hlen
  · exact trivial
  · intro _
    rw [hnext _ _ rfl]
    exact lineBody_replies hin
  · intro slot _
    rw [hnext _ _ rfl]
    refine ⟨trivial, fun _ _ => ?_⟩
    rw [hnext _ _ rfl]
    exact lineBody_replies hin

/-! ## The replies of a run -/

theorem answered_replyMonitor (g : List (Int × Bytes)) (calls : List (Sigma Op.Resp)) :
    (replyMonitor fd line).Answered g calls ↔ ∀ call ∈ calls, Answer fd call := by
  induction calls generalizing g with
  | nil => simp [Monitor.Answered]
  | cons call calls ih =>
    rw [List.forall_mem_cons, ← ih]
    exact Iff.rfl

theorem after_replyMonitor (g : List (Int × Bytes)) (calls : List (Sigma Op.Resp)) :
    (replyMonitor fd line).after g calls = g ++ calls.filterMap fun call => replyOf call.1 := by
  induction calls generalizing g with
  | nil => simp [Monitor.after]
  | cons call calls ih =>
    rw [Monitor.after, ih, List.filterMap_cons]
    show g ++ (replyOf call.1).toList ++ _ = _
    cases replyOf call.1 <;> simp

theorem events_of_allowed (g : List (Int × Bytes)) {calls : List (Sigma Op.Resp)}
    (h : (replyMonitor fd line).Allowed g calls) :
    ∀ call ∈ calls, ∀ buf, eventOf call.1 = some buf → ∃ name, EventLine name line buf := by
  induction calls generalizing g with
  | nil => exact List.forall_mem_nil _
  | cons call calls ih =>
    rw [List.forall_mem_cons]
    refine ⟨?_, ih _ h.2⟩
    intro buf hbuf
    have hallowed := h.1
    obtain ⟨o, r⟩ := call
    cases o
    case send fd' buf' =>
      simp only [eventOf] at hbuf
      split at hbuf
      · rename_i hevent
        cases hbuf
        rcases hallowed with hallowed | hallowed
        · exact hallowed.2
        · exact absurd hevent hallowed.1
      · cases hbuf
    case broadcastAll buf' =>
      cases hbuf
      exact hallowed
    case broadcastExcept buf' fd' =>
      cases hbuf
      exact hallowed
    all_goals cases hbuf

/-- Every allowed operation has an answer. -/
theorem replyMonitor_open (g : List (Int × Bytes)) (o : Op) (h : (replyMonitor fd line).allows g o) :
    ∃ r, (replyMonitor fd line).answers g o r := by
  cases o
  case readSockfd => exact ⟨fd, rfl⟩
  case send fd' buf => exact ⟨true, rfl⟩
  case undefinedBehaviour => exact h.elim
  case sessionsFindBySockfd => exact ⟨none, trivial⟩
  case readAddr => exact ⟨⟨0, 0, 0, 0⟩, trivial⟩
  case usernameExists => exact ⟨true, trivial⟩
  case findUserFd => exact ⟨(0 : Int), trivial⟩
  case getUserInfo => exact ⟨none, trivial⟩
  case readUsername | getAllUsers => exact ⟨([] : Bytes), trivial⟩
  all_goals exact ⟨(), trivial⟩

/-- A thread handles every line that `recv_line` returns and that the parser has room for, whatever
    the table holds and whatever the externs answer, and it sends one reply for it: the reply of its
    command, to its own client. Everything else that it sends is an event of the command. -/
theorem oneReply {fd : Int} {input rest : List Recv} {raw : Bytes}
    (hrecv : recvLine maxLineLen input = .line raw rest) (hin : InBounds (cstr raw)) :
    (∀ calls, (clientLine fd (cstr raw)).Partial calls → (∀ call ∈ calls, Answer fd call) →
      ∃ more exit, (clientLine fd (cstr raw)).Runs (calls ++ more) exit ∧
        ∀ call ∈ calls ++ more, Answer fd call) ∧
    ∀ calls exit, (clientLine fd (cstr raw)).Runs calls exit → (∀ call ∈ calls, Answer fd call) →
      ∃ buf, (calls.filterMap fun call => replyOf call.1) = [(fd, buf)] ∧
        RepliesTo (cstr raw) buf ∧
        ∀ call ∈ calls, ∀ e, eventOf call.1 = some e → ∃ name, EventLine name (cstr raw) e := by
  have hlen := length_cstr_recvLine hrecv
  have hsafe := @clientLine_replies fd _ hlen hin
  constructor
  · intro calls hpart hans
    obtain ⟨more, exit, hrun, hmore⟩ :=
      hsafe.completes replyMonitor_open hpart ((answered_replyMonitor _ _).2 hans)
    exact ⟨more, exit, hrun, (answered_replyMonitor _ _).1 hmore⟩
  · intro calls exit hrun hans
    obtain ⟨hallowed, ⟨buf, hbuf, hreply⟩, -⟩ :=
      hsafe.runs hrun ((answered_replyMonitor _ _).2 hans)
    rw [after_replyMonitor, List.nil_append] at hbuf
    exact ⟨buf, hbuf, hreply, events_of_allowed _ hallowed⟩

/-- A private message is handled, and answered once. -/
theorem oneReply_hola : ∃ calls exit buf,
    (clientLine 4 (cstr (ascii "MSG|cami|hola\n"))).Runs calls exit ∧
      (calls.filterMap fun call => replyOf call.1) = [(4, buf)] ∧
      RepliesTo (cstr (ascii "MSG|cami|hola\n")) buf := by
  have hrecv : recvLine maxLineLen (bytesIn (ascii "MSG|cami|hola\n")) =
      .line (ascii "MSG|cami|hola\n") [] := by decide +kernel
  have hin : InBounds (cstr (ascii "MSG|cami|hola\n")) := by decide +kernel
  have h := @oneReply 4 _ _ _ hrecv hin
  obtain ⟨calls, exit, hrun, hans⟩ := h.1 [] (.here _) (List.forall_mem_nil _)
  obtain ⟨buf, hbuf, hreply, -⟩ := h.2 calls exit hrun hans
  exact ⟨calls, exit, buf, hrun, hbuf, hreply⟩

end Server

end ChatMultithread
