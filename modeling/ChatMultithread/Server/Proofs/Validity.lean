import ChatMultithread.Server.Proofs.Replies
import ChatMultithread.Server.Sequential

/-!
# The validity predicate and the handlers

`validate_message` says which parsed messages are valid, and nothing asks it. The handlers check a
username and a status themselves; `handle_msg` leaves an empty destination to `find_user_fd`, and an
empty text to nobody.
-/

namespace ChatMultithread

open Lib

namespace Server

/-- A message has been turned down: the table is as it was, nothing went to another socket than the
    sender's, and the sender was sent one `ERROR` of the operation. -/
structure TurnedDown (s : Server) (t : Thread) (msg : ParsedMessage) (calls : List (Sigma Op.Resp))
    (s' : Server) : Prop where
  table : s'.sessions = s.sessions
  sender : ∀ call ∈ calls, SendsOnlyTo (s.sessions t.slot).sockfd call.1
  error : ∃ cmd word code desc sent, replyWordsOf msg.type = some (cmd, word) ∧
    calls.filterMap sendOf =
      [((s.sessions t.slot).sockfd, buildError maxMsg cmd code desc, sent)]

variable {x : Externs} {c : Conn} {t : Thread} {s s' : Server} {calls : List (Sigma Op.Resp)}

/-! ## Handlers are defined -/

theorem handlerOf_defined (msg : ParsedMessage) : Defined (handlerOf msg) := by
  have hsend : ∀ fd buf, Defined (sendIgnored fd buf) := fun fd buf =>
    ⟨nofun, fun _ => trivial⟩
  unfold handlerOf
  cases msg.type with
  | register =>
    rw [handleRegister_eq]
    refine ⟨nofun, fun fd => ?_⟩
    split
    · exact hsend _ _
    · refine ⟨nofun, fun exists_ => ?_⟩
      dsimp only
      split
      · exact hsend _ _
      · exact ⟨nofun, fun _ => ⟨nofun, fun addr => hsend _ _⟩⟩
  | list =>
    rw [handleList_eq]
    exact ⟨nofun, fun users => ⟨nofun, fun fd => hsend _ _⟩⟩
  | info =>
    rw [handleInfo_eq]
    refine ⟨nofun, fun fd => ⟨nofun, fun exists_ => ?_⟩⟩
    dsimp only
    split
    · exact hsend _ _
    · refine ⟨nofun, fun info => ?_⟩
      cases info <;> exact hsend _ _
  | status =>
    rw [handleStatus_eq]
    refine ⟨nofun, fun fd => ?_⟩
    split
    · exact hsend _ _
    · exact ⟨nofun, fun _ => ⟨nofun, fun _ => ⟨nofun, fun _ => ⟨nofun, fun _ => ⟨nofun,
        fun _ => trivial⟩⟩⟩⟩⟩
  | msg =>
    rw [handleMsg_eq]
    refine ⟨nofun, fun fd => ⟨nofun, fun dstFd => ?_⟩⟩
    dsimp only
    split
    · exact hsend _ _
    · exact ⟨nofun, fun _ => ⟨nofun, fun _ => hsend _ _⟩⟩
  | broadcast =>
    rw [handleBroadcast_eq]
    exact ⟨nofun, fun fd => ⟨nofun, fun _ => ⟨nofun, fun _ => hsend _ _⟩⟩⟩
  | quit =>
    rw [handleQuit_eq]
    exact ⟨nofun, fun fd => hsend _ _⟩
  | invalid => exact ⟨nofun, fun fd => hsend _ _⟩

theorem Defined.bind {α β : Type} {p : ServerProg α} (h : Defined p) {f : α → ServerProg β}
    (hf : ∀ a, Defined (f a)) : Defined (p >>= f) := by
  induction p with
  | ret a => exact hf a
  | call o k ih => exact ⟨h.1, fun r => ih r (h.2 r)⟩

theorem handleParsedMessage_defined (msg : ParsedMessage) : Defined (handleParsedMessage msg) := by
  rw [handleParsedMessage_eq]
  exact (handlerOf_defined msg).bind fun _ => trivial

/-! ## Turning down -/

/-- An `ERROR` to the sender, which is all that is left to do. -/
theorem executes_error {fd : Int} {buf : Bytes} {α : Type} {a b : α}
    (h : Executes x c t s (.call (.send fd buf) fun _ => .ret b) calls a s') :
    ∃ sent, calls = [⟨.send fd buf, sent⟩] ∧ s'.sessions = s.sessions := by
  obtain ⟨sent, rest, t₁, s₁, hcalls, htable, -, hrest⟩ := executes_send h
  obtain ⟨rfl, -, rfl⟩ := executes_ret.1 hrest
  exact ⟨sent, hcalls, htable⟩

/-- What `handle_register` does with an invalid name, and `handle_status` with an invalid status. -/
theorem turnedDown_invalid {msg : ParsedMessage} {cmd word code desc : Bytes} {a b : Int}
    (hwords : replyWordsOf msg.type = some (cmd, word))
    (h : Executes x c t s (.call .readSockfd fun fd =>
      .call (.send fd (buildError maxMsg cmd code desc)) fun _ => .ret b) calls a s') :
    TurnedDown s t msg calls s' := by
  obtain ⟨rest, rfl, hrest⟩ := executes_readSockfd.1 h
  obtain ⟨sent, rfl, htable⟩ := executes_error hrest
  refine ⟨htable, ?_, cmd, word, code, desc, sent, hwords, rfl⟩
  intro call hcall
  rcases List.mem_cons.1 hcall with rfl | hcall
  · trivial
  · obtain rfl := List.mem_singleton.1 hcall
    rfl

theorem handleMsg_bind (msg : ParsedMessage) (b : Int) :
    (handleMsg msg >>= fun _ => .ret b : ServerProg Int) =
      .call .readSockfd fun fd => .call (.findUserFd msg.arg1) fun dstFd =>
        if dstFd < 0 then
          .call (.send fd
            (buildError maxMsg cmdMsg errUserNotFound (ascii "Usuario no existe"))) fun _ => .ret b
        else .call .readUsername fun sender =>
          .call (.send dstFd (buildDeliver maxMsg sender msg.arg2)) fun _ =>
            .call (.send fd (buildMsgOk maxMsg msg.arg1)) fun _ => .ret b := by
  rw [handleMsg_eq, Prog.call_bind]
  refine congrArg _ (funext fun fd => ?_)
  rw [Prog.call_bind]
  refine congrArg _ (funext fun dstFd => ?_)
  split <;> rfl

/-- `handle_msg` turns a message down exactly when it does not find the destination. -/
theorem turnedDown_msg_iff {msg : ParsedMessage} (htype : msg.type = .msg) {a b : Int}
    (h : Executes x c t s (handleMsg msg >>= fun _ => .ret b) calls a s') :
    TurnedDown s t msg calls s' ↔ x.findUserFd s.sessions msg.arg1 < 0 := by
  rw [handleMsg_bind] at h
  obtain ⟨rest, rfl, hfind⟩ := executes_readSockfd.1 h
  obtain ⟨rest, target, rfl, hrest⟩ := executes_findUserFd hfind
  split at hrest
  · rename_i hdst
    obtain ⟨sent, rfl, htable⟩ := executes_error hrest
    refine iff_of_true ⟨htable, ?_, cmdMsg, srvMsgOk, _, _, sent, ?_, rfl⟩ hdst
    · intro call hcall
      simp only [List.mem_cons, List.not_mem_nil, or_false] at hcall
      rcases hcall with rfl | rfl | rfl
      · trivial
      · trivial
      · rfl
    · rw [htype]
      rfl
  · -- the line for the destination and the confirmation are two strings, and neither is an error
    rename_i hdst
    obtain ⟨rest, rfl, hdeliver⟩ := executes_readUsername.1 hrest
    obtain ⟨sent, rest, t₁, s₁, rfl, -, -, hconfirm⟩ := executes_send hdeliver
    obtain ⟨sent', rfl, -⟩ := executes_error hconfirm
    refine iff_of_false ?_ hdst
    intro hdown
    obtain ⟨cmd, word, code, desc, sent₀, -, hsends⟩ := hdown.error
    have hlength : 2 = 1 := congrArg List.length hsends
    omega

/-- A message that `validate_message` does not accept is turned down, except that a private message
    with an empty text is delivered to a destination that exists. -/
theorem turnedDown_iff {msg : ParsedMessage} (hinvalid : validateMessage msg = false)
    (hempty : ∀ sessions, x.findUserFd sessions [] < 0) :
    (∃ calls a s', Executes x c t s (handleParsedMessage msg) calls a s') ∧
      ∀ calls a s', Executes x c t s (handleParsedMessage msg) calls a s' →
        (TurnedDown s t msg calls s' ↔
          ¬ (msg.type = .msg ∧ msg.arg2 = [] ∧ 0 ≤ x.findUserFd s.sessions msg.arg1)) := by
  refine ⟨(handleParsedMessage_defined msg).executes t s, ?_⟩
  intro calls a s' h
  rw [handleParsedMessage_eq] at h
  unfold handlerOf at h
  cases htype : msg.type
  case register =>
    simp only [htype] at h
    have hname : (!isValidUsername msg.arg1) = true := by
      simpa [validateMessage, htype] using hinvalid
    have hwords : replyWordsOf msg.type = some (cmdRegister, srvRegisterOk) := by
      rw [htype]
      rfl
    rw [handleRegister_eq] at h
    simp only [hname, if_true, sendIgnored_eq, Prog.call_bind, Prog.ret_bind] at h
    exact iff_of_true (turnedDown_invalid hwords h) (fun h => by cases h.1)
  case status =>
    simp only [htype] at h
    have hstatus : (!isValidStatus msg.arg1) = true := by
      simpa [validateMessage, htype] using hinvalid
    have hwords : replyWordsOf msg.type = some (cmdStatus, srvStatusOk) := by
      rw [htype]
      rfl
    rw [handleStatus_eq] at h
    simp only [hstatus, if_true, sendIgnored_eq, Prog.call_bind, Prog.ret_bind] at h
    exact iff_of_true (turnedDown_invalid hwords h) (fun h => by cases h.1)
  case msg =>
    simp only [htype] at h
    have hargs : msg.arg1 = [] ∨ msg.arg2 = [] := by
      by_contra hne
      obtain ⟨h1, h2⟩ := not_or.1 hne
      simp [validateMessage, htype, List.length_pos_iff, h1, h2] at hinvalid
    rw [turnedDown_msg_iff htype h]
    rcases hargs with h1 | h2
    · rw [h1]
      have := hempty s.sessions
      omega
    · simp only [h2, true_and, not_le]
  all_goals
    rw [validateMessage, htype] at hinvalid
    cases hinvalid

theorem managerExterns_findUserFd_nil (sessions : Sessions) :
    managerExterns.findUserFd sessions [] < 0 := by
  have hnone : sessionsFindByUsername sessions [] = none := if_pos rfl
  simp only [managerExterns, hnone]
  decide

/-- A server with two users, `ana` behind 4 and `cami` behind 5. -/
def anaAndCami : Server :=
  { serverInit 60 with
    fds := Function.update (Function.update (fun _ => none) 4 (some 0)) 5 (some 1)
    sessions := Function.update (Function.update sessionsInit
        0 { newSession 4 ⟨127, 0, 0, 1⟩ 0 with username := ascii "ana", isRegistered := true })
      1 { newSession 5 ⟨127, 0, 0, 1⟩ 0 with username := ascii "cami", isRegistered := true } }

/-- `ana` sends a message without a text to nobody whom the server knows. -/
theorem turnedDown_unknownUser :
    (∃ calls a s', Executes managerExterns 0 ⟨0, 4, .loop, none⟩ anaAndCami
        (handleParsedMessage ⟨.msg, ascii "eva", [], ascii "MSG|eva|\n"⟩) calls a s') ∧
      ∀ calls a s', Executes managerExterns 0 ⟨0, 4, .loop, none⟩ anaAndCami
          (handleParsedMessage ⟨.msg, ascii "eva", [], ascii "MSG|eva|\n"⟩) calls a s' →
        TurnedDown anaAndCami ⟨0, 4, .loop, none⟩ ⟨.msg, ascii "eva", [], ascii "MSG|eva|\n"⟩
          calls s' := by
  have hnobody : managerExterns.findUserFd anaAndCami.sessions (ascii "eva") < 0 := by
    decide +kernel
  have h := @turnedDown_iff managerExterns 0 ⟨0, 4, .loop, none⟩ anaAndCami
    ⟨.msg, ascii "eva", [], ascii "MSG|eva|\n"⟩ rfl managerExterns_findUserFd_nil
  exact ⟨h.1, fun calls a s' hexec =>
    (h.2 calls a s' hexec).2 fun hfound => absurd hfound.2.2 (Int.not_le.2 hnobody)⟩

/-- `ana` sends `MSG|cami|`. -/
theorem emptyText_delivered :
    ¬ ∀ (x : Externs) (c : Conn) (t : Thread) (s : Server) (line : Bytes) (code : Int)
        (msg : ParsedMessage), parseMessage line = some (code, msg) →
      validateMessage msg = false → (∀ sessions, x.findUserFd sessions [] < 0) →
      ∀ calls a s', Executes x c t s (handleParsedMessage msg) calls a s' →
        TurnedDown s t msg calls s' := by
  intro h
  have hparse : parseMessage (ascii "MSG|cami|\n") =
      some (0, ⟨.msg, ascii "cami", [], ascii "MSG|cami|\n"⟩) := by decide +kernel
  have hfind : managerExterns.findUserFd anaAndCami.sessions (ascii "cami") = 5 := by
    decide +kernel
  obtain ⟨calls, a, s', hexec⟩ :=
    (handleParsedMessage_defined ⟨.msg, ascii "cami", [], ascii "MSG|cami|\n"⟩).executes
      (x := managerExterns) (c := 0) ⟨0, 4, .loop, none⟩ anaAndCami
  have hdown := h managerExterns 0 _ anaAndCami _ _ _ hparse rfl managerExterns_findUserFd_nil
    calls a s' hexec
  have hlost := (turnedDown_msg_iff rfl (b := 0) (by rwa [handleParsedMessage_eq] at hexec)).1 hdown
  rw [hfind] at hlost
  omega

end Server

end ChatMultithread
