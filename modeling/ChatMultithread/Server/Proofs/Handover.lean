import ChatMultithread.Server.Proofs.Validity

/-!
# What `MSG_OK` says of the text

`handle_msg` builds the line for the destination in a buffer of `MAX_MSG` bytes, sends it, and
confirms. It looks neither at the length of what it has built nor at the outcome of the `send`.
-/

namespace ChatMultithread

open Lib

namespace Server

/-- A private message is confirmed only if the line for the destination was sent whole, and the
    sender gets an error if it is not confirmed. -/
structure HandedOver (x : Externs) (s : Server) (t : Thread) (msg : ParsedMessage)
    (calls : List (Sigma Op.Resp)) : Prop where
  confirmed : ∀ sent,
    ((s.sessions t.slot).sockfd, buildMsgOk maxMsg msg.arg1, sent) ∈ calls.filterMap sendOf →
    (x.findUserFd s.sessions msg.arg1,
      lineOf srvDeliver [(s.sessions t.slot).username, msg.arg2], true) ∈ calls.filterMap sendOf
  refused : (∀ sent, ((s.sessions t.slot).sockfd, buildMsgOk maxMsg msg.arg1, sent) ∉
      calls.filterMap sendOf) →
    ∃ code desc sent, ((s.sessions t.slot).sockfd, buildError maxMsg cmdMsg code desc, sent) ∈
      calls.filterMap sendOf

variable {x : Externs} {c : Conn} {t : Thread} {s s' : Server} {calls : List (Sigma Op.Resp)}
  {a : Unit}

/-- What `handle_msg` sends. -/
theorem sends_handleMsg {msg : ParsedMessage} (h : Executes x c t s (handleMsg msg) calls a s') :
    if x.findUserFd s.sessions msg.arg1 < 0 then
      ∃ sent, calls.filterMap sendOf = [((s.sessions t.slot).sockfd,
        buildError maxMsg cmdMsg errUserNotFound (ascii "Usuario no existe"), sent)]
    else
      ∃ sent sent', calls.filterMap sendOf =
        [(x.findUserFd s.sessions msg.arg1,
            buildDeliver maxMsg (s.sessions t.slot).username msg.arg2, sent),
          ((s.sessions t.slot).sockfd, buildMsgOk maxMsg msg.arg1, sent')] := by
  rw [handleMsg_eq] at h
  obtain ⟨rest, rfl, hfind⟩ := executes_readSockfd.1 h
  obtain ⟨rest, target, rfl, hrest⟩ := executes_findUserFd hfind
  split at hrest
  · rename_i hdst
    obtain ⟨sent, rfl, -⟩ := executes_error hrest
    rw [if_pos hdst]
    exact ⟨sent, rfl⟩
  · rename_i hdst
    obtain ⟨rest, rfl, hdeliver⟩ := executes_readUsername.1 hrest
    obtain ⟨sent, rest, t₁, s₁, rfl, -, -, hconfirm⟩ := executes_send hdeliver
    obtain ⟨sent', rfl, -⟩ := executes_error hconfirm
    rw [if_neg hdst]
    exact ⟨sent, sent', rfl⟩

/-- The first bytes of the lines that `handle_msg` sends tell them apart. -/
theorem head_snprintf_lineOf {b : UInt8} {word : Bytes} (args : List Bytes) :
    (snprintf maxMsg (lineOf (b :: word) args)).head? = some b := by
  simp [snprintf, lineOf]

/-- What the environment has answered the sends, in their order. -/
def sendOutcomes (calls : List (Sigma Op.Resp)) : List Bool :=
  (calls.filterMap sendOf).map fun p => p.2.2

/-- A line is built whole exactly when it is shorter than the buffer. -/
theorem snprintf_eq_iff {n : Nat} (hn : 0 < n) {line : Bytes} :
    snprintf n line = line ↔ line.length < n := by
  rw [snprintf, List.take_eq_self_iff]
  omega

/-- `MSG_OK` is true exactly when there is no such destination to confirm, or the line for it fits
    the buffer and the environment lets the first `send` succeed. -/
theorem handedOver_iff {msg : ParsedMessage} (h : Executes x c t s (handleMsg msg) calls a s') :
    HandedOver x s t msg calls ↔ x.findUserFd s.sessions msg.arg1 < 0 ∨
      (sendOutcomes calls).head? = some true ∧
        (lineOf srvDeliver [(s.sessions t.slot).username, msg.arg2]).length < maxMsg := by
  have hsends := sends_handleMsg h
  have hok : (buildMsgOk maxMsg msg.arg1).head? = some 77 := head_snprintf_lineOf _
  split at hsends
  · rename_i hdst
    obtain ⟨sent, hsends⟩ := hsends
    refine iff_of_true ?_ (.inl hdst)
    have herror : (buildError maxMsg cmdMsg errUserNotFound (ascii "Usuario no existe")).head? =
        some 69 := head_snprintf_lineOf _
    constructor
    · intro sent' hmem
      rw [hsends, List.mem_singleton] at hmem
      have hbuf := congrArg (fun p => p.2.1.head?) hmem
      rw [hok, herror] at hbuf
      cases hbuf
    · intro _
      rw [hsends]
      exact ⟨_, _, sent, List.mem_cons_self⟩
  · rename_i hdst
    obtain ⟨sent, sent', hsends⟩ := hsends
    have hline : (lineOf srvDeliver [(s.sessions t.slot).username, msg.arg2]).head? = some 68 := rfl
    have hbuilt : buildDeliver maxMsg (s.sessions t.slot).username msg.arg2 =
        lineOf srvDeliver [(s.sessions t.slot).username, msg.arg2] ↔
          (lineOf srvDeliver [(s.sessions t.slot).username, msg.arg2]).length < maxMsg :=
      snprintf_eq_iff (by decide)
    have houtcome : (sendOutcomes calls).head? = some sent := by
      rw [sendOutcomes, hsends]
      rfl
    rw [houtcome, or_iff_right hdst, Option.some.injEq, ← hbuilt]
    constructor
    · intro hover
      have hmem := hover.confirmed sent' (by rw [hsends]; simp)
      rw [hsends] at hmem
      rcases List.mem_cons.1 hmem with hfirst | hsecond
      · exact ⟨(congrArg (fun p => p.2.2) hfirst).symm, (congrArg (fun p => p.2.1) hfirst).symm⟩
      · have hbuf := congrArg (fun p => p.2.1.head?) (List.mem_singleton.1 hsecond)
        rw [hline, hok] at hbuf
        cases hbuf
    · rintro ⟨rfl, hwhole⟩
      refine ⟨fun _ _ => ?_, fun hnone => absurd ?_ (hnone sent')⟩
      · rw [hsends, ← hwhole]
        exact List.mem_cons_self
      · rw [hsends]
        simp

/-- The line `MSG|cami|hola` of `ana`'s. -/
def holaMessage : ParsedMessage := ⟨.msg, ascii "cami", ascii "hola", ascii "MSG|cami|hola\n"⟩

/-- What her thread calls for it, with the outcome of the first `send`. -/
def holaCalls (sent : Bool) : List (Sigma Op.Resp) :=
  [⟨.readSockfd, (4 : Int)⟩, ⟨.findUserFd (ascii "cami"), (5 : Int)⟩, ⟨.readUsername, ascii "ana"⟩,
    ⟨.send 5 (buildDeliver maxMsg (ascii "ana") (ascii "hola")), sent⟩,
    ⟨.send 4 (buildMsgOk maxMsg (ascii "cami")), true⟩]

theorem executes_hola (sent : Bool) :
    ∃ s', Executes managerExterns 0 ⟨0, 4, .loop, none⟩ anaAndCami (handleMsg holaMessage)
      (holaCalls sent) () s' := by
  cases sent with
  | true =>
    exact ⟨_, .call 0 true rfl (.call 0 true rfl (.call 0 true rfl (.call 0 true rfl
      (.call 0 true rfl (.ret _ _ ())))))⟩
  | false =>
    exact ⟨_, .call 0 true rfl (.call 0 true rfl (.call 0 true rfl (.call 0 false rfl
      (.call 0 true rfl (.ret _ _ ())))))⟩

/-- The line is short, and it is sent. -/
theorem handedOver_hola : ∃ s', Executes managerExterns 0 ⟨0, 4, .loop, none⟩ anaAndCami
      (handleMsg holaMessage) (holaCalls true) () s' ∧
    HandedOver managerExterns anaAndCami ⟨0, 4, .loop, none⟩ holaMessage (holaCalls true) := by
  obtain ⟨s', hexec⟩ := executes_hola true
  exact ⟨s', hexec, (handedOver_iff hexec).2 (.inr ⟨rfl, by decide⟩)⟩

/-- The `send` to `cami` fails, and `ana` is told `MSG_OK|cami`. -/
theorem handedOver_failed :
    ¬ ∀ (x : Externs) (c : Conn) (t : Thread) (s : Server) (line : Bytes) (code : Int)
        (msg : ParsedMessage), isValidUsername (s.sessions t.slot).username = true →
      line.length ≤ maxMsg - 1 → parseMessage line = some (code, msg) →
      ∀ calls a s', Executes x c t s (handleMsg msg) calls a s' → HandedOver x s t msg calls := by
  intro h
  obtain ⟨s', hexec⟩ := executes_hola false
  have hparse : parseMessage (ascii "MSG|cami|hola\n") = some (0, holaMessage) := by decide +kernel
  have hover := h managerExterns 0 ⟨0, 4, .loop, none⟩ anaAndCami _ _ _ (by decide +kernel)
    (by decide +kernel) hparse _ _ _ hexec
  have hmem := hover.confirmed true (List.mem_cons_of_mem _ List.mem_cons_self)
  have hlost : ((5 : Int), lineOf srvDeliver [ascii "ana", ascii "hola"], true) ∉
      (holaCalls false).filterMap sendOf := by decide +kernel
  exact hlost hmem

end Server

end ChatMultithread
