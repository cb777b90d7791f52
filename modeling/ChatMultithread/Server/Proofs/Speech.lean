import ChatMultithread.Common.Builders
import ChatMultithread.Server.ClientThread

/-!
# What a thread may say

`lineMonitor` follows a client thread through the handling of one line. The ghost state knows the
name the thread has seen last and the descriptor it has looked up; the monitor allows the replies
to the thread's own connection, the events the command makes for others, and nothing else. Every
line is handled within it, whatever the environment answers.
-/

namespace ChatMultithread

open Lib

/-- The words of the replies. -/
def replyWords : List Bytes :=
  [srvWelcome, srvRegisterOk, srvError, srvListOk, srvInfoOk, srvStatusOk, srvMsgOk,
    srvBroadcastOk, ascii "PONG", srvBye]

theorem isWord_of_replyWords : ∀ word ∈ replyWords, IsWord word := by decide

/-- A line that asks for the session to be closed, in the spelling of the thread or of the parser,
    whatever stands behind its first field. -/
def QuitLine (line : Bytes) : Prop := line = ascii "QUIT\n" ∨ lineCommand line = .quit

/-- A reply to a thread's own connection, whose session has the name `name`: one line of the
    protocol, free of further newlines where the environment is `plain`. It confirms a
    registration only under the name the session has, and says goodbye only where the connection
    `quits`. -/
structure Reply (plain quits : Prop) (name buf : Bytes) : Prop where
  line : ∃ word args, word ∈ replyWords ∧ buf = snprintf maxMsg (lineOf word args) ∧
    (plain → ∀ a ∈ args, msgTerminatorChar ∉ a) ∧
    (word = srvRegisterOk → isValidUsername name = true ∧
      ∃ addr, args = [name, sockaddrToIpString addr, statusActive]) ∧
    (word = srvBye → quits)

/-- What the monitor knows of the session: the name that the thread has read or written last,
    the descriptor that it has looked up and not sent to yet, and the name that it has just found
    to be free. -/
structure Ghost where
  name : Bytes
  target : Option Int
  checked : Option Bytes
  deriving DecidableEq

/-- The operations of the thread at `slot` with descriptor `fd` while it handles `line`. -/
def lineMonitor (plain : Prop) (slot : Slot) (fd : Int) (line : Bytes) :
    Monitor Op Op.Resp Ghost where
  allows g
    | .sessionsFindBySockfd fd' => fd' = fd
    | .touchActivity i => i = slot
    | .addSession user fd' =>
        fd' = fd ∧ lineCommand line = .register ∧ user = field line 1 ∧
          isValidUsername user = true ∧ g.checked = some user
    | .broadcastAll buf =>
        lineCommand line = .broadcast ∧ buf = buildBroadcastFrom maxMsg g.name (field line 2)
    | .broadcastExcept buf fd' =>
        fd' = fd ∧ lineCommand line = .status ∧ isValidStatus (field line 1) = true ∧
          buf = buildStatusChanged maxMsg g.name (field line 1)
    | .setUserStatus user status =>
        lineCommand line = .status ∧ user = g.name ∧ status = field line 1 ∧
          isValidStatus status = true
    | .send fd' buf =>
        fd' = fd ∧ Reply plain (QuitLine line) g.name buf ∨
          g.target = some fd' ∧ lineCommand line = .msg ∧
            buf = buildDeliver maxMsg g.name (field line 2)
    | .undefinedBehaviour => ¬ InBounds line
    | _ => True
  answers _
    | .sessionsFindBySockfd _, r => r = some slot
    | .readSockfd, r => r = fd
    | .usernameExists user, r => plain → r = true → user = [] ∨ isValidUsername user = true
    | .findUserFd user, r => plain → 0 ≤ r → isValidUsername user = true
    | .getAllUsers _, r => plain → msgTerminatorChar ∉ r
    | .getUserInfo _, r => plain → ∀ ip status, r = some (ip, status) →
        msgTerminatorChar ∉ ip ∧ msgTerminatorChar ∉ status
    | _, _ => True
  next g
    | .readUsername, r => { g with name := r, checked := none }
    | .usernameExists user, r => { g with checked := if r then none else some user }
    | .addSession user _, _ => { g with name := user, checked := none }
    | .findUserFd _, r =>
        { g with target := if 0 ≤ r then some r else g.target, checked := none }
    | .send fd' _, _ =>
        { g with target := if g.target = some fd' then none else g.target, checked := none }
    | _, _ => { g with checked := none }

variable {plain quits : Prop} {slot : Slot} {fd : Int} {line : Bytes} {g : Ghost}

/-- A name counts as free only right after it has been found so. -/
theorem lineMonitor_checked {o : Op} {r : o.Resp} {user : Bytes}
    (h : ((lineMonitor plain slot fd line).next g o r).checked = some user) :
    (⟨o, r⟩ : Sigma Op.Resp) = ⟨.usernameExists user, false⟩ := by
  cases o
  case usernameExists user' =>
    simp only [lineMonitor] at h
    cases r
    · cases h
      rfl
    · cases h
  all_goals cases h

/-! ## Replies -/

theorem Reply.mono {quits' : Prop} {name buf : Bytes} (h : Reply plain quits name buf)
    (hquits : quits → quits') : Reply plain quits' name buf := by
  obtain ⟨word, args, hword, hbuf, hargs, hreg, hbye⟩ := h.line
  exact ⟨word, args, hword, hbuf, hargs, hreg, fun h => hquits (hbye h)⟩

theorem reply_of_plain {name word : Bytes} {args : List Bytes} (hword : word ∈ replyWords)
    (hreg : word ≠ srvRegisterOk) (hbye : word = srvBye → quits)
    (hargs : plain → ∀ a ∈ args, msgTerminatorChar ∉ a) :
    Reply plain quits name (snprintf maxMsg (lineOf word args)) :=
  ⟨word, args, hword, rfl, hargs, fun h => absurd h hreg, hbye⟩

theorem reply_word {name word : Bytes} (hword : word ∈ replyWords) (hreg : word ≠ srvRegisterOk)
    (hbye : word = srvBye → quits) : Reply plain quits name (snprintf maxMsg (lineOf word [])) :=
  reply_of_plain hword hreg hbye fun _ => List.forall_mem_nil _

theorem reply_one {name word a : Bytes} (hword : word ∈ replyWords) (hreg : word ≠ srvRegisterOk)
    (hbye : word ≠ srvBye) (ha : plain → msgTerminatorChar ∉ a) :
    Reply plain quits name (snprintf maxMsg (lineOf word [a])) :=
  reply_of_plain hword hreg (fun h => absurd h hbye) fun hp => List.forall_mem_singleton.2 (ha hp)

theorem reply_error {name op code desc : Bytes} (hop : msgTerminatorChar ∉ op)
    (hcode : msgTerminatorChar ∉ code) (hdesc : msgTerminatorChar ∉ desc) :
    Reply plain quits name (buildError maxMsg op code desc) := by
  refine reply_of_plain (by decide) (by decide) (fun h => absurd h (by decide)) fun _ => ?_
  simp only [List.forall_mem_cons]
  exact ⟨hop, hcode, hdesc, List.forall_mem_nil _⟩

theorem not_mem_newline_of_valid {u : Bytes} (h : isValidUsername u = true) :
    msgTerminatorChar ∉ u :=
  not_mem_of_isValidUsername h (by decide) (by decide)

theorem not_mem_newline_of_status {u : Bytes} (h : isValidStatus u = true) :
    msgTerminatorChar ∉ u := by
  simp only [isValidStatus, Bool.or_eq_true, beq_iff_eq] at h
  rcases h with (rfl | rfl) | rfl <;> decide

theorem reply_registerOk {name : Bytes} (h : isValidUsername name = true) (addr : InAddr) :
    Reply plain quits name (buildRegisterOk maxMsg name (sockaddrToIpString addr)) := by
  refine ⟨srvRegisterOk, _, by decide, rfl, fun _ => ?_, fun _ => ⟨h, addr, rfl⟩,
    fun h => absurd h (by decide)⟩
  simp only [List.forall_mem_cons]
  exact ⟨not_mem_newline_of_valid h, not_mem_sockaddrToIpString _ (by decide) (by decide),
    by decide, List.forall_mem_nil _⟩

/-- A reply is a frame where the environment is plain. -/
theorem Reply.isFrame (hp : plain) {name buf : Bytes} (h : Reply plain quits name buf) :
    IsFrame msgTerminatorChar (maxMsg - 1) buf := by
  obtain ⟨word, args, hword, rfl, hargs, -⟩ := h.line
  exact isFrame_lineOf (isWord_of_replyWords word hword).terminator (hargs hp)

/-! ## The handlers -/

section Handlers

/-- A reply ends every branch of a handler. -/
theorem safe_sendIgnored {buf : Bytes} (h : Reply plain (QuitLine line) g.name buf) :
    (lineMonitor plain slot fd line).Safe (fun _ _ => True) g (sendIgnored fd buf) :=
  ⟨.inl ⟨rfl, h⟩, fun _ _ => trivial⟩

theorem handleRegister_safe (hline : lineCommand line = .register) :
    (lineMonitor plain slot fd line).Safe (fun _ _ => True) g
      (handleRegister (lineMessage line)) := by
  rw [handleRegister_eq]
  refine ⟨trivial, fun fd' hfd => ?_⟩
  obtain rfl : fd' = fd := hfd
  split
  · exact safe_sendIgnored (reply_error (by decide) (by decide) (by decide))
  · rename_i hvalid
    have hname : isValidUsername (lineMessage line).arg1 = true := by simpa using hvalid
    refine ⟨trivial, fun exists_ _ => ?_⟩
    dsimp only
    split
    · exact safe_sendIgnored (reply_error (by decide) (by decide) (by decide))
    · rename_i hfree
      have hchecked : (if exists_ then none else some (lineMessage line).arg1) =
          some (lineMessage line).arg1 := if_neg hfree
      exact ⟨⟨rfl, hline, rfl, hname, hchecked⟩, fun _ _ => ⟨trivial, fun addr _ =>
        safe_sendIgnored (reply_registerOk hname addr)⟩⟩

theorem handleMsg_safe (hline : lineCommand line = .msg) :
    (lineMonitor plain slot fd line).Safe (fun _ _ => True) g (handleMsg (lineMessage line)) := by
  rw [handleMsg_eq]
  refine ⟨trivial, fun fd' hfd => ?_⟩
  obtain rfl : fd' = fd := hfd
  refine ⟨trivial, fun dstFd hdst => ?_⟩
  dsimp only
  split
  · refine safe_sendIgnored ?_
    exact reply_error (by decide) (by decide) (by decide)
  · rename_i hneg
    have hpos : 0 ≤ dstFd := Int.not_lt.1 hneg
    have htarget : ((lineMonitor plain slot fd' line).next g
        (.findUserFd (lineMessage line).arg1) dstFd).target = some dstFd := if_pos hpos
    refine ⟨trivial, fun sender _ => ⟨.inr ⟨?_, hline, rfl⟩, fun _ _ => safe_sendIgnored ?_⟩⟩
    · exact htarget
    · exact reply_one (by decide) (by decide) (by decide) fun hp =>
        not_mem_newline_of_valid (hdst hp hpos)

theorem handleBroadcast_safe (hline : lineCommand line = .broadcast) :
    (lineMonitor plain slot fd line).Safe (fun _ _ => True) g
      (handleBroadcast (lineMessage line)) := by
  rw [handleBroadcast_eq]
  refine ⟨trivial, fun fd' hfd => ⟨trivial, fun username _ => ?_⟩⟩
  obtain rfl : fd' = fd := hfd
  exact ⟨⟨hline, rfl⟩, fun _ _ =>
    safe_sendIgnored (reply_word (by decide) (by decide) fun h => absurd h (by decide))⟩

theorem handleQuit_safe (hquit : QuitLine line) :
    (lineMonitor plain slot fd line).Safe (fun _ _ => True) g handleQuit := by
  rw [handleQuit_eq]
  refine ⟨trivial, fun fd' hfd => ?_⟩
  obtain rfl : fd' = fd := hfd
  have hbye : snprintf 64 (lineOf srvBye []) = snprintf maxMsg (lineOf srvBye []) := by decide
  rw [hbye]
  exact safe_sendIgnored (reply_word (by decide) (by decide) fun _ => hquit)

theorem handleList_safe :
    (lineMonitor plain slot fd line).Safe (fun _ _ => True) g handleList := by
  rw [handleList_eq]
  refine ⟨trivial, fun users husers => ⟨trivial, fun fd' hfd => ?_⟩⟩
  obtain rfl : fd' = fd := hfd
  exact safe_sendIgnored (reply_one (by decide) (by decide) (by decide) husers)

theorem handleInfo_safe :
    (lineMonitor plain slot fd line).Safe (fun _ _ => True) g (handleInfo (lineMessage line)) := by
  rw [handleInfo_eq]
  refine ⟨trivial, fun fd' hfd => ?_⟩
  obtain rfl : fd' = fd := hfd
  refine ⟨trivial, fun exists_ hexists => ?_⟩
  dsimp only
  split
  · exact safe_sendIgnored (reply_error (by decide) (by decide) (by decide))
  · rename_i hfound
    have huser : plain → msgTerminatorChar ∉ (lineMessage line).arg1 := by
      intro hp
      rcases hexists hp (by simpa using hfound) with hnil | hvalid
      · rw [hnil]
        exact List.not_mem_nil
      · exact not_mem_newline_of_valid hvalid
    refine ⟨trivial, fun info hinfo => ?_⟩
    dsimp only
    split
    · exact safe_sendIgnored (reply_error (by decide) (by decide) (by decide))
    · rename_i ip status
      refine safe_sendIgnored
        (reply_of_plain (by decide) (by decide) (fun h => absurd h (by decide)) fun hp => ?_)
      obtain ⟨hip, hstatus⟩ := hinfo hp ip status rfl
      simp only [List.forall_mem_cons]
      exact ⟨huser hp, hip, hstatus, List.forall_mem_nil _⟩

theorem handleStatus_safe (hline : lineCommand line = .status) :
    (lineMonitor plain slot fd line).Safe (fun _ _ => True) g
      (handleStatus (lineMessage line)) := by
  rw [handleStatus_eq]
  refine ⟨trivial, fun fd' hfd => ?_⟩
  obtain rfl : fd' = fd := hfd
  split
  · exact safe_sendIgnored (reply_error (by decide) (by decide) (by decide))
  · rename_i hvalid
    have hstatus : isValidStatus (lineMessage line).arg1 = true := by simpa using hvalid
    refine ⟨trivial, fun username _ => ⟨⟨hline, rfl, rfl, hstatus⟩, fun _ _ => ?_⟩⟩
    refine ⟨.inl ⟨rfl, ?_⟩, fun _ _ => ⟨trivial, fun username _ => ?_⟩⟩
    · exact reply_one (by decide) (by decide) (by decide) fun _ =>
        not_mem_newline_of_status hstatus
    · exact ⟨⟨rfl, hline, hstatus, rfl⟩, fun _ _ => trivial⟩

theorem handlerOf_safe :
    (lineMonitor plain slot fd line).Safe (fun _ _ => True) g (handlerOf (lineMessage line)) := by
  have htype := lineMessage_type line
  unfold handlerOf
  split
  case h_1 h => exact handleRegister_safe (htype.symm.trans h)
  case h_2 => exact handleList_safe
  case h_3 => exact handleInfo_safe
  case h_4 h => exact handleStatus_safe (htype.symm.trans h)
  case h_5 h => exact handleMsg_safe (htype.symm.trans h)
  case h_6 h => exact handleBroadcast_safe (htype.symm.trans h)
  case h_7 h => exact handleQuit_safe (.inr (htype.symm.trans h))
  case h_8 =>
    refine ⟨trivial, fun fd' hfd => ?_⟩
    obtain rfl : fd' = fd := hfd
    exact safe_sendIgnored (reply_error (by decide) (by decide) (by decide))

end Handlers

/-! ## The loop body -/

theorem sendOrBreak_safe {buf : Bytes} (h : Reply plain (QuitLine line) g.name buf) :
    (lineMonitor plain slot fd line).Safe (fun _ _ => True) g (sendOrBreak fd buf) :=
  ⟨.inl ⟨rfl, h⟩, fun _ _ => trivial⟩

theorem reply_protoPending {name : Bytes} : Reply plain quits name protoPending := by
  have h : protoPending = buildError maxMsg (ascii "PROTO") (ascii "NOT_IMPLEMENTED")
      (ascii "Parser pending") := by decide
  rw [h]
  exact reply_error (by decide) (by decide) (by decide)

theorem reply_welcome {name : Bytes} :
    Reply plain quits name (ascii "WELCOME|CHAT/1.0\n") := by
  have h : ascii "WELCOME|CHAT/1.0\n" = snprintf maxMsg (lineOf srvWelcome [protoVersion]) := by
    decide
  rw [h]
  exact reply_one (by decide) (by decide) (by decide) fun _ => by decide

theorem lineBody_safe :
    (lineMonitor plain slot fd line).Safe (fun _ _ => True) g (lineBody fd line) := by
  apply safe_lineBody
  · intro _
    have h : ascii "PONG\n" = snprintf maxMsg (lineOf (ascii "PONG") []) := by decide
    rw [h]
    exact sendOrBreak_safe (reply_word (by decide) (by decide) fun h => absurd h (by decide))
  · intro hquit
    have h : ascii "BYE\n" = snprintf maxMsg (lineOf srvBye []) := by decide
    rw [h]
    exact ⟨.inl ⟨rfl, reply_word (by decide) (by decide) fun _ => .inl hquit⟩, fun _ _ => trivial⟩
  · exact fun hout => hout
  · exact fun _ _ _ => sendOrBreak_safe reply_protoPending
  · exact fun _ _ _ => handlerOf_safe.mono fun _ _ _ => trivial

/-- A line is handled within what the monitor allows. -/
theorem clientLine_safe (hlen : line.length < maxMsg) :
    (lineMonitor plain slot fd line).Safe (fun _ _ => True) g (clientLine fd line) := by
  apply safe_clientLine hlen
  · exact rfl
  · intro hnone
    cases hnone
  · intro slot' hslot
    obtain rfl : slot' = slot := Option.some.inj hslot
    exact ⟨rfl, fun _ _ => lineBody_safe⟩

end ChatMultithread
