import ChatMultithread.Common.Utils

/-!
# What the client shows of what it receives

`src/client/receiver_loop.c`. A received line makes exactly one call of `src/client/ui.c`, here
the event it shows; `BYE` and the end of the stream end the loop.
-/

namespace ChatMultithread

open Lib

/-- The calls of `ui_print_...`, with their arguments, and the two lines on `stderr`. -/
inductive UiEvent where
  | privateIn (src msg : Bytes)
  | broadcastIn (src msg : Bytes)
  | statusChanged (username newStatus : Bytes)
  | list (users : Bytes)
  | info (username ip status : Bytes)
  | statusOk (newStatus : Bytes)
  | msgOk (dest : Bytes)
  | broadcastOk
  | error (operation code description : Bytes)
  | disconnected
  | connectionLost
  | unknown (line : Bytes)
  deriving DecidableEq, Repr

/-- The client's `recv_line()` on all that arrives before the peer closes the connection: at the end
    of the list `recv` returns 0. It gives up where the server's goes on, when `recv` is
    interrupted. -/
def clientRecvLineLoop : Nat → Bytes → List Recv → RecvLine
  | 0, used, input => .line used input
  | _ + 1, _, [] => .closed
  | _ + 1, _, .failed :: _ => .failed
  | _ + 1, _, .interrupted :: _ => .failed
  | room + 1, used, .byte c :: rest =>
      if c = msgTerminatorChar then .line (used ++ [c]) rest
      else clientRecvLineLoop room (used ++ [c]) rest

def clientRecvLine (maxLen : Nat) (input : List Recv) : RecvLine :=
  clientRecvLineLoop (maxLen - 1) [] input

/-- `strncpy(f, tok, len - 1)` and the cut at a newline. -/
def copyField (len : Nat) (tok : Bytes) : Bytes :=
  strcspnCut msgTerminatorChar (strncpy (len - 1) tok)

/-- The first of the remaining tokens, copied, and the input of the next `strtok(NULL, ...)`.
    A missing token leaves the destination empty. -/
def takeField (len : Nat) (rest : Option Bytes) : Bytes × Option Bytes :=
  match rest.bind (strtok fieldSepChar) with
  | none => ([], none)
  | some (tok, rest) => (copyField len tok, some rest)

/-- `parse_two_fields()`, with what it leaves for a further `strtok`. -/
def parseTwoFields (rest : Option Bytes) (f1Len f2Len : Nat) : Bytes × Bytes × Option Bytes :=
  let f1 := takeField f1Len rest
  let f2 := takeField f2Len f1.2
  (f1.1, f2.1, f2.2)

/-- `parse_three_fields()`. -/
def parseThreeFields (rest : Option Bytes) (f1Len f2Len f3Len : Nat) : Bytes × Bytes × Bytes :=
  let f := parseTwoFields rest f1Len f2Len
  (f.1, f.2.1, (takeField f3Len f.2.2).1)

/-- `parse_msg_fields()`: the text is everything behind the first separator. -/
def parseMsgFields (rest : Option Bytes) (fromLen msgLen : Nat) : Bytes × Bytes :=
  match rest with
  | none => ([], [])
  | some rest =>
      match strchr fieldSepChar rest with
      | some (src, msg) =>
          (strcspnCut msgTerminatorChar
            (strncpy (if src.length < fromLen then src.length else fromLen - 1) src),
            copyField msgLen msg)
      | none => (copyField fromLen rest, [])

/-- `dispatch_message()`: what it shows, and -1 to end the thread. -/
def dispatchMessage (line : Bytes) : UiEvent × Int :=
  let typed := protoParseType (strncpy (maxMsgLen - 1) line)
  let type := typed.1
  let rest := typed.2
  if type = srvDeliver then
    let f := parseMsgFields rest maxUsernameLen maxChatLen
    (.privateIn f.1 f.2, 0)
  else if type = srvBroadcastFrom then
    let f := parseMsgFields rest maxUsernameLen maxChatLen
    (.broadcastIn f.1 f.2, 0)
  else if type = srvStatusChanged then
    let f := parseTwoFields rest maxUsernameLen 16
    (.statusChanged f.1 f.2.1, 0)
  else if type = srvListOk then
    (.list (copyField maxMsgLen (rest.getD [])), 0)
  else if type = srvInfoOk then
    let f := parseThreeFields rest maxUsernameLen 64 16
    (.info f.1 f.2.1 f.2.2, 0)
  else if type = srvStatusOk then (.statusOk (copyField 16 (rest.getD [])), 0)
  else if type = srvMsgOk then (.msgOk (copyField maxUsernameLen (rest.getD [])), 0)
  else if type = srvBroadcastOk then (.broadcastOk, 0)
  else if type = srvError then
    let f1 := takeField 64 rest
    let f2 := takeField 64 f1.2
    (.error f1.1 f2.1 (takeField 256 f2.2).1, 0)
  else if type = srvBye then (.disconnected, -1)
  else (.unknown line, 0)

/-- `receiver_loop()` while the user does not leave, for at most `fuel` lines. Behind the input the
    peer closes the connection, or the loop waits in `recv` and shows nothing more. -/
def receiverLoop (closes : Bool) : Nat → List Recv → List UiEvent
  | 0, _ => []
  | fuel + 1, input =>
      match clientRecvLine maxMsgLen input with
      | .closed => if closes then [.disconnected] else []
      | .failed => [.connectionLost]
      | .line buffer rest =>
          let shown := dispatchMessage (cstr buffer)
          if shown.2 = -1 then [shown.1] else shown.1 :: receiverLoop closes fuel rest

/-- What the client has shown when a stream of bytes has arrived, over a connection that stays open.
    Every line takes at least one byte, so the loop has ended or waits when it runs out of fuel. -/
def shownOf (stream : Bytes) : List UiEvent :=
  receiverLoop false (stream.length + 1) (bytesIn stream)

theorem clientRecvLineLoop_bytesIn (room : Nat) (used s : Bytes) :
    clientRecvLineLoop room used (bytesIn s) =
      match nextFrame msgTerminatorChar room s with
      | none => .closed
      | some (b, rest) => .line (used ++ b) (bytesIn rest) := by
  induction s generalizing room used with
  | nil => cases room <;> simp [bytesIn, clientRecvLineLoop, nextFrame]
  | cons ch s ih =>
    cases room with
    | zero => simp [bytesIn, clientRecvLineLoop, nextFrame]
    | succ room =>
      simp only [bytesIn, List.map_cons, clientRecvLineLoop, nextFrame]
      split
      · rfl
      · have := ih room (used ++ [ch])
        rw [bytesIn] at this
        rw [this]
        cases nextFrame msgTerminatorChar room s <;> simp [bytesIn]

/-- On a stream of bytes the client's `recv_line` reads frame by frame, as the server's does. -/
theorem clientRecvLine_bytesIn (maxLen : Nat) (s : Bytes) :
    clientRecvLine maxLen (bytesIn s) =
      match nextFrame msgTerminatorChar (maxLen - 1) s with
      | none => .closed
      | some (b, rest) => .line b (bytesIn rest) :=
  clientRecvLineLoop_bytesIn (maxLen - 1) [] s

/-- The lines that at most `fuel` calls of the client's `recv_line` obtain. -/
def clientLines : Nat → List Recv → List Bytes
  | 0, _ => []
  | fuel + 1, input =>
      match clientRecvLine maxMsgLen input with
      | .line buffer rest => buffer :: clientLines fuel rest
      | .closed | .failed => []

/-- The lines of a stream of bytes, each of at least one byte. -/
def linesOf (stream : Bytes) : List Bytes := clientLines stream.length (bytesIn stream)

theorem clientLines_bytesIn (fuel : Nat) (s : Bytes) :
    clientLines fuel (bytesIn s) = framesFrom msgTerminatorChar (maxMsgLen - 1) fuel s := by
  induction fuel generalizing s with
  | zero => rfl
  | succ fuel ih =>
    rw [clientLines, framesFrom, clientRecvLine_bytesIn]
    cases nextFrame msgTerminatorChar (maxMsgLen - 1) s with
    | none => rfl
    | some p => exact congrArg _ (ih p.2)

/-- A stream of frames is obtained frame by frame. -/
theorem linesOf_flatten {bs : List Bytes}
    (hbs : ∀ b ∈ bs, IsFrame msgTerminatorChar (maxMsgLen - 1) b) : linesOf bs.flatten = bs := by
  rw [linesOf, clientLines_bytesIn]
  exact frames_flatten (by decide) hbs

/-- What the loop shows of lines none of which ends it. -/
theorem receiverLoop_frames {bs : List Bytes}
    (hbs : ∀ b ∈ bs, IsFrame msgTerminatorChar (maxMsgLen - 1) b)
    (hgo : ∀ b ∈ bs, (dispatchMessage (cstr b)).2 ≠ -1) {fuel : Nat} (hfuel : bs.length < fuel) :
    receiverLoop false fuel (bytesIn bs.flatten) =
      bs.map fun b => (dispatchMessage (cstr b)).1 := by
  induction bs generalizing fuel with
  | nil =>
    obtain ⟨fuel, rfl⟩ := Nat.exists_eq_succ_of_ne_zero (Nat.ne_of_gt hfuel)
    rfl
  | cons b bs ih =>
    obtain ⟨fuel, rfl⟩ := Nat.exists_eq_succ_of_ne_zero (Nat.ne_zero_of_lt hfuel)
    have hb := hbs b List.mem_cons_self
    have hrest := ih (fun c hc => hbs c (List.mem_cons_of_mem _ hc))
      (fun c hc => hgo c (List.mem_cons_of_mem _ hc)) (Nat.lt_of_succ_lt_succ hfuel)
    rw [List.flatten_cons, receiverLoop, clientRecvLine_bytesIn, hb.nextFrame]
    simp only [if_neg (hgo b List.mem_cons_self), hrest, List.map_cons]

theorem length_le_flatten {bs : List Bytes}
    (hbs : ∀ b ∈ bs, IsFrame msgTerminatorChar (maxMsgLen - 1) b) :
    bs.length ≤ bs.flatten.length := by
  induction bs with
  | nil => exact Nat.le_refl _
  | cons b bs ih =>
    have hb := List.length_pos_of_ne_nil (hbs b List.mem_cons_self).ne_nil
    have := ih fun c hc => hbs c (List.mem_cons_of_mem _ hc)
    rw [List.flatten_cons, List.length_append, List.length_cons]
    omega

/-- The client shows one event for each line of a stream, as long as none ends the session. -/
theorem shownOf_frames {bs : List Bytes}
    (hbs : ∀ b ∈ bs, IsFrame msgTerminatorChar (maxMsgLen - 1) b)
    (hgo : ∀ b ∈ bs, (dispatchMessage (cstr b)).2 ≠ -1) :
    shownOf bs.flatten = bs.map fun b => (dispatchMessage (cstr b)).1 :=
  receiverLoop_frames hbs hgo (Nat.lt_succ_of_le (length_le_flatten hbs))

/-- The first line of a stream is shown first. -/
theorem shownOf_cons {body : Bytes} (hbody : msgTerminatorChar ∉ body)
    (hlen : body.length < maxMsgLen - 1) {e : UiEvent}
    (he : dispatchMessage (cstr (body ++ [msgTerminatorChar])) = (e, 0)) (rest : Bytes) :
    shownOf (body ++ msgTerminatorChar :: rest) =
      e :: receiverLoop false (body ++ msgTerminatorChar :: rest).length (bytesIn rest) := by
  rw [shownOf, receiverLoop, clientRecvLine_bytesIn, nextFrame_of_terminated hbody hlen]
  simp only [he]
  rfl

/-! ## Taking a line apart -/

theorem copyField_of_lt {len : Nat} {tok : Bytes} (hlen : tok.length ≤ len - 1)
    (hnl : msgTerminatorChar ∉ tok) : copyField len tok = tok := by
  rw [copyField, strncpy_of_le hlen, strcspnCut_of_not_mem hnl]

/-- A sender without a separator and a text that fits are taken apart whole. -/
theorem parseMsgFields_cons {src msg : Bytes} {fromLen msgLen : Nat} (hsep : fieldSepChar ∉ src)
    (hsrc : src.length < fromLen) (hsrcnl : msgTerminatorChar ∉ src)
    (hmsg : msg.length ≤ msgLen - 1) (hmsgnl : msgTerminatorChar ∉ msg) :
    parseMsgFields (some (src ++ fieldSepChar :: msg)) fromLen msgLen = (src, msg) := by
  simp only [parseMsgFields, strchr_append hsep, if_pos hsrc]
  rw [strncpy_of_le (Nat.le_refl _), strcspnCut_of_not_mem hsrcnl, copyField_of_lt hmsg hmsgnl]

/-- What the client shows of a line with a sender and a text. -/
theorem dispatchMessage_text {src msg : Bytes} (hsep : fieldSepChar ∉ src)
    (hsrc : src.length < maxUsernameLen) (hsrcnl : msgTerminatorChar ∉ src)
    (hmsg : msg.length ≤ maxChatLen - 1) (hmsgnl : msgTerminatorChar ∉ msg) :
    dispatchMessage
        (srvDeliver ++ fieldSepChar :: (src ++ fieldSepChar :: msg ++ [msgTerminatorChar])) =
      (.privateIn src msg, 0) ∧
    dispatchMessage
        (srvBroadcastFrom ++ fieldSepChar :: (src ++ fieldSepChar :: msg ++ [msgTerminatorChar])) =
      (.broadcastIn src msg, 0) := by
  have hfields := parseMsgFields_cons hsep hsrc hsrcnl hmsg hmsgnl
  have hlen : ∀ word : Bytes, word.length ≤ 20 →
      (word ++ fieldSepChar :: (src ++ fieldSepChar :: msg ++ [msgTerminatorChar])).length ≤
        maxMsgLen - 1 := by
    intro word hword
    simp only [maxUsernameLen, maxChatLen, maxMsgLen, maxLineLen] at *
    simp only [List.length_append, List.length_cons, List.length_nil]
    omega
  constructor
  · rw [dispatchMessage, strncpy_of_le (hlen _ (by decide)), protoParseType_cons (by decide)]
    simp only [if_true, hfields]
  · have hne : srvBroadcastFrom ≠ srvDeliver := by decide
    rw [dispatchMessage, strncpy_of_le (hlen _ (by decide)), protoParseType_cons (by decide)]
    simp only [if_neg hne, if_true, hfields]

/-- What the client shows of the answer to a private message. -/
theorem dispatchMessage_msgOk {dest : Bytes} (hdest : dest.length < maxUsernameLen)
    (hnl : msgTerminatorChar ∉ dest) :
    dispatchMessage (srvMsgOk ++ fieldSepChar :: (dest ++ [msgTerminatorChar])) =
      (.msgOk dest, 0) := by
  have hlen : (srvMsgOk ++ fieldSepChar :: (dest ++ [msgTerminatorChar])).length ≤
      maxMsgLen - 1 := by
    have hword : srvMsgOk.length = 6 := rfl
    simp only [maxUsernameLen] at hdest
    simp only [List.length_append, List.length_cons, List.length_nil, maxMsgLen, maxLineLen]
    omega
  have hne : ∀ word ∈ [srvDeliver, srvBroadcastFrom, srvStatusChanged, srvListOk, srvInfoOk,
      srvStatusOk], srvMsgOk ≠ word := by decide
  rw [dispatchMessage, strncpy_of_le hlen, protoParseType_cons (by decide)]
  simp only [List.forall_mem_cons] at hne
  simp only [if_neg hne.1, if_neg hne.2.1, if_neg hne.2.2.1, if_neg hne.2.2.2.1,
    if_neg hne.2.2.2.2.1, if_neg hne.2.2.2.2.2.1, if_true, Option.getD_some,
    copyField_of_lt (Nat.le_sub_one_of_lt hdest) hnl]

end ChatMultithread
