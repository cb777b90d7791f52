import ChatMultithread.Client.Console
import ChatMultithread.Lib.Sending
import ChatMultithread.Server.Sequential

/-!
# Lines on their way into the stream

`send_line` calls `send` until the socket has taken the whole line. The handlers and the client's
`send_proto` call it once and do not look at how much was taken: their lines are whole exactly when
the first `send` takes everything.
-/

namespace ChatMultithread

open Lib

/-! ## The handlers -/

namespace Server

/-- What the calls send, where and with which success. -/
def sendsOf (calls : List (Sigma Op.Resp)) : List (Int × Bytes × Bool) := calls.filterMap sendOf

/-- The lines for one socket, one behind the other. -/
def linesTo (fd : Int) (calls : List (Sigma Op.Resp)) : Bytes :=
  ((sendsOf calls).filter fun s => s.1 = fd).flatMap fun s => s.2.1

/-- The calls with other results of their sends. -/
def answered : List (Sigma Op.Resp) → List SendResult → List (Sigma Op.Resp)
  | [], _ => []
  | ⟨.send fd buf, _⟩ :: calls, r :: rs => ⟨.send fd buf, r.ok⟩ :: answered calls rs
  | call :: calls, rs => call :: answered calls rs

/-- The sends of the calls with these results. -/
def transmissions (calls : List (Sigma Op.Resp)) (rs : List SendResult) :
    List (Transmission Int UInt8) :=
  List.zipWith (fun s r => ⟨s.1, s.2.1, r⟩) (sendsOf calls) rs

/-- The program goes on in the same way whether a send succeeds or not. -/
def IgnoresSends {α : Type} : ServerProg α → Prop
  | .ret _ => True
  | .call (.send _ _) k => k true = k false ∧ IgnoresSends (k true)
  | .call _ k => ∀ r, IgnoresSends (k r)

variable {α β : Type}

theorem ignoresSends_bind {p : ServerProg α} {f : α → ServerProg β} (hp : IgnoresSends p)
    (hf : ∀ a, IgnoresSends (f a)) : IgnoresSends (p >>= f) := by
  induction p with
  | ret a => exact hf a
  | call o k ih =>
    cases o
    case send fd buf =>
      refine ⟨?_, ih true hp.2⟩
      show (k true).bind f = (k false).bind f
      rw [hp.1]
    all_goals exact fun r => ih r (hp r)

theorem ignoresSends_sendIgnored (fd : Int) (buf : Bytes) : IgnoresSends (sendIgnored fd buf) :=
  ⟨rfl, trivial⟩

theorem ignoresSends_handlerOf (msg : ParsedMessage) : IgnoresSends (handlerOf msg) := by
  unfold handlerOf
  cases msg.type with
  | register =>
    rw [handleRegister_eq]
    intro fd
    dsimp only
    split
    · exact ignoresSends_sendIgnored _ _
    · intro exists_
      dsimp only
      split
      · exact ignoresSends_sendIgnored _ _
      · intro _ addr
        exact ignoresSends_sendIgnored _ _
  | list =>
    rw [handleList_eq]
    intro users fd
    exact ignoresSends_sendIgnored _ _
  | info =>
    rw [handleInfo_eq]
    intro fd exists_
    dsimp only
    split
    · exact ignoresSends_sendIgnored _ _
    · intro info
      dsimp only
      cases info with
      | none => exact ignoresSends_sendIgnored _ _
      | some p => exact ignoresSends_sendIgnored _ _
  | status =>
    rw [handleStatus_eq]
    intro fd
    dsimp only
    split
    · exact ignoresSends_sendIgnored _ _
    · intro username _
      exact ⟨rfl, fun _ _ => trivial⟩
  | msg =>
    rw [handleMsg_eq]
    intro fd dstFd
    dsimp only
    split
    · exact ignoresSends_sendIgnored _ _
    · intro sender
      exact ⟨rfl, ignoresSends_sendIgnored _ _⟩
  | broadcast =>
    rw [handleBroadcast_eq]
    intro fd username _
    exact ignoresSends_sendIgnored _ _
  | quit =>
    rw [handleQuit_eq]
    intro fd
    exact ignoresSends_sendIgnored _ _
  | invalid =>
    intro fd
    exact ignoresSends_sendIgnored _ _

/-- No handler looks at what `send` returns. -/
theorem ignoresSends_handleParsedMessage (msg : ParsedMessage) :
    IgnoresSends (handleParsedMessage msg) := by
  rw [handleParsedMessage_eq]
  exact ignoresSends_bind (ignoresSends_handlerOf msg) fun _ => trivial

/-- The same run with other results of its sends. -/
theorem IgnoresSends.answered {p : ServerProg α} (hp : IgnoresSends p)
    {calls : List (Sigma Op.Resp)} {a : α} (h : p.Runs calls a) (rs : List SendResult) :
    p.Runs (answered calls rs) a := by
  induction h generalizing rs with
  | ret a => exact .ret a
  | @call o k calls a r rest ih =>
    cases o
    case send fd buf =>
      have hsame : ∀ sent, k sent = k r := by
        intro sent
        cases sent <;> cases r <;> first | rfl | exact hp.1 | exact hp.1.symm
      have hk : IgnoresSends (k r) := by
        rw [← hsame true]
        exact hp.2
      cases rs with
      | nil => exact .call r (ih hk [])
      | cons r' rs =>
        show Prog.Runs _ (⟨.send fd buf, r'.ok⟩ :: Server.answered calls rs) a
        refine @Prog.Runs.call Op Op.Resp _ (.send fd buf) k _ _ r'.ok ?_
        rw [hsame]
        exact ih hk rs
    all_goals
      unfold Server.answered
      exact .call r (ih (hp r) rs)

/-- The other results change nothing in what is sent. -/
theorem sendsOf_answered {calls : List (Sigma Op.Resp)} {rs : List SendResult}
    (h : rs.length = (sendsOf calls).length) :
    (sendsOf (Server.answered calls rs)).map (·.2.2) = rs.map SendResult.ok ∧
      (sendsOf (Server.answered calls rs)).map (fun s => (s.1, s.2.1)) =
        (sendsOf calls).map fun s => (s.1, s.2.1) := by
  induction calls generalizing rs with
  | nil =>
    rw [List.length_eq_zero_iff.1 h]
    exact ⟨rfl, rfl⟩
  | cons call calls ih =>
    obtain ⟨o, r⟩ := call
    cases o
    case send fd buf =>
      cases rs with
      | nil => cases h
      | cons r' rs =>
        obtain ⟨hresults, hlines⟩ := ih (Nat.succ.inj h)
        exact ⟨congrArg (List.cons r'.ok) hresults, congrArg (List.cons (fd, buf)) hlines⟩
    all_goals
      unfold Server.answered
      exact ih h

/-- Whatever becomes of its sends, a handler sends the same lines. -/
theorem sends_anyway {msg : ParsedMessage} {calls : List (Sigma Op.Resp)} {exit : Int}
    (hrun : (handleParsedMessage msg).Runs calls exit) {rs : List SendResult}
    (h : rs.length = (sendsOf calls).length) :
    ∃ calls', (handleParsedMessage msg).Runs calls' exit ∧
      (sendsOf calls').map (·.2.2) = rs.map SendResult.ok ∧
      (sendsOf calls').map (fun s => (s.1, s.2.1)) =
        (sendsOf calls).map fun s => (s.1, s.2.1) :=
  ⟨_, (ignoresSends_handleParsedMessage msg).answered hrun rs, sendsOf_answered h⟩

/-- What one socket was sent in a run, whatever came of it. -/
theorem lines_transmissions (fd : Int) {calls : List (Sigma Op.Resp)} {rs : List SendResult}
    (h : rs.length = (sendsOf calls).length) :
    Transmission.lines fd (transmissions calls rs) = linesTo fd calls := by
  unfold Transmission.lines linesTo transmissions
  generalize sendsOf calls = sends at h ⊢
  induction sends generalizing rs with
  | nil => rfl
  | cons s sends ih =>
    cases rs with
    | nil => cases h
    | cons r rs =>
      have hrest := ih (Nat.succ.inj h)
      rw [List.zipWith_cons_cons]
      by_cases hs : s.1 = fd
      · rw [List.filter_cons_of_pos (by simpa using hs), List.filter_cons_of_pos (by simpa using hs),
          List.flatMap_cons, List.flatMap_cons, hrest]
      · rw [List.filter_cons_of_neg (by simpa using hs), List.filter_cons_of_neg (by simpa using hs),
          hrest]

/-- Where all sends have the same result. -/
theorem transmissions_replicate {calls : List (Sigma Op.Resp)} {r : SendResult} :
    transmissions calls (List.replicate (sendsOf calls).length r) =
      (sendsOf calls).map fun s => ⟨s.1, s.2.1, r⟩ := by
  unfold transmissions
  induction sendsOf calls with
  | nil => rfl
  | cons s sends ih =>
    rw [List.length_cons, List.replicate_succ, List.zipWith_cons_cons, ih, List.map_cons]

/-- In a run of a handler every socket takes its lines whole exactly when it takes all it is given
    in each call. -/
theorem stream_transmissions_iff {calls : List (Sigma Op.Resp)} {rs : List SendResult}
    (h : rs.length = (sendsOf calls).length) :
    (∀ fd, Transmission.stream fd (transmissions calls rs) = linesTo fd calls) ↔
      ∀ t ∈ transmissions calls rs, t.result.TakesAll t.line := by
  rw [← Transmission.stream_eq_lines_iff]
  apply forall_congr'
  intro fd
  rw [lines_transmissions fd h]

end Server

/-! ## The client -/

/-- What a call of the input loop sends, and with which success. -/
def inputSendOf : Sigma InputOp.Resp → Option (Bytes × Bool)
  | ⟨.send buf, r⟩ => some (buf, r)
  | _ => none

/-- `send_proto` calls `send` once. -/
theorem sendProto_once {buf : Bytes} {calls : List (Sigma InputOp.Resp)} {res : ClientResult}
    (h : (sendProto buf).Runs calls res) :
    ∃ sent, calls.filterMap inputSendOf = [(buf, sent)] ∧ (res = .ok ↔ sent = true) := by
  cases h with
  | call sent h =>
    refine ⟨sent, ?_⟩
    cases sent with
    | true =>
      cases h
      exact ⟨rfl, fun _ => rfl, fun _ => rfl⟩
    | false =>
      cases h with
      | call _ h =>
        cases h
        refine ⟨rfl, ?_, ?_⟩
        · intro hres
          cases hres
        · intro hsent
          cases hsent

/-! ## All paths -/

/-- A line on its way into its socket, or all lines of a handler, with what the sockets do: the
    results of the calls that `send_line` makes, the answers to a handler with the results of its
    sends, and the result of the send of `send_proto`. -/
inductive Sending where
  | sendLine (line : Bytes) (results : List SendResult)
  | handler (msg : ParsedMessage) (calls : List (Sigma Op.Resp)) (exit : Int)
      (rs : List SendResult) (hrun : (handleParsedMessage msg).Runs calls exit)
      (hrs : (Server.sendsOf calls).map (·.2.2) = rs.map SendResult.ok)
  | sendProto (buf : Bytes) (calls : List (Sigma InputOp.Resp)) (res : ClientResult)
      (rs : List SendResult) (hrun : (sendProto buf).Runs calls res)
      (hrs : (calls.filterMap inputSendOf).map Prod.snd = rs.map SendResult.ok)

namespace Sending

/-- Every call takes something or is interrupted. -/
def Willing : Sending → Prop
  | .sendLine _ rs | .handler _ _ _ rs _ _ | .sendProto _ _ _ rs _ _ => ∀ r ∈ rs, r.Willing

/-- The sockets take exactly the lines, once and in order; `send_line` returns 0. -/
def Whole : Sending → Prop
  | .sendLine line results => ChatMultithread.sendLine line results = (0, line)
  | .handler _ calls _ rs _ _ =>
      ∀ fd, Transmission.stream fd (Server.transmissions calls rs) = Server.linesTo fd calls
  | .sendProto buf _ _ rs _ _ => (rs.flatMap fun r => r.bytes buf) = buf

/-- Where `send` is called once for a line, it takes the whole line. -/
def AtOnce : Sending → Prop
  | .sendLine _ _ => True
  | .handler _ calls _ rs _ _ =>
      ∀ t ∈ Server.transmissions calls rs, t.result.TakesAll t.line
  | .sendProto buf _ _ rs _ _ => ∀ r ∈ rs, r.TakesAll buf

end Sending

/-- As long as no call fails, lines enter the stream whole exactly where a `send` that is not
    repeated takes all of its line. Whatever the calls do, `send_line` returns 0 exactly when the
    socket has taken the whole line, which otherwise begins with what it has taken. -/
theorem linesWhole_iff (x : Sending) :
    (x.Willing → (x.Whole ↔ x.AtOnce)) ∧
      ∀ line results, x = .sendLine line results →
        ((sendLine line results).1 = 0 ↔ (sendLine line results).2 = line) ∧
          (sendLine line results).2 <+: line := by
  refine ⟨?_, fun line results _ => sendLine_spec line results⟩
  intro hwilling
  cases x with
  | sendLine line results => exact ⟨fun _ => trivial, fun _ => sendLine_willing line hwilling⟩
  | handler msg calls exit rs hrun hrs =>
    apply Server.stream_transmissions_iff
    have hlen := congrArg List.length hrs
    rw [List.length_map, List.length_map] at hlen
    exact hlen.symm
  | sendProto buf calls res rs hrun hrs =>
    obtain ⟨sent, hsends, _⟩ := sendProto_once hrun
    rw [hsends] at hrs
    obtain ⟨r, rfl, _⟩ := List.map_eq_singleton_iff.1 hrs.symm
    show (([r] : List SendResult).flatMap fun r => r.bytes buf) = buf ↔ _
    rw [List.flatMap_singleton, SendResult.bytes_eq_iff, Sending.AtOnce, List.forall_mem_singleton]

/-- Sockets that take `n` bytes a call cut the lines of every handler that sends a longer one: it
    sends the same lines as ever. -/
theorem handler_cut {msg : ParsedMessage} {calls : List (Sigma Op.Resp)} {exit : Int}
    (hrun : (handleParsedMessage msg).Runs calls exit) {n : Nat} (hn : 0 < n)
    (hlong : ∃ s ∈ Server.sendsOf calls, n < s.2.1.length) :
    ∃ calls' rs hrun' hrs', (Server.sendsOf calls').map (fun s => (s.1, s.2.1)) =
        (Server.sendsOf calls).map (fun s => (s.1, s.2.1)) ∧
      (Sending.handler msg calls' exit rs hrun' hrs').Willing ∧
      ¬ (Sending.handler msg calls' exit rs hrun' hrs').Whole := by
  obtain ⟨calls', hrun', hrs', hlines⟩ := Server.sends_anyway hrun
    (List.length_replicate : (List.replicate (Server.sendsOf calls).length
      (SendResult.accepted n)).length = _)
  refine ⟨calls', _, hrun', hrs', hlines, ?_, ?_⟩
  · intro r hr
    rw [List.eq_of_mem_replicate hr]
    refine ⟨nofun, fun hnone => ?_⟩
    rw [SendResult.accepted.inj hnone] at hn
    exact Nat.lt_irrefl 0 hn
  · intro hwhole
    have hlen := congrArg List.length hlines
    rw [List.length_map, List.length_map] at hlen
    have hall := (Server.stream_transmissions_iff (by rw [List.length_replicate, hlen])).1 hwhole
    obtain ⟨s, hs, hcut⟩ := hlong
    have hmem : (s.1, s.2.1) ∈ (Server.sendsOf calls').map fun s => (s.1, s.2.1) := by
      rw [hlines]
      exact List.mem_map_of_mem hs
    obtain ⟨s', hs', hsame⟩ := List.mem_map.1 hmem
    rw [← hlen, Server.transmissions_replicate] at hall
    have hline : s'.2.1 = s.2.1 := congrArg Prod.snd hsame
    rw [← hline] at hcut
    obtain hempty | ⟨k, hk, hfits⟩ := hall _ (List.mem_map_of_mem hs')
    · exact Nat.not_lt_zero n (Nat.lt_of_lt_of_eq hcut (congrArg List.length hempty))
    · cases hk
      exact Nat.not_lt.2 hfits hcut

/-- The socket takes two bytes of the `BYE` that answers `QUIT`. -/
theorem bye_cut : ¬ ∀ x : Sending, x.Willing → x.Whole := by
  intro h
  have hrun : (handleParsedMessage ⟨.quit, [], [], []⟩).Runs
      [⟨.readSockfd, (4 : Int)⟩, ⟨.send 4 (snprintf 64 (lineOf srvBye [])), true⟩] 1 := by
    show Prog.Runs (.call .readSockfd fun fd : Int =>
      .call (.send fd (snprintf 64 (lineOf srvBye []))) fun _ => .ret 1 : ServerProg Int) _ 1
    apply @Prog.Runs.call Op Op.Resp Int .readSockfd _ _ _ 4
    exact @Prog.Runs.call Op Op.Resp Int (.send 4 _) _ _ _ true (.ret 1)
  have hwilling : ∀ r ∈ [SendResult.accepted 2], r.Willing := by decide
  have hcut := h (.handler _ _ _ [.accepted 2] hrun rfl) hwilling 4
  exact absurd hcut (by decide)

end ChatMultithread
