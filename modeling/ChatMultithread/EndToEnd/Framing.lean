import ChatMultithread.Client.Commands
import ChatMultithread.Client.Register

/-!
# The stream between client and server

Both directions of a connection are streams of frames. The server's lines may be cut at the end of
the buffer they are built in, but the client's buffer ends at the same place: a line without its
newline fills it. The client's lines are never cut.
-/

namespace ChatMultithread

open Lib

/-! ## From the server to the client -/

/-- A field that a builder is given: text of one line, short enough for the `int` that `snprintf`
    returns. -/
structure PlainField (f : Bytes) : Prop where
  newline : msgTerminatorChar ∉ f
  nul : (0 : UInt8) ∉ f
  length_lt : f.length < 2 ^ 29

/-- The buffers that the `build_*` functions fill, of `MAX_MSG` bytes each. -/
inductive Built : Bytes → Prop
  | registerOk {user ip : Bytes} (huser : PlainField user) (hip : PlainField ip) :
      Built (buildRegisterOk maxMsg user ip)
  | error {op code desc : Bytes} (hop : PlainField op) (hcode : PlainField code)
      (hdesc : PlainField desc) : Built (buildError maxMsg op code desc)
  | listOk {users : Bytes} (husers : PlainField users) : Built (buildListOk maxMsg users)
  | infoOk {user ip status : Bytes} (huser : PlainField user) (hip : PlainField ip)
      (hstatus : PlainField status) : Built (buildInfoOk maxMsg user ip status)
  | statusOk {status : Bytes} (hstatus : PlainField status) : Built (buildStatusOk maxMsg status)
  | statusChanged {user status : Bytes} (huser : PlainField user) (hstatus : PlainField status) :
      Built (buildStatusChanged maxMsg user status)
  | msgOk {dst : Bytes} (hdst : PlainField dst) : Built (buildMsgOk maxMsg dst)
  | deliver {src msg : Bytes} (hsrc : PlainField src) (hmsg : PlainField msg) :
      Built (buildDeliver maxMsg src msg)
  | broadcastOk : Built (buildBroadcastOk maxMsg)
  | broadcastFrom {src msg : Bytes} (hsrc : PlainField src) (hmsg : PlainField msg) :
      Built (buildBroadcastFrom maxMsg src msg)

/-- A built buffer is a line of a word and plain fields, cut or not. -/
theorem Built.lineOf {b : Bytes} (h : Built b) :
    ∃ word args, IsWord word ∧ (∀ a ∈ args, PlainField a) ∧
      b = snprintf maxMsg (lineOf word args) := by
  have hactive : PlainField (ascii "ACTIVO") := ⟨by decide, by decide, by decide⟩
  cases h with
  | registerOk huser hip =>
    exact ⟨srvRegisterOk, _, by decide, by simp [huser, hip, hactive], rfl⟩
  | error hop hcode hdesc => exact ⟨srvError, _, by decide, by simp [hop, hcode, hdesc], rfl⟩
  | listOk husers => exact ⟨srvListOk, _, by decide, by simp [husers], rfl⟩
  | infoOk huser hip hstatus =>
    exact ⟨srvInfoOk, _, by decide, by simp [huser, hip, hstatus], rfl⟩
  | statusOk hstatus => exact ⟨srvStatusOk, _, by decide, by simp [hstatus], rfl⟩
  | statusChanged huser hstatus =>
    exact ⟨srvStatusChanged, _, by decide, by simp [huser, hstatus], rfl⟩
  | msgOk hdst => exact ⟨srvMsgOk, _, by decide, by simp [hdst], rfl⟩
  | deliver hsrc hmsg => exact ⟨srvDeliver, _, by decide, by simp [hsrc, hmsg], rfl⟩
  | broadcastOk => exact ⟨srvBroadcastOk, [], by decide, by simp, rfl⟩
  | broadcastFrom hsrc hmsg => exact ⟨srvBroadcastFrom, _, by decide, by simp [hsrc, hmsg], rfl⟩

/-- The client reads a built buffer as one line. -/
theorem Built.isFrame {b : Bytes} (h : Built b) :
    IsFrame msgTerminatorChar (maxMsgLen - 1) b := by
  obtain ⟨word, args, hword, hargs, rfl⟩ := h.lineOf
  exact isFrame_lineOf hword.terminator fun a ha => (hargs a ha).newline

/-- `strlen` finds the end of what was written. -/
theorem Built.cstr_eq {b : Bytes} (h : Built b) : cstr b = b := by
  obtain ⟨word, args, hword, hargs, rfl⟩ := h.lineOf
  apply cstr_of_not_mem
  intro hmem
  have hbody := not_mem_lineBodyOf (b := 0) (by decide) hword.nul fun a ha => (hargs a ha).nul
  rcases List.mem_append.1 (List.mem_of_mem_take hmem) with hmem | hmem
  · exact hbody hmem
  · exact absurd (List.mem_singleton.1 hmem) (by decide)

/-- The client's `recv_line` returns every frame whole. -/
theorem clientRecvLine_frame {b : Bytes} (hb : IsFrame msgTerminatorChar (maxMsgLen - 1) b)
    (more : List Recv) : clientRecvLine maxMsgLen (bytesIn b ++ more) = .line b more := by
  have hnext := hb.nextFrame []
  rw [List.append_nil] at hnext
  exact clientRecvLine_append hnext more

/-- The client reads what the builders wrote buffer by buffer, cut lines included. -/
theorem builtLines_framed {bs : List Bytes} (hbs : ∀ b ∈ bs, Built b) (more : List Recv) :
    recvLines (clientRecvLine maxMsgLen) bs.length (bytesIn (bs.map cstr).flatten ++ more) =
      some (bs, more) := by
  have hcstr : bs.map cstr = bs := by
    conv_rhs => rw [← List.map_id bs]
    exact List.map_congr_left fun b hb => (hbs b hb).cstr_eq
  rw [hcstr]
  apply recvLines_flatten
  · intro b hb more
    exact clientRecvLine_frame hb more
  · intro b hb
    exact (hbs b hb).isFrame

/-- A cut line keeps its place in front of another. -/
theorem builtLines_framed_long :
    let bs := [buildDeliver maxMsg (ascii "ana") (List.replicate 1100 97), buildBroadcastOk maxMsg]
    recvLines (clientRecvLine maxMsgLen) bs.length (bytesIn (bs.map cstr).flatten ++ []) =
      some (bs, []) := by
  have hana : PlainField (ascii "ana") := ⟨by decide, by decide, by decide⟩
  have hlong : PlainField (List.replicate 1100 97) := by
    refine ⟨fun h => ?_, fun h => ?_, ?_⟩
    · exact absurd (List.eq_of_mem_replicate h) (by decide)
    · exact absurd (List.eq_of_mem_replicate h) (by decide)
    · rw [List.length_replicate]
      decide
  intro bs
  apply builtLines_framed
  intro b hb
  rcases List.mem_cons.1 hb with hb | hb
  · rw [hb]
    exact .deliver hana hlong
  · rw [List.mem_singleton.1 hb]
    exact .broadcastOk

/-! ## From the client to the server -/

/-- What the client sends for a line of the standard input, if it sends anything. -/
def sentFor (line : Bytes) : Option Bytes :=
  match commandToProto (parseCommand (cstr line)) with
  | (.ok, buf) => some buf
  | _ => none

theorem sentFor_eq_some {line buf : Bytes} :
    sentFor line = some buf ↔ commandToProto (parseCommand (cstr line)) = (.ok, buf) := by
  unfold sentFor
  generalize commandToProto (parseCommand (cstr line)) = r
  obtain ⟨result, buf'⟩ := r
  cases result <;> simp

theorem NewlineLast.parsed {line : Bytes} (h : NewlineLast line) : Parsed (parseCommand (cstr line)) :=
  parsed_parseCommand (h.part (List.takeWhile_prefix _).isInfix)

/-- The arguments of a command that is sent are text of one line. -/
theorem Parsed.newline_wireArgs {cmd : ParsedCommand} (h : Parsed cmd) :
    ∀ a ∈ wireArgs cmd, msgTerminatorChar ∉ a := by
  have h1 := h.newline_arg1
  have h2 := h.newline_arg2
  obtain ⟨type, arg1, arg2⟩ := cmd
  cases type <;> simp_all [wireArgs]

/-- The longest command is a message to a name that fills `arg1` with a text that fills `arg2`. -/
theorem Parsed.length_wire {cmd : ParsedCommand} (h : Parsed cmd) :
    (lineOf (wireWord cmd) (wireArgs cmd)).length ≤ 936 := by
  have h1 := h.length_arg1
  have h2 := h.length_arg2
  obtain ⟨type, arg1, arg2⟩ := cmd
  simp only [maxUsernameLen, maxChatLen] at h1 h2
  have hwords : cmdList.length = 4 ∧ cmdInfo.length = 4 ∧ cmdStatus.length = 6 ∧
      cmdMsg.length = 3 ∧ cmdBroadcast.length = 9 ∧ cmdQuit.length = 4 := by decide
  cases type <;>
    simp only [lineOf, wireWord, wireArgs, List.length_append, List.flatMap_cons, List.flatMap_nil,
      List.length_cons, List.length_nil] <;>
    omega

theorem newline_wireWord (cmd : ParsedCommand) : msgTerminatorChar ∉ wireWord cmd := by
  unfold wireWord
  split <;> decide

/-- Every accepted command is one whole line of at most 936 bytes, and the server reads the
    commands line by line. -/
theorem sentLines_framed {lines : List Bytes}
    (hlines : ∀ l ∈ lines, l.length ≤ maxMsgLen - 1 ∧ NewlineLast l) (more : List Recv) :
    (∀ l ∈ lines, ∀ buf, sentFor l = some buf →
      buf = lineOf (wireWord (parseCommand (cstr l))) (wireArgs (parseCommand (cstr l))) ∧
      buf.length ≤ 936 ∧ ∃ body, buf = body ++ [msgTerminatorChar] ∧ msgTerminatorChar ∉ body) ∧
    recvLines (recvLine maxLineLen) (lines.filterMap sentFor).length
        (bytesIn (lines.filterMap sentFor).flatten ++ more) =
      some (lines.filterMap sentFor, more) := by
  have hsent : ∀ l ∈ lines, ∀ buf, sentFor l = some buf →
      buf = lineOf (wireWord (parseCommand (cstr l))) (wireArgs (parseCommand (cstr l))) ∧
      buf.length ≤ 936 ∧ ∃ body, buf = body ++ [msgTerminatorChar] ∧ msgTerminatorChar ∉ body := by
    intro l hl buf hbuf
    have hparsed := (hlines l hl).2.parsed
    obtain ⟨hline, -⟩ := commandToProto_ok hparsed (sentFor_eq_some.1 hbuf)
    refine ⟨hline, ?_, _, hline, ?_⟩
    · rw [hline]
      exact hparsed.length_wire
    · exact not_mem_lineBodyOf (by decide) (newline_wireWord _) hparsed.newline_wireArgs
  refine ⟨hsent, ?_⟩
  apply recvLines_flatten
  · intro b hb more
    exact recvLine_frame hb more
  · intro buf hbuf
    obtain ⟨l, hl, hl'⟩ := List.mem_filterMap.1 hbuf
    obtain ⟨-, hlen, body, rfl, hbody⟩ := hsent l hl buf hl'
    refine ⟨by simp, by rwa [List.dropLast_concat], Nat.le_trans hlen (by decide), .inr (by simp)⟩

/-- A message and a command that is not sent. -/
theorem sentLines_framed_hola :
    recvLines (recvLine maxLineLen) 1 (bytesIn (ascii "MSG|ana|hola\n") ++ []) =
      some ([ascii "MSG|ana|hola\n"], []) := by
  have hlines : ∀ l ∈ [ascii "/msg ana hola\n", ascii "/msg ana\n"],
      l.length ≤ maxMsgLen - 1 ∧ NewlineLast l := by decide
  have hsent : [ascii "/msg ana hola\n", ascii "/msg ana\n"].filterMap sentFor =
      [ascii "MSG|ana|hola\n"] := by decide +kernel
  have h := (sentLines_framed hlines []).2
  rw [hsent] at h
  exact h

end ChatMultithread
