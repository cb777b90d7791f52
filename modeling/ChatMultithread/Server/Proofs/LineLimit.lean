import ChatMultithread.Server.Proofs.Replies
import ChatMultithread.Server.Proofs.Quit

/-!
# Lines that do not fit the buffer

`recv_line` stops when its buffer is full, and the thread takes what it has for a line. The rest of
an overlong line is then a line of its own. As long as every line fits, the thread processes the
client's lines one by one.
-/

namespace ChatMultithread

open Lib

namespace Server

/-- The runs of the loop of `client_thread_main` on an input: the buffers that it has given to its
    tests, in order. The server may stop anywhere, the loop ends where its body breaks, and behind
    an access outside the parser's array anything may follow. -/
inductive Processed (sockfd : Int) : List Recv → List Bytes → Prop
  | stop (input : List Recv) : Processed sockfd input []
  | line {input rest : List Recv} {raw : Bytes} {lines : List Bytes}
      {calls : List (Sigma Op.Resp)} {exit : LoopExit}
      (hrecv : recvLine maxLineLen input = .line raw rest)
      (hrun : (clientLine sockfd (cstr raw)).Runs calls exit)
      (hexit : exit = .break_ → lines = []) (hrest : Processed sockfd rest lines) :
      Processed sockfd input (raw :: lines)
  | undefined {input rest : List Recv} {raw : Bytes} {lines : List Bytes}
      (hrecv : recvLine maxLineLen input = .line raw rest) (hout : ¬ InBounds (cstr raw))
      (hrest : Processed sockfd rest lines) : Processed sockfd input (raw :: lines)

/-- What is processed of a stream is at most one command for every newline in it, and every command
    starts where a line does. -/
structure OneCommandPerLine (stream : Bytes) (lines : List Bytes) : Prop where
  count : lines.length ≤ stream.count msgTerminatorChar
  starts : ∀ pre raw post, lines = pre ++ raw :: post →
    pre.flatten = [] ∨ pre.flatten.getLast? = some msgTerminatorChar

/-- A line starts behind `pre`. -/
def AtLineStart (pre : Bytes) : Prop := pre = [] ∨ pre.getLast? = some msgTerminatorChar

/-- One of the lines is `QUIT`. -/
def QuitWithin (pre : Bytes) : Prop := ∃ a b, pre = a ++ quitLine ++ b ∧ AtLineStart a

/-- Every line up to the first line `QUIT` fits the buffer with its newline, and so does the part
    of a line at the end of the stream. -/
def LinesFit (stream : Bytes) : Prop :=
  ∀ pre line rest, stream = pre ++ line ++ rest → AtLineStart pre → ¬ QuitWithin pre →
    msgTerminatorChar ∉ line → line.length < maxLineLen - 1

variable {sockfd : Int} {stream body rest : Bytes}

/-! ## The first line -/

theorem atLineStart_append {pre : Bytes} (hpre : AtLineStart pre) (body : Bytes) :
    AtLineStart (body ++ msgTerminatorChar :: pre) := by
  refine .inr ?_
  rcases hpre with rfl | hpre
  · simp
  · rw [List.append_cons, List.getLast?_append, hpre]
    rfl

/-- What stands in front of a line is nothing or begins with the first line. -/
theorem eq_append_of_atLineStart {pre rest' : Bytes} (hbody : msgTerminatorChar ∉ body)
    (heq : body ++ msgTerminatorChar :: rest = pre ++ rest') (hpre : AtLineStart pre) :
    pre = [] ∨ ∃ pre', pre = body ++ msgTerminatorChar :: pre' ∧ AtLineStart pre' ∧
      rest = pre' ++ rest' := by
  have hshort : ∀ c, body = pre ++ c → pre = [] := by
    intro c hc
    refine hpre.resolve_right fun hlast => hbody ?_
    rw [hc]
    exact List.mem_append_left _ (List.mem_of_getLast? hlast)
  rcases List.append_eq_append_iff.1 heq with ⟨a, ha, hrest⟩ | ⟨c, hc, -⟩
  · cases a with
    | nil =>
      rw [List.append_nil] at ha
      exact .inl (hshort [] (by rw [ha, List.append_nil]))
    | cons b pre' =>
      obtain ⟨rfl, hrest'⟩ := List.cons.inj hrest
      refine .inr ⟨pre', ha, ?_, hrest'⟩
      rcases List.eq_nil_or_concat pre' with rfl | ⟨pre', b, rfl⟩
      · exact .inl rfl
      · rw [List.concat_eq_append] at ha ⊢
        refine .inr ?_
        have hlast : pre.getLast? = some b := by
          rw [ha, ← List.cons_append, ← List.append_assoc, List.getLast?_concat]
        rw [List.getLast?_concat, ← hlast]
        refine hpre.resolve_left fun hnil => ?_
        rw [hnil] at hlast
        cases hlast
  · exact .inl (hshort c hc)

/-- A part of a line in front of the first newline is a part of the first line. -/
theorem length_le_of_append {line rest' : Bytes} (hline : msgTerminatorChar ∉ line)
    (heq : body ++ msgTerminatorChar :: rest = line ++ rest') : line.length ≤ body.length := by
  rcases List.append_eq_append_iff.1 heq with ⟨a, ha, hrest⟩ | ⟨c, hc, -⟩
  · cases a with
    | nil => rw [ha, List.append_nil]
    | cons b a =>
      obtain ⟨rfl, -⟩ := List.cons.inj hrest
      refine absurd ?_ hline
      rw [ha]
      exact List.mem_append_right _ List.mem_cons_self
  · rw [hc, List.length_append]
    exact Nat.le_add_right _ _

/-- `QUIT` stands in front of a line exactly when it is the first line or stands behind it. -/
theorem quitWithin_cons (hbody : msgTerminatorChar ∉ body) :
    QuitWithin (body ++ msgTerminatorChar :: rest) ↔
      body ++ [msgTerminatorChar] = quitLine ∨ QuitWithin rest := by
  have hquit : quitLine = ascii "QUIT" ++ [msgTerminatorChar] := by decide
  constructor
  · rintro ⟨a, b, heq, ha⟩
    rw [List.append_assoc] at heq
    rcases eq_append_of_atLineStart hbody heq ha with rfl | ⟨a', -, ha', hrest⟩
    · refine .inl ?_
      rw [hquit, List.nil_append, List.append_assoc, List.singleton_append] at heq
      have hfirst := strchr_append hbody rest
      rw [heq, strchr_append (by decide)] at hfirst
      rw [hquit, (Prod.mk.inj (Option.some.inj hfirst)).1]
    · exact .inr ⟨a', b, by rw [hrest, List.append_assoc], ha'⟩
  · rintro (h | ⟨a, b, rfl, ha⟩)
    · refine ⟨[], rest, ?_, .inl rfl⟩
      rw [← h]
      simp
    · exact ⟨body ++ msgTerminatorChar :: a, b, by simp, atLineStart_append ha body⟩

/-- The condition line by line. -/
theorem linesFit_cons (hbody : msgTerminatorChar ∉ body) :
    LinesFit (body ++ msgTerminatorChar :: rest) ↔
      body.length < maxLineLen - 1 ∧ (body ++ [msgTerminatorChar] = quitLine ∨ LinesFit rest) := by
  have hnone : ¬ QuitWithin [] := by
    rintro ⟨a, b, heq, -⟩
    simp [quitLine, ascii] at heq
  constructor
  · intro h
    refine ⟨h [] body (msgTerminatorChar :: rest) rfl (.inl rfl) hnone hbody, ?_⟩
    by_cases hquit : body ++ [msgTerminatorChar] = quitLine
    · exact .inl hquit
    · refine .inr fun pre line rest' heq hpre hno hline => ?_
      refine h (body ++ msgTerminatorChar :: pre) line rest' ?_ (atLineStart_append hpre body) ?_ hline
      · rw [heq]
        simp
      · rw [quitWithin_cons hbody, not_or]
        exact ⟨hquit, hno⟩
  · rintro ⟨hlen, hrest⟩ pre line rest' heq hpre hno hline
    rw [List.append_assoc] at heq
    rcases eq_append_of_atLineStart hbody heq hpre with rfl | ⟨pre', rfl, hpre', hsplit⟩
    · exact Nat.lt_of_le_of_lt (length_le_of_append hline heq) hlen
    · rw [quitWithin_cons hbody, not_or] at hno
      refine hrest.resolve_left hno.1 pre' line rest' ?_ hpre' hno.2 hline
      rw [hsplit, List.append_assoc]

/-- A stream without a newline fits when it is short. -/
theorem linesFit_of_short (hlen : stream.length < maxLineLen - 1) : LinesFit stream := by
  intro pre line rest heq _ _ _
  rw [heq, List.length_append, List.length_append] at hlen
  omega

/-- A stream that fills the buffer without a newline does not fit. -/
theorem not_linesFit_of_full {b : Bytes} (hb : msgTerminatorChar ∉ b)
    (hlen : b.length = maxLineLen - 1) : ¬ LinesFit (b ++ rest) := by
  intro h
  refine absurd (h [] b rest rfl (.inl rfl) ?_ hb) (Nat.not_lt.2 (Nat.le_of_eq hlen.symm))
  rintro ⟨a, c, heq, -⟩
  simp [quitLine, ascii] at heq

/-- What is processed line by line. -/
theorem oneCommandPerLine_cons {lines : List Bytes} (hbody : msgTerminatorChar ∉ body) :
    OneCommandPerLine (body ++ msgTerminatorChar :: rest) ((body ++ [msgTerminatorChar]) :: lines) ↔
      OneCommandPerLine rest lines := by
  have hcount : (body ++ msgTerminatorChar :: rest).count msgTerminatorChar =
      rest.count msgTerminatorChar + 1 := by
    rw [List.count_append, List.count_eq_zero.2 hbody, List.count_cons_self, Nat.zero_add]
  constructor
  · intro h
    have hle := h.count
    rw [hcount, List.length_cons] at hle
    refine ⟨Nat.le_of_succ_le_succ hle, fun pre raw post heq => ?_⟩
    rcases h.starts ((body ++ [msgTerminatorChar]) :: pre) raw post (by rw [heq]; rfl) with hs | hs
    · simp at hs
    · rcases List.eq_nil_or_concat pre.flatten with hpre | ⟨front, b, hpre⟩
      · exact .inl hpre
      · rw [List.concat_eq_append] at hpre
        rw [List.flatten_cons, hpre, ← List.append_assoc, List.getLast?_concat] at hs
        rw [hpre, List.getLast?_concat]
        exact .inr hs
  · intro h
    refine ⟨?_, fun pre raw post heq => ?_⟩
    · rw [hcount, List.length_cons]
      exact Nat.succ_le_succ h.count
    · cases pre with
      | nil => exact .inl rfl
      | cons b pre =>
        obtain ⟨rfl, heq'⟩ := List.cons.inj heq
        refine .inr ?_
        rw [List.flatten_cons]
        rcases h.starts pre raw post heq' with hs | hs
        · rw [hs, List.append_nil, List.getLast?_concat]
        · rw [List.getLast?_append, hs]
          rfl

/-! ## The loop -/

/-- A buffer that the thread reads as `QUIT` is that line. -/
theorem eq_quitLine_of_cstr {raw : Bytes} (hraw : msgTerminatorChar ∉ raw.dropLast)
    (h : cstr raw = quitLine) : raw = quitLine := by
  obtain ⟨rest, hrest⟩ := List.takeWhile_prefix (l := raw) (· ≠ (0 : UInt8))
  have hsplit : raw = quitLine ++ rest := by
    rw [← h]
    exact hrest.symm
  rcases List.eq_nil_or_concat rest with rfl | ⟨rest, b, rfl⟩
  · rw [hsplit, List.append_nil]
  · rw [hsplit, List.concat_eq_append, ← List.append_assoc, List.dropLast_concat] at hraw
    exact absurd (List.mem_append_left _ (by decide)) hraw

/-- The loop ends behind the line `QUIT`. -/
theorem quitLine_breaks {calls : List (Sigma Op.Resp)} {exit : LoopExit}
    (h : (clientLine sockfd quitLine).Runs calls exit) : exit = .break_ := by
  rw [clientLine_quitLine] at h
  cases h with
  | call session h =>
    cases session with
    | none =>
      cases h with
      | call sent h =>
        cases h
        rfl
    | some slot =>
      cases h with
      | call _ h =>
        cases h with
        | call sent h =>
          cases h
          rfl

/-- It can go on behind every other line. -/
theorem Processed.next {input rest : List Recv} {raw : Bytes} {lines : List Bytes}
    (hrecv : recvLine maxLineLen input = .line raw rest) (hquit : cstr raw = quitLine → lines = [])
    (hrest : Processed sockfd rest lines) : Processed sockfd input (raw :: lines) := by
  by_cases hin : InBounds (cstr raw)
  · have hlen := length_cstr_recvLine hrecv
    have hsafe := @clientLine_replies sockfd _ hlen hin
    obtain ⟨calls, exit, hrun, hans⟩ := hsafe.completes replyMonitor_open (.here _) trivial
    have hexit := (hsafe.runs hrun hans).2.2
    exact .line hrecv hrun (fun hbreak => hquit (hexit.1 hbreak)) hrest
  · exact .undefined hrecv hin hrest

/-- A full buffer without a newline is processed, and so is what stands behind it. -/
theorem Processed.full {b rest : Bytes} {lines : List Bytes} (hb : msgTerminatorChar ∉ b)
    (hlen : b.length = maxLineLen - 1)
    (hrest : Processed sockfd (bytesIn rest) lines) :
    Processed sockfd (bytesIn (b ++ rest)) (b :: lines) := by
  have hnext : nextFrame msgTerminatorChar (maxLineLen - 1) (b ++ rest) = some (b, rest) := by
    rw [← hlen]
    exact nextFrame_of_not_mem hb rest
  refine Processed.next (by rw [recvLine_bytesIn, hnext]) (fun hquit => absurd ?_ hb) hrest
  have hmem : msgTerminatorChar ∈ cstr b := by
    rw [hquit]
    decide
  exact (List.takeWhile_prefix _).subset hmem

/-- A line that fits is processed. -/
theorem Processed.fits {lines : List Bytes} (hbody : msgTerminatorChar ∉ body)
    (hlen : body.length < maxLineLen - 1) (hquit : body ++ [msgTerminatorChar] ≠ quitLine)
    (hrest : Processed sockfd (bytesIn rest) lines) :
    Processed sockfd (bytesIn (body ++ msgTerminatorChar :: rest))
      ((body ++ [msgTerminatorChar]) :: lines) := by
  refine Processed.next (by rw [recvLine_bytesIn, nextFrame_of_terminated hbody hlen])
    (fun hcstr => absurd (eq_quitLine_of_cstr ?_ hcstr) hquit) hrest
  rw [List.dropLast_concat]
  exact hbody

/-- An overlong line is processed as more than one command, or without having ended. -/
theorem not_oneCommandPerLine_full {b rest : Bytes} (hb : msgTerminatorChar ∉ b)
    (hlen : b.length = maxLineLen - 1) :
    ∃ lines, Processed sockfd (bytesIn (b ++ rest)) lines ∧
      ¬ OneCommandPerLine (b ++ rest) lines := by
  cases hnext : nextFrame msgTerminatorChar (maxLineLen - 1) rest with
  | none =>
    obtain ⟨hrest, -⟩ := nextFrame_eq_none hnext
    refine ⟨[b], .full hb hlen (.stop _), fun h => ?_⟩
    have hcount := h.count
    rw [List.count_append, List.count_eq_zero.2 hb, List.count_eq_zero.2 hrest,
      List.length_singleton] at hcount
    exact absurd hcount (by decide)
  | some p =>
    obtain ⟨raw, rest'⟩ := p
    have hraw : recvLine maxLineLen (bytesIn rest) = .line raw (bytesIn rest') := by
      rw [recvLine_bytesIn, hnext]
    refine ⟨[b, raw], .full hb hlen (.next hraw (fun _ => rfl) (.stop _)), fun h => ?_⟩
    rcases h.starts [b] raw [] rfl with hs | hs
    · rw [List.flatten_singleton] at hs
      rw [hs] at hlen
      exact absurd hlen (by decide)
    · rw [List.flatten_singleton] at hs
      exact hb (List.mem_of_getLast? hs)

/-- Every run of the loop on lines that fit is well behaved. -/
theorem oneCommandPerLine_of_linesFit {input : List Recv} {lines : List Bytes}
    (h : Processed sockfd input lines) {stream : Bytes} (hinput : input = bytesIn stream)
    (hfit : LinesFit stream) : OneCommandPerLine stream lines := by
  have hstep : ∀ {input rest : List Recv} {raw : Bytes} {lines : List Bytes} {stream : Bytes},
      recvLine maxLineLen input = .line raw rest → input = bytesIn stream → LinesFit stream →
      (cstr raw = quitLine → lines = []) →
      (∀ {stream}, rest = bytesIn stream → LinesFit stream → OneCommandPerLine stream lines) →
      OneCommandPerLine stream (raw :: lines) := by
    intro input rest raw lines stream hrecv hinput hfit hquit ih
    rw [hinput, recvLine_bytesIn] at hrecv
    cases hnext : nextFrame msgTerminatorChar (maxLineLen - 1) stream with
    | none =>
      rw [hnext] at hrecv
      cases hrecv
    | some p =>
      obtain ⟨b, rest'⟩ := p
      rw [hnext] at hrecv
      cases hrecv
      obtain ⟨rfl, ⟨hraw, hlen⟩ | ⟨body, rfl, hbody, hlen⟩⟩ := nextFrame_eq_some hnext
      · exact absurd hfit (not_linesFit_of_full hraw hlen)
      · rw [List.append_assoc, List.singleton_append] at hfit ⊢
        rw [oneCommandPerLine_cons hbody]
        rcases ((linesFit_cons hbody).1 hfit).2 with h | h
        · rw [hquit (by rw [h]; decide)]
          exact ⟨Nat.zero_le _, fun pre raw post heq => by simp at heq⟩
        · exact ih rfl h
  induction h generalizing stream with
  | stop input => exact ⟨Nat.zero_le _, fun pre raw post heq => by simp at heq⟩
  | line hrecv hrun hexit hrest ih =>
    refine hstep hrecv hinput hfit (fun hquit => hexit ?_) ih
    rw [hquit] at hrun
    exact quitLine_breaks hrun
  | undefined hrecv hout hrest ih =>
    refine hstep hrecv hinput hfit (fun hquit => absurd ?_ hout) ih
    rw [hquit]
    decide +kernel

/-- The thread processes at most one command for every line of a stream, and starts each at the
    start of a line, exactly when every line that it can come to fits its buffer. -/
theorem oneCommandPerLine_iff (sockfd : Int) (stream : Bytes) :
    (∀ lines, Processed sockfd (bytesIn stream) lines → OneCommandPerLine stream lines) ↔
      LinesFit stream := by
  constructor
  · intro h
    induction hn : stream.length using Nat.strong_induction_on generalizing stream with
    | _ n ih =>
      cases hnext : nextFrame msgTerminatorChar (maxLineLen - 1) stream with
      | none => exact linesFit_of_short (nextFrame_eq_none hnext).2
      | some p =>
        obtain ⟨b, rest⟩ := p
        obtain ⟨rfl, ⟨hb, hlen⟩ | ⟨body, rfl, hbody, hlen⟩⟩ := nextFrame_eq_some hnext
        · obtain ⟨lines, hlines, hnot⟩ := @not_oneCommandPerLine_full sockfd b rest hb hlen
          exact absurd (h lines hlines) hnot
        · rw [List.append_assoc, List.singleton_append] at h hn ⊢
          refine (linesFit_cons hbody).2 ⟨hlen, ?_⟩
          by_cases hquit : body ++ [msgTerminatorChar] = quitLine
          · exact .inl hquit
          · refine .inr (ih rest.length ?_ rest (fun lines hlines => ?_) rfl)
            · rw [← hn, List.length_append, List.length_cons]
              omega
            · exact (oneCommandPerLine_cons hbody).1 (h _ (.fits hbody hlen hquit hlines))
  · intro hfit lines hlines
    exact oneCommandPerLine_of_linesFit hlines rfl hfit

/-- The end of an overlong line is taken for the command `QUIT`. -/
theorem overlong_quits :
    ¬ ∀ stream lines, Processed 4 (bytesIn stream) lines → OneCommandPerLine stream lines := by
  intro h
  have hb : msgTerminatorChar ∉ List.replicate (maxLineLen - 1) (97 : UInt8) := fun hmem =>
    absurd (List.eq_of_mem_replicate hmem) (by decide)
  have hlen : (List.replicate (maxLineLen - 1) (97 : UInt8)).length = maxLineLen - 1 :=
    List.length_replicate
  have hquit : recvLine maxLineLen (bytesIn quitLine) = .line quitLine (bytesIn []) := by
    decide +kernel
  have hrun : Processed 4 (bytesIn (List.replicate (maxLineLen - 1) 97 ++ quitLine))
      [List.replicate (maxLineLen - 1) 97, quitLine] :=
    .full hb hlen (.next hquit (fun _ => rfl) (.stop _))
  rcases (h _ _ hrun).starts [List.replicate (maxLineLen - 1) 97] quitLine [] rfl with hs | hs
  · rw [List.flatten_singleton] at hs
    rw [hs] at hlen
    exact absurd hlen (by decide)
  · rw [List.flatten_singleton] at hs
    exact hb (List.mem_of_getLast? hs)

end Server

end ChatMultithread
