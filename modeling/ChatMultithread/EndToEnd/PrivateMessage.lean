import ChatMultithread.Common.Builders
import ChatMultithread.Common.Validation
import ChatMultithread.EndToEnd.Pipeline

/-!
# Private messages from end to end

`/msg d t` reaches the screen of `d` as it was typed exactly when the text has neither a
separator nor a backslash. The sender's client escapes neither, while the server's parser takes
a separator for the end of the text and a backslash for an escape.
-/

namespace ChatMultithread

open Lib

/-- A name that fits the 32 bytes the clients keep for it. -/
structure ShortName (u : Bytes) : Prop where
  valid : isValidUsername u = true
  length_lt : u.length < maxUsernameLen

namespace ShortName

variable {u : Bytes}

theorem ne_nil (h : ShortName u) : u ≠ [] := (isValidUsername_iff.1 h.valid).1

theorem not_mem (h : ShortName u) {b : UInt8} (hb : isalnum b = false) (h95 : b ≠ 95) : b ∉ u :=
  not_mem_of_isValidUsername h.valid hb h95

theorem plain (h : ShortName u) : ∀ b ∈ u, marks.Plain b := by
  intro b hb
  refine ⟨?_, ?_, ?_⟩ <;> rintro rfl
  · exact h.not_mem (by decide) (by decide) hb
  · exact h.not_mem (by decide) (by decide) hb
  · exact h.not_mem (by decide) (by decide) hb

theorem destination (h : ShortName u) : Destination u where
  ne_nil := h.ne_nil
  length_lt := h.length_lt
  blank b hb := by
    by_contra hblank
    have hb' : b = 32 ∨ b = 9 := by simpa [isBlank, or_iff_not_imp_left] using hblank
    rcases hb' with rfl | rfl
    · exact h.not_mem (by decide) (by decide) hb
    · exact h.not_mem (by decide) (by decide) hb

end ShortName

/-! ## The line on the wire -/

/-- The fields of a line with a plain word, a plain argument and a text. -/
theorem rawFields_two {word d t : Bytes} (hword : ∀ b ∈ word, marks.Plain b)
    (hd : ∀ b ∈ d, marks.Plain b) :
    rawFields (word ++ fieldSepChar :: d ++ fieldSepChar :: t) =
      (word.map .plain, d.map .plain :: (rawFields t).1 :: (rawFields t).2) := by
  have hsep : marks.separator ≠ marks.terminator ∧ marks.separator ≠ marks.escape := by decide
  have hline : word ++ fieldSepChar :: d ++ fieldSepChar :: t =
      word ++ (marks.separator :: (d ++ (marks.separator :: t))) := by simp
  rw [hline, rawFields, tokens_append hword, tokens_separator hsep, tokens_append hd,
    tokens_separator hsep, fields_map_plain_append, fields_separator, fields_map_plain_append,
    fields_separator]
  simp [rawFields]

/-- What the server's parser takes for the text. -/
def parsedText (t : Bytes) : Bytes := text unescape (rawFields (t ++ [msgTerminatorChar])).1

/-- The line of a private message as the server's parser reads it. -/
theorem lineMessage_msg {d t : Bytes} (hd : ShortName d) :
    let line := cmdMsg ++ fieldSepChar :: d ++ fieldSepChar :: (t ++ [msgTerminatorChar])
    (InBounds line ↔ (rawFields (t ++ [msgTerminatorChar])).2 = []) ∧
      lineMessage line = ⟨.msg, d, parsedText t, line⟩ := by
  have hraw := rawFields_two (t := t ++ [msgTerminatorChar])
    (show ∀ b ∈ cmdMsg, marks.Plain b by decide +kernel) hd.plain
  refine ⟨?_, ?_⟩
  · rw [InBounds, hraw, ← List.length_eq_zero_iff]
    simp only [List.length_cons]
    omega
  · simp only [lineMessage, lineCommand, field, rawField, hraw, List.getD_cons_zero,
      List.getD_cons_succ, text_map_plain]
    rfl

theorem not_mem_parsedText {t : Bytes} (h : (0 : UInt8) ∉ t) : (0 : UInt8) ∉ parsedText t := by
  intro hmem
  have hnul : (0 : UInt8) ∉ t ++ [msgTerminatorChar] := by
    rw [List.mem_append, not_or]
    exact ⟨h, by decide⟩
  obtain ⟨tok, htok, hval⟩ := List.mem_filterMap.1 hmem
  have htok' := (mem_of_mem_field (tokens marks (t ++ [msgTerminatorChar])) tok).1 htok
  cases tok with
  | plain b =>
    cases Option.some.inj hval
    exact hnul (mem_of_mem_tokens (.inl htok'))
  | escaped e =>
    have he : unescape e = 0 := Option.some.inj hval
    have he0 : e = 0 := by
      unfold unescape at he
      split at he
      · cases he
      · exact he
    subst he0
    exact hnul (mem_of_mem_tokens (.inr htok'))
  | separator => cases hval

/-! ## The stages -/

/-- The private messages among what a client shows of a stream. -/
def shownPrivate (stream : Bytes) : List (Bytes × Bytes) :=
  (shownOf stream).filterMap fun
    | .privateIn src msg => some (src, msg)
    | _ => none

/-- The private messages that the client behind `dstFd` shows of what the thread of `fd` sends
    it for a typed line. There is no result where one of the stages does not get to its end. -/
def privateMessages (answer : (o : Op) → Option o.Resp) (fd dstFd : Int) (line : Bytes) :
    Option (List (Bytes × Bytes)) :=
  (wireOf line).bind fun wire =>
    (serverCalls answer fd wire).map fun calls => shownPrivate (sentTo dstFd calls).flatten

/-- What the user types for a private message. -/
def msgLine (d t : Bytes) : Bytes := ascii "/msg " ++ d ++ [32] ++ t ++ [msgTerminatorChar]

/-- A received line without a NUL that fits is handled as it is. -/
theorem serverCalls_line {answer : (o : Op) → Option o.Resp} {fd : Int} {body : Bytes}
    (hnl : msgTerminatorChar ∉ body) (hnul : (0 : UInt8) ∉ body)
    (hlen : body.length < maxLineLen - 1) :
    serverCalls answer fd (body ++ [msgTerminatorChar]) =
      ((clientLine fd (body ++ [msgTerminatorChar])).exec answer).map Prod.fst := by
  have hcstr : cstr (body ++ [msgTerminatorChar]) = body ++ [msgTerminatorChar] :=
    cstr_of_not_mem (by rw [List.mem_append, not_or]; exact ⟨hnul, by decide⟩)
  rw [serverCalls, recvLine_bytesIn, nextFrame_of_terminated hnl hlen]
  simp only [hcstr]

section Stages

variable {d t s : Bytes} {answer : (o : Op) → Option o.Resp} {fd dstFd : Int}

theorem wireOf_msgLine (hd : ShortName d) (ht : Sendable t) :
    wireOf (msgLine d t) =
      some (cmdMsg ++ fieldSepChar :: d ++ fieldSepChar :: t ++ [msgTerminatorChar]) := by
  have hlen : cmdMsg.length + d.length + t.length + 3 < maxMsgLen := by
    have h3 : cmdMsg.length = 3 := rfl
    have hdl := hd.length_lt
    have htl := ht.length_le
    simp only [maxUsernameLen, maxChatLen, maxMsgLen, maxLineLen] at *
    omega
  have hline : msgLine d t =
      [] ++ ascii "/msg" ++ ([32] ++ (d ++ ([32] ++ (t ++ [msgTerminatorChar])))) := by
    rw [msgLine, show ascii "/msg " = ascii "/msg" ++ [32] from rfl]
    simp
  rw [wireOf, hline, parseCommand_msgText (List.forall_mem_nil _) blanks_space ht (.inr rfl)
    hd.destination blanks_space]
  simp only [commandToProto, hd.ne_nil, ht.ne_nil, or_self, if_false, protoMsg,
    protoBuild_two hlen]

/-- The operations of the sender's thread for the line of a private message. -/
theorem serverCalls_msg (hans : Answers answer fd s) (hfind : answer (.findUserFd d) = some dstFd)
    (hdst : 0 ≤ dstFd) (hd : ShortName d) (ht : Sendable t) :
    ∃ pre, (∀ fd, sentTo fd pre = []) ∧
      serverCalls answer fd
          (cmdMsg ++ fieldSepChar :: d ++ fieldSepChar :: t ++ [msgTerminatorChar]) =
        if (rawFields (t ++ [msgTerminatorChar])).2 = [] then
          some (pre ++ [.readSockfd, .findUserFd d, .readUsername,
            .send dstFd (buildDeliver maxMsg s (parsedText t)), .send fd (buildMsgOk maxMsg d)])
        else none := by
  have hline : cmdMsg ++ fieldSepChar :: d ++ fieldSepChar :: t ++ [msgTerminatorChar] =
      cmdMsg ++ fieldSepChar :: d ++ fieldSepChar :: (t ++ [msgTerminatorChar]) := by simp
  obtain ⟨hbounds, hmsg⟩ := lineMessage_msg (t := t) hd
  have hcmd : lineCommand
      (cmdMsg ++ fieldSepChar :: d ++ fieldSepChar :: (t ++ [msgTerminatorChar])) = .msg := by
    rw [← lineMessage_type, hmsg]
  have hdl := hd.length_lt
  have htl := ht.length_le
  have h3 : cmdMsg.length = 3 := rfl
  simp only [maxUsernameLen, maxChatLen] at hdl htl
  have hnl : msgTerminatorChar ∉ cmdMsg ++ fieldSepChar :: d ++ fieldSepChar :: t := by
    have hword : msgTerminatorChar ∉ cmdMsg := by decide
    have hname : msgTerminatorChar ∉ d := hd.not_mem (by decide) (by decide)
    simp only [List.mem_append, List.mem_cons, not_or]
    exact ⟨⟨hword, by decide, hname⟩, by decide, ht.newline⟩
  have hnul : (0 : UInt8) ∉ cmdMsg ++ fieldSepChar :: d ++ fieldSepChar :: t := by
    have hword : (0 : UInt8) ∉ cmdMsg := by decide
    have hname : (0 : UInt8) ∉ d := hd.not_mem (by decide) (by decide)
    simp only [List.mem_append, List.mem_cons, not_or]
    exact ⟨⟨hword, by decide, hname⟩, by decide, ht.nul⟩
  have hlen : (cmdMsg ++ fieldSepChar :: d ++ fieldSepChar :: t).length < maxLineLen - 1 := by
    simp only [List.length_append, List.length_cons, maxLineLen]
    omega
  obtain ⟨pre, hsent, -, hexec⟩ := hans.exec_clientLine fd
    (cmdMsg ++ fieldSepChar :: d ++ fieldSepChar :: (t ++ [msgTerminatorChar]))
    (by simp only [List.length_append, List.length_cons, List.length_nil, maxMsg, maxLineLen]
        omega)
    (by simp [cmdMsg, ascii]) (by simp [cmdMsg, ascii]) (by rw [hcmd]; decide)
  refine ⟨pre, hsent, ?_⟩
  rw [serverCalls_line hnl hnul hlen, hline, hexec]
  by_cases hin : (rawFields (t ++ [msgTerminatorChar])).2 = []
  · have hhandle : (handlerOf ⟨.msg, d, parsedText t,
          cmdMsg ++ fieldSepChar :: d ++ fieldSepChar :: (t ++ [msgTerminatorChar])⟩).exec answer =
        some ([.readSockfd, .findUserFd d, .readUsername,
            .send dstFd (buildDeliver maxMsg s (parsedText t)), .send fd (buildMsgOk maxMsg d)],
          ()) := by
      simp only [handlerOf, handleMsg_eq, sendIgnored_eq]
      simp [Prog.exec, hans.sockfd, hfind, Int.not_lt.2 hdst, hans.username, hans.send]
    rw [if_pos hin, if_pos (hbounds.2 hin), hmsg, hhandle]
    rfl
  · rw [if_neg hin, if_neg fun h => hin (hbounds.1 h)]
    rfl

/-- The parser's text is at most one byte longer than what was typed. -/
theorem length_parsedText_le (t : Bytes) : (parsedText t).length ≤ t.length + 1 := by
  have htok := length_tokens_le (m := marks) (t ++ [msgTerminatorChar])
  have hfield := (length_field_le (tokens marks (t ++ [msgTerminatorChar]))).1
  have htext := length_text_le unescape (rawFields (t ++ [msgTerminatorChar])).1
  rw [List.length_append] at htok
  exact Nat.le_trans htext (Nat.le_trans hfield htok)

/-- The line for the recipient is not cut. -/
theorem buildDeliver_parsedText (hs : ShortName s) (ht : Sendable t) :
    buildDeliver maxMsg s (parsedText t) =
      srvDeliver ++ fieldSepChar :: (s ++ fieldSepChar :: parsedText t ++ [msgTerminatorChar]) := by
  have hline : lineOf (ascii "DELIVER") [s, parsedText t] =
      srvDeliver ++ fieldSepChar :: (s ++ fieldSepChar :: parsedText t ++ [msgTerminatorChar]) := by
    simp [lineOf, srvDeliver]
  have hlen : (srvDeliver ++ fieldSepChar ::
      (s ++ fieldSepChar :: parsedText t ++ [msgTerminatorChar])).length < maxMsg := by
    have hword : srvDeliver.length = 7 := rfl
    have hsl := hs.length_lt
    have htl := ht.length_le
    have hxl := length_parsedText_le t
    simp only [maxUsernameLen, maxChatLen] at hsl htl
    simp only [List.length_append, List.length_cons, List.length_nil, maxMsg, maxLineLen]
    omega
  rw [buildDeliver, hline, snprintf_of_lt hlen]

/-- The text up to the first newline that the parser has put into it. -/
def shownText (t : Bytes) : Bytes := (parsedText t).takeWhile (· ≠ msgTerminatorChar)

theorem shownText_split (t : Bytes) :
    ∃ rest, parsedText t ++ [msgTerminatorChar] = shownText t ++ msgTerminatorChar :: rest := by
  unfold shownText
  induction parsedText t with
  | nil => exact ⟨[], rfl⟩
  | cons b x ih =>
    by_cases hb : b = msgTerminatorChar
    · exact ⟨x ++ [msgTerminatorChar], by simp [hb]⟩
    · obtain ⟨rest, hrest⟩ := ih
      refine ⟨rest, ?_⟩
      rw [List.cons_append, hrest]
      simp [hb]

/-- It is no longer than what was typed, and shorter if a backslash was typed. -/
theorem length_shownText (ht : Sendable t) (hin : (rawFields (t ++ [msgTerminatorChar])).2 = []) :
    (shownText t).length ≤ t.length ∧ (escapeChar ∈ t → (shownText t).length < t.length) := by
  have hone : (rawFields (t ++ [msgTerminatorChar])).1 = tokens marks (t ++ [msgTerminatorChar]) :=
    fields_fst_of_not_mem (fields_eq_nil.1 hin)
  have hlen := length_takeWhile_text (m := marks) unescape rfl t ht.newline
  rw [shownText, parsedText, hone]
  exact hlen

/-- The client behind `dstFd` shows that text first. -/
theorem shownPrivate_deliver (hs : ShortName s) (ht : Sendable t)
    (hin : (rawFields (t ++ [msgTerminatorChar])).2 = []) (behind : Bytes) :
    ∃ more, shownPrivate (buildDeliver maxMsg s (parsedText t) ++ behind) =
      (s, shownText t) :: more := by
  obtain ⟨rest, hrest⟩ := shownText_split t
  have hnl : msgTerminatorChar ∉ s := hs.not_mem (by decide) (by decide)
  have hsep : fieldSepChar ∉ s := hs.not_mem (by decide) (by decide)
  have hnlx : msgTerminatorChar ∉ shownText t := not_mem_strcspnCut _ _
  have hlen : (shownText t).length ≤ maxChatLen - 1 :=
    Nat.le_trans (length_shownText ht hin).1 ht.length_le
  have hnul : (0 : UInt8) ∉ shownText t := fun h =>
    not_mem_parsedText ht.nul ((List.takeWhile_prefix _).subset h)
  have hbody : msgTerminatorChar ∉ srvDeliver ++ fieldSepChar :: (s ++ fieldSepChar :: shownText t) := by
    have hword : msgTerminatorChar ∉ srvDeliver := by decide
    simp only [List.mem_append, List.mem_cons, not_or]
    exact ⟨hword, by decide, hnl, by decide, hnlx⟩
  have hstream : buildDeliver maxMsg s (parsedText t) ++ behind =
      (srvDeliver ++ fieldSepChar :: (s ++ fieldSepChar :: shownText t)) ++
        msgTerminatorChar :: (rest ++ behind) := by
    rw [buildDeliver_parsedText hs ht]
    have hrest' : parsedText t ++ (msgTerminatorChar :: behind) =
        shownText t ++ (msgTerminatorChar :: (rest ++ behind)) := by
      have := congrArg (· ++ behind) hrest
      simpa using this
    simp [hrest']
  have hframe : (srvDeliver ++ fieldSepChar :: (s ++ fieldSepChar :: shownText t)).length <
      maxMsgLen - 1 := by
    have hword : srvDeliver.length = 7 := rfl
    have hsl := hs.length_lt
    simp only [maxUsernameLen, maxChatLen] at hsl hlen
    simp only [List.length_append, List.length_cons, maxMsgLen, maxLineLen]
    omega
  have hshow : dispatchMessage (cstr ((srvDeliver ++ fieldSepChar :: (s ++ fieldSepChar ::
      shownText t)) ++ [msgTerminatorChar])) = (.privateIn s (shownText t), 0) := by
    have hz : (0 : UInt8) ∉ (srvDeliver ++ fieldSepChar :: (s ++ fieldSepChar :: shownText t)) ++
        [msgTerminatorChar] := by
      have hword : (0 : UInt8) ∉ srvDeliver := by decide
      have hname : (0 : UInt8) ∉ s := hs.not_mem (by decide) (by decide)
      simp only [List.mem_append, List.mem_cons, List.not_mem_nil, not_or, or_false]
      exact ⟨⟨hword, by decide, hname, by decide, hnul⟩, by decide⟩
    rw [cstr_of_not_mem hz]
    have := (dispatchMessage_text hsep hs.length_lt hnl hlen hnlx).1
    simpa using this
  rw [shownPrivate, hstream, shownOf_cons hbody hframe hshow]
  exact ⟨_, rfl⟩

/-- A text without a separator and without a backslash is what the parser reads. -/
theorem parsedText_plain (ht : Sendable t) (hsep : fieldSepChar ∉ t) (hesc : escapeChar ∉ t) :
    parsedText t = t ∧ (rawFields (t ++ [msgTerminatorChar])).2 = [] := by
  have hplain : ∀ b ∈ t, marks.Plain b := by
    intro b hb
    refine ⟨?_, ?_, ?_⟩ <;> rintro rfl
    · exact ht.newline hb
    · exact hesc hb
    · exact hsep hb
  have hraw : rawFields (t ++ [msgTerminatorChar]) = (t.map .plain, []) := by
    have hend : tokens marks [msgTerminatorChar] = [] := by decide
    rw [rawFields, tokens_append hplain, hend, fields_map_plain_append, fields_nil, List.append_nil]
  exact ⟨by rw [parsedText, hraw, text_map_plain], by rw [hraw]⟩

/-- The whole stream of the recipient, where the text is plain. -/
theorem shownPrivate_plain (hs : ShortName s) (hd : ShortName d) (ht : Sendable t)
    (hsep : fieldSepChar ∉ t) (hesc : escapeChar ∉ t) (self : Bool) :
    shownPrivate (buildDeliver maxMsg s (parsedText t) :: if self then [buildMsgOk maxMsg d] else
      []).flatten = [(s, t)] := by
  have htext := (parsedText_plain ht hsep hesc).1
  have hnls : msgTerminatorChar ∉ s := hs.not_mem (by decide) (by decide)
  have hnld : msgTerminatorChar ∉ d := hd.not_mem (by decide) (by decide)
  have hdeliver : IsFrame msgTerminatorChar (maxMsgLen - 1)
      (buildDeliver maxMsg s (parsedText t)) := by
    rw [htext]
    exact isFrame_lineOf (by decide) (by simp [hnls]; exact ht.newline)
  have hok : IsFrame msgTerminatorChar (maxMsgLen - 1) (buildMsgOk maxMsg d) :=
    isFrame_lineOf (by decide) (by simp [hnld])
  have hshow : dispatchMessage (cstr (buildDeliver maxMsg s (parsedText t))) =
      (.privateIn s t, 0) := by
    have hz : (0 : UInt8) ∉ srvDeliver ++ fieldSepChar :: (s ++ fieldSepChar :: t ++
        [msgTerminatorChar]) := by
      have hword : (0 : UInt8) ∉ srvDeliver := by decide
      have hname : (0 : UInt8) ∉ s := hs.not_mem (by decide) (by decide)
      simp only [List.mem_append, List.mem_cons, List.not_mem_nil, not_or, or_false]
      exact ⟨hword, by decide, ⟨hname, by decide, ht.nul⟩, by decide⟩
    rw [buildDeliver_parsedText hs ht, htext, cstr_of_not_mem hz]
    exact (dispatchMessage_text (hs.not_mem (by decide) (by decide)) hs.length_lt hnls
      ht.length_le ht.newline).1
  have hshowOk : dispatchMessage (cstr (buildMsgOk maxMsg d)) = (.msgOk d, 0) := by
    have hline : buildMsgOk maxMsg d = srvMsgOk ++ fieldSepChar :: (d ++ [msgTerminatorChar]) := by
      have hlen : (lineOf (ascii "MSG_OK") [d]).length < maxMsg := by
        have hdl := hd.length_lt
        have hword : (ascii "MSG_OK").length = 6 := rfl
        simp only [maxUsernameLen] at hdl
        simp only [lineOf, List.flatMap_cons, List.flatMap_nil, List.length_append,
          List.length_cons, List.length_nil, maxMsg, maxLineLen]
        omega
      rw [buildMsgOk, snprintf_of_lt hlen]
      simp [lineOf, srvMsgOk]
    have hz : (0 : UInt8) ∉ srvMsgOk ++ fieldSepChar :: (d ++ [msgTerminatorChar]) := by
      have hword : (0 : UInt8) ∉ srvMsgOk := by decide
      have hname : (0 : UInt8) ∉ d := hd.not_mem (by decide) (by decide)
      simp only [List.mem_append, List.mem_cons, List.not_mem_nil, not_or, or_false]
      exact ⟨hword, by decide, hname, by decide⟩
    rw [hline, cstr_of_not_mem hz]
    exact dispatchMessage_msgOk hd.length_lt hnld
  have hbs : ∀ b ∈ buildDeliver maxMsg s (parsedText t) ::
      (if self then [buildMsgOk maxMsg d] else []),
      IsFrame msgTerminatorChar (maxMsgLen - 1) b ∧ (dispatchMessage (cstr b)).2 ≠ -1 := by
    intro b hb
    rcases List.mem_cons.1 hb with rfl | hb
    · exact ⟨hdeliver, by rw [hshow]; exact show (0 : Int) ≠ -1 by decide⟩
    · cases self with
      | false => cases hb
      | true =>
        obtain rfl := List.mem_singleton.1 hb
        exact ⟨hok, by rw [hshowOk]; exact show (0 : Int) ≠ -1 by decide⟩
  rw [shownPrivate, shownOf_frames (fun b hb => (hbs b hb).1) fun b hb => (hbs b hb).2]
  cases self
  · simp only [Bool.false_eq_true, if_false, List.map_cons, List.map_nil, hshow]
    rfl
  · simp only [if_true, List.map_cons, List.map_nil, hshow, hshowOk]
    rfl

end Stages

/-! ## Fidelity -/

section Fidelity

variable {s d t : Bytes} {answer : (o : Op) → Option o.Resp} {fd dstFd : Int}

/-- A private message of a registered sender to a registered recipient is shown to the recipient
    once, with the sender's name and the text as it was typed, exactly when the text has neither
    a separator nor a backslash. -/
theorem privateMessages_faithful_iff (hs : ShortName s) (hd : ShortName d) (ht : Sendable t)
    (hans : Answers answer fd s) (hfind : answer (.findUserFd d) = some dstFd) (hdst : 0 ≤ dstFd) :
    privateMessages answer fd dstFd (msgLine d t) = some [(s, t)] ↔
      fieldSepChar ∉ t ∧ escapeChar ∉ t := by
  obtain ⟨pre, hpre, hcalls⟩ := serverCalls_msg hans hfind hdst hd ht
  have hsent : sentTo dstFd (pre ++ [.readSockfd, .findUserFd d, .readUsername,
      .send dstFd (buildDeliver maxMsg s (parsedText t)), .send fd (buildMsgOk maxMsg d)]) =
      buildDeliver maxMsg s (parsedText t) ::
        if decide (fd = dstFd) then [buildMsgOk maxMsg d] else [] := by
    have hpre' := hpre dstFd
    unfold sentTo at hpre' ⊢
    rw [List.filterMap_append, hpre']
    by_cases hself : fd = dstFd <;> simp [hself]
  rw [privateMessages, wireOf_msgLine hd ht, Option.bind_some, hcalls]
  constructor
  · intro h
    by_cases hin : (rawFields (t ++ [msgTerminatorChar])).2 = []
    · rw [if_pos hin, Option.map_some, hsent, List.flatten_cons] at h
      obtain ⟨more, hshow⟩ := shownPrivate_deliver hs ht hin
        (if decide (fd = dstFd) then [buildMsgOk maxMsg d] else []).flatten
      rw [hshow] at h
      have hshown : shownText t = t := by
        have := List.head_eq_of_cons_eq (Option.some.inj h)
        exact (Prod.mk.inj this).2
      have hesc : escapeChar ∉ t := by
        intro hmem
        have hlt := (length_shownText ht hin).2 hmem
        rw [hshown] at hlt
        exact Nat.lt_irrefl _ hlt
      refine ⟨fun hmem => ?_, hesc⟩
      exact fields_eq_nil.1 hin
        (separator_mem_tokens (m := marks) (by decide) ht.newline hesc hmem _)
    · rw [if_neg hin] at h
      cases h
  · rintro ⟨hsep, hesc⟩
    rw [if_pos (parsedText_plain ht hsep hesc).2, Option.map_some, hsent]
    exact congrArg some (shownPrivate_plain hs hd ht hsep hesc _)

end Fidelity

theorem privateMessages_faithful_hola :
    privateMessages (twoUsers 4 (ascii "ana") 5 (ascii "cami")) 4 5
      (msgLine (ascii "cami") (ascii "hola")) = some [(ascii "ana", ascii "hola")] :=
  (privateMessages_faithful_iff ⟨by decide, by decide⟩ ⟨by decide, by decide⟩
    ⟨by decide, by decide, by decide, by decide, by decide +kernel, by decide +kernel⟩ (answers_twoUsers _ _ _ _)
    rfl (by decide)).2 ⟨by decide, by decide⟩

/-- A backslash does not reach the recipient. -/
theorem privateMessages_backslash :
    ¬ ∀ (s d t : Bytes) (answer : (o : Op) → Option o.Resp) (fd dstFd : Int), ShortName s →
      ShortName d → Sendable t → Answers answer fd s → answer (.findUserFd d) = some dstFd →
      0 ≤ dstFd → privateMessages answer fd dstFd (msgLine d t) = some [(s, t)] := by
  intro h
  have hshown : privateMessages (twoUsers 4 (ascii "ana") 5 (ascii "cami")) 4 5
      (msgLine (ascii "cami") (ascii "a\\b")) = some [(ascii "ana", ascii "ab")] := by
    decide +kernel
  have hclaimed := h (ascii "ana") (ascii "cami") (ascii "a\\b")
    (twoUsers 4 (ascii "ana") 5 (ascii "cami")) 4 5 ⟨by decide, by decide⟩ ⟨by decide, by decide⟩
    ⟨by decide, by decide, by decide, by decide, by decide +kernel, by decide +kernel⟩ (answers_twoUsers _ _ _ _)
    rfl (by decide)
  rw [hshown] at hclaimed
  exact absurd hclaimed (by decide)

end ChatMultithread
