import ChatMultithread.Common.Builders
import ChatMultithread.EndToEnd.PrivateMessage

/-!
# Broadcasts from end to end

`/all t` goes over the wire as `BROADCAST|t`, with the text in the first argument of the command.
`handle_broadcast` sends the second one, which is empty: whatever was typed, the other users see
an empty message.
-/

namespace ChatMultithread

open Lib

/-- What the user types for a broadcast. -/
def allLine (t : Bytes) : Bytes := ascii "/all " ++ t ++ [msgTerminatorChar]

/-- The strings that the thread of `fd` hands to `broadcast_all` for a typed line. -/
def broadcastLines (answer : (o : Op) → Option o.Resp) (fd : Int) (line : Bytes) :
    Option (List Bytes) :=
  (wireOf line).bind fun wire => (serverCalls answer fd wire).map broadcastsOf

/-- The broadcasts among what a client shows of a stream. -/
def shownBroadcast (stream : Bytes) : List (Bytes × Bytes) :=
  (shownOf stream).filterMap fun
    | .broadcastIn src msg => some (src, msg)
    | _ => none

/-- A broadcast of `t` by `s` is handed on as it was typed, and shown as it was typed by every
    client that receives what was handed on. -/
structure BroadcastFaithful (answer : (o : Op) → Option o.Resp) (fd : Int) (s t : Bytes) :
    Prop where
  sent : broadcastLines answer fd (allLine t) = some [lineOf srvBroadcastFrom [s, t]]
  shown : ∀ bs, broadcastLines answer fd (allLine t) = some bs →
    shownBroadcast bs.flatten = [(s, t)]

variable {s t : Bytes} {answer : (o : Op) → Option o.Resp} {fd : Int}

theorem wireOf_allLine (ht : Sendable t) :
    wireOf (allLine t) = some (cmdBroadcast ++ fieldSepChar :: t ++ [msgTerminatorChar]) := by
  have hlen : cmdBroadcast.length + t.length + 2 < maxMsgLen := by
    have hword : cmdBroadcast.length = 9 := rfl
    have htl := ht.length_le
    simp only [maxChatLen, maxMsgLen, maxLineLen] at *
    omega
  have hline : allLine t = [] ++ ascii "/all" ++ ([32] ++ (t ++ [msgTerminatorChar])) := by
    rw [allLine, show ascii "/all " = ascii "/all" ++ [32] from rfl]
    simp
  rw [wireOf, hline, parseCommand_allText (List.forall_mem_nil _) blanks_space ht (.inr rfl)]
  simp only [commandToProto, ht.ne_nil, if_false, protoBroadcast, protoBuild_one hlen]

/-- The parser puts the text into the first argument. -/
theorem lineMessage_broadcast (ht : Sendable t) (hsep : fieldSepChar ∉ t) (hesc : escapeChar ∉ t) :
    let line := cmdBroadcast ++ fieldSepChar :: t ++ [msgTerminatorChar]
    InBounds line ∧ lineMessage line = ⟨.broadcast, t, [], line⟩ := by
  apply lineMessage_one (show ∀ b ∈ cmdBroadcast, marks.Plain b by decide +kernel)
  intro b hb
  refine ⟨?_, ?_, ?_⟩ <;> rintro rfl
  · exact ht.newline hb
  · exact hesc hb
  · exact hsep hb

/-- What is handed to `broadcast_all` for a typed line. -/
theorem broadcastLines_allLine (hans : Answers answer fd s) (ht : Sendable t)
    (hsep : fieldSepChar ∉ t) (hesc : escapeChar ∉ t) :
    broadcastLines answer fd (allLine t) = some [buildBroadcastFrom maxMsg s []] := by
  obtain ⟨hin, hmsg⟩ := lineMessage_broadcast ht hsep hesc
  have hcmd : lineCommand (cmdBroadcast ++ fieldSepChar :: t ++ [msgTerminatorChar]) =
      .broadcast := by
    rw [← lineMessage_type, hmsg]
  have htl := ht.length_le
  have hword : cmdBroadcast.length = 9 := rfl
  simp only [maxChatLen] at htl
  have hnl : msgTerminatorChar ∉ cmdBroadcast ++ fieldSepChar :: t := by
    have hw : msgTerminatorChar ∉ cmdBroadcast := by decide
    simp only [List.mem_append, List.mem_cons, not_or]
    exact ⟨hw, by decide, ht.newline⟩
  have hnul : (0 : UInt8) ∉ cmdBroadcast ++ fieldSepChar :: t := by
    have hw : (0 : UInt8) ∉ cmdBroadcast := by decide
    simp only [List.mem_append, List.mem_cons, not_or]
    exact ⟨hw, by decide, ht.nul⟩
  have hlen : (cmdBroadcast ++ fieldSepChar :: t).length < maxLineLen - 1 := by
    simp only [List.length_append, List.length_cons, maxLineLen]
    omega
  obtain ⟨pre, -, hbroad, hexec⟩ := hans.exec_clientLine fd
    (cmdBroadcast ++ fieldSepChar :: t ++ [msgTerminatorChar])
    (by simp only [List.length_append, List.length_cons, List.length_nil, maxMsg, maxLineLen]
        omega)
    (by simp [cmdBroadcast, ascii]) (by simp [cmdBroadcast, ascii]) (by rw [hcmd]; decide)
  have hhandle : (handlerOf ⟨.broadcast, t, [],
        cmdBroadcast ++ fieldSepChar :: t ++ [msgTerminatorChar]⟩).exec answer =
      some ([.readSockfd, .readUsername, .broadcastAll (buildBroadcastFrom maxMsg s []),
        .send fd (buildBroadcastOk maxMsg)], ()) := by
    simp only [handlerOf, handleBroadcast_eq, sendIgnored_eq]
    simp [Prog.exec, hans.sockfd, hans.username, hans.broadcastAll, hans.send]
  rw [broadcastLines, wireOf_allLine ht, Option.bind_some, serverCalls_line hnl hnul hlen, hexec,
    if_pos hin, hmsg, hhandle]
  unfold broadcastsOf at hbroad ⊢
  simp [List.filterMap_append, hbroad]

/-- No broadcast arrives as it was typed: whatever the text is, an empty one is handed on. -/
theorem broadcast_not_faithful (hs : ShortName s) (ht : Sendable t) (hsep : fieldSepChar ∉ t)
    (hesc : escapeChar ∉ t) (hans : Answers answer fd s) :
    broadcastLines answer fd (allLine t) = some [lineOf srvBroadcastFrom [s, []]] ∧
      ¬ BroadcastFaithful answer fd s t := by
  have hlen : (lineOf srvBroadcastFrom [s, []]).length < maxMsg := by
    have hword : srvBroadcastFrom.length = 14 := rfl
    have hsl := hs.length_lt
    simp only [maxUsernameLen] at hsl
    simp only [lineOf, List.flatMap_cons, List.flatMap_nil, List.length_append, List.length_cons,
      List.length_nil, maxMsg, maxLineLen]
    omega
  have hsent : broadcastLines answer fd (allLine t) = some [lineOf srvBroadcastFrom [s, []]] := by
    have hline : buildBroadcastFrom maxMsg s [] = lineOf srvBroadcastFrom [s, []] := by
      rw [buildBroadcastFrom, ← srvBroadcastFrom, snprintf_of_lt hlen]
    rw [broadcastLines_allLine hans ht hsep hesc, hline]
  refine ⟨hsent, fun h => ?_⟩
  have hline := List.head_eq_of_cons_eq (Option.some.inj (hsent.symm.trans h.sent))
  have htext : t = [] := by simpa [lineOf] using hline
  exact ht.ne_nil htext

theorem broadcast_not_faithful_hola :
    broadcastLines (twoUsers 4 (ascii "ana") 5 (ascii "cami")) 4 (allLine (ascii "hola")) =
        some [lineOf srvBroadcastFrom [ascii "ana", []]] ∧
      ¬ BroadcastFaithful (twoUsers 4 (ascii "ana") 5 (ascii "cami")) 4 (ascii "ana")
        (ascii "hola") :=
  broadcast_not_faithful ⟨by decide, by decide⟩
    ⟨by decide, by decide, by decide, by decide, by decide +kernel, by decide +kernel⟩ (by decide)
    (by decide)
    (answers_twoUsers _ _ _ _)

/-- `ana` types `/all hola`, and everybody is shown an empty message of hers. -/
theorem broadcast_hola :
    ¬ ∀ (s t : Bytes) (answer : (o : Op) → Option o.Resp) (fd : Int), ShortName s → Sendable t →
      fieldSepChar ∉ t → escapeChar ∉ t → Answers answer fd s →
      BroadcastFaithful answer fd s t := by
  intro h
  have hsent : broadcastLines (twoUsers 4 (ascii "ana") 5 (ascii "cami")) 4
      (allLine (ascii "hola")) = some [ascii "BROADCAST_FROM|ana|\n"] := by
    decide +kernel
  have hclaimed := (h (ascii "ana") (ascii "hola")
    (twoUsers 4 (ascii "ana") 5 (ascii "cami")) 4 ⟨by decide, by decide⟩
    ⟨by decide, by decide, by decide, by decide, by decide +kernel, by decide +kernel⟩ (by decide)
    (by decide)
    (answers_twoUsers _ _ _ _)).sent
  rw [hsent] at hclaimed
  exact absurd hclaimed (by decide)

end ChatMultithread
