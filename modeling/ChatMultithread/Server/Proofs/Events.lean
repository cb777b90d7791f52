import ChatMultithread.Client.ReceiverLoop
import ChatMultithread.Server.Proofs.Spoken

/-!
# What the others receive of a client

An event carries the name of its sender, but the text in it is copied byte by byte, after its
escapes have been decoded. An escaped newline in the text ends the line for every recipient, and
what stands behind it is a line of the sender's making. `OneLine` is the condition on a line under
which that does not happen; where every line meets it, the lines that a client obtains are the
strings that were written to it.
-/

namespace ChatMultithread

open Lib

namespace Server

/-- The types of the events that a command makes for others. -/
def eventWords : List Bytes := [srvDeliver, srvBroadcastFrom, srvStatusChanged]

theorem isWord_of_eventWords : ∀ word ∈ eventWords, IsWord word := by decide

/-- A receiver finds an event and the name of its sender in the line. -/
def EventOf (name buf : Bytes) : Prop :=
  ∃ word ∈ eventWords, ∃ text,
    protoParseType (cstr buf) = (word, some (name ++ fieldSepChar :: text))

/-- No escape among the bytes of the third field that fit into the event stands for a newline. -/
def FreeOfNewlines (word name line : Bytes) : Prop :=
  ∀ e, .escaped e ∈ (rawField line 2).take (textRoom word name) → unescape e ≠ msgTerminatorChar

/-- The line makes no event with a newline inside, if it comes from a connection named `name`. -/
def OneLine (name line : Bytes) : Prop :=
  (lineCommand line = .msg → FreeOfNewlines srvDeliver name line) ∧
    (lineCommand line = .broadcast → FreeOfNewlines srvBroadcastFrom name line)

/-- Only such lines are received. -/
def OneLiners (s : Server) : Label → Prop
  | .client c (.line raw) => OneLine (nameOf c s.log) (cstr raw)
  | _ => True

/-- The string that an operation writes. -/
def buffer : Op → Option Bytes
  | .send _ buf | .broadcastAll buf | .broadcastExcept buf _ => some buf
  | _ => none

/-- Nobody has spoken for the server. -/
structure NotForged (s : Server) : Prop where
  /-- Every line that a client obtains with `recv_line` was written to it, and if another client's
      command has written it, it is an event with that client's name. -/
  lines : ∀ d, ∀ line ∈ linesOf (receivedBy d s.log).flatten,
    ∃ post past src aim, s.log = post ++ .delivered src aim d line :: past ∧
      ∀ c, src = .client c → c ≠ d → EventOf (nameOf c past) line
  /-- What a thread is about to write has one newline, as its last byte, unless it was cut. -/
  handed : ∀ c o buf, s.nextOp c = some o → buffer o = some buf →
    buf.length = maxMsg - 1 ∨
      ∃ body, buf = body ++ [msgTerminatorChar] ∧ msgTerminatorChar ∉ body

/-! ## Escapes -/

theorem mem_rawField {line : Bytes} {k : Nat} {t : Token UInt8} (h : t ∈ rawField line k) :
    t ∈ tokens marks line ∧ t ≠ .separator := by
  have hmem := mem_of_mem_field (tokens marks line) t
  have hsep := separator_not_mem_field (tokens marks line)
  cases k with
  | zero =>
    refine ⟨hmem.1 h, ?_⟩
    rintro rfl
    exact hsep.1 h
  | succ k =>
    rw [rawField, List.getD_eq_getElem?_getD] at h
    cases hk : (rawFields line).2[k]? with
    | none =>
      rw [hk] at h
      cases h
    | some f =>
      rw [hk, Option.getD_some] at h
      have hf := List.mem_of_getElem? hk
      refine ⟨hmem.2 f hf h, ?_⟩
      rintro rfl
      exact hsep.2 f hf h

/-- The part of the third field that fits has no newline exactly when no escape puts one there. -/
theorem freeOfNewlines_iff {word name line : Bytes} :
    FreeOfNewlines word name line ↔
      msgTerminatorChar ∉ (field line 2).take (textRoom word name) := by
  have hsep : .separator ∉ rawField line 2 := fun h => (mem_rawField h).2 rfl
  have hmem : ∀ t ∈ (rawField line 2).take (textRoom word name), t ∈ tokens marks line :=
    fun t ht => (mem_rawField (List.mem_of_mem_take ht)).1
  have hiff := terminator_mem_text (m := marks) (f := unescape) hmem
  rw [field, ← text_take unescape hsep, ← marks_terminator, hiff]
  simp only [FreeOfNewlines, marks_terminator, not_exists, not_and]

instance (word name line : Bytes) : Decidable (FreeOfNewlines word name line) :=
  decidable_of_iff _ freeOfNewlines_iff.symm

instance (name line : Bytes) : Decidable (OneLine name line) :=
  inferInstanceAs (Decidable ((_ → _) ∧ (_ → _)))

instance (s : Server) (l : Label) : Decidable (OneLiners s l) :=
  match l with
  | .client _ (.line _) => inferInstanceAs (Decidable (OneLine _ _))
  | .client _ (.go _ _) | .client _ .hangup | .acceptor _ | .monitor _ _ | .signal =>
      isTrue trivial

/-- A line without a backslash makes no newlines. -/
theorem oneLine_of_not_mem {line : Bytes} (h : escapeChar ∉ line) (name : Bytes) :
    OneLine name line := by
  have hfree : ∀ word, FreeOfNewlines word name line := by
    intro word e he
    exact absurd (escape_mem_of_mem_tokens (mem_rawField (List.mem_of_mem_take he)).1) h
  exact ⟨fun _ => hfree _, fun _ => hfree _⟩

/-! ## Frames -/

theorem not_mem_newline_of_named {name : Bytes} (h : name = [] ∨ isValidUsername name = true) :
    msgTerminatorChar ∉ name := by
  rcases h with rfl | h
  · exact List.not_mem_nil
  · exact not_mem_newline_of_valid h

theorem length_of_named {name : Bytes} (h : name = [] ∨ isValidUsername name = true) :
    name.length ≤ 32 := by
  rcases h with rfl | h
  · exact Nat.zero_le _
  · exact (isValidUsername_iff.1 h).2.1

/-- An event of a line under the condition is a frame. -/
theorem EventLine.isFrame {name line buf : Bytes} (h : EventLine name line buf)
    (hname : name = [] ∨ isValidUsername name = true) (hline : OneLine name line) :
    IsFrame msgTerminatorChar (maxMsg - 1) buf := by
  have hnl := not_mem_newline_of_named hname
  have hlen := length_of_named hname
  have hroom : ∀ word ∈ eventWords, word.length + name.length + 2 ≤ maxMsg - 2 := by
    intro word hword
    have hshort := (isWord_of_eventWords word hword).length_le
    simp only [maxMsg, maxLineLen]
    omega
  cases h with
  | deliver hcmd =>
    apply (isFrame_event_iff (by decide) hnl (hroom _ (by decide))).2
    exact freeOfNewlines_iff.1 (hline.1 hcmd)
  | broadcast hcmd =>
    apply (isFrame_event_iff (by decide) hnl (hroom _ (by decide))).2
    exact freeOfNewlines_iff.1 (hline.2 hcmd)
  | statusChanged hcmd hvalid =>
    apply (isFrame_event_iff (by decide) hnl (hroom _ (by decide))).2
    intro hmem
    exact not_mem_newline_of_status hvalid (List.mem_of_mem_take hmem)

/-- A receiver finds the type of an event in it. -/
theorem EventLine.type {name line buf : Bytes} (h : EventLine name line buf) :
    (protoParseType (cstr buf)).1 ∈ eventWords := by
  have hevent : ∀ word ∈ eventWords, ∀ args,
      (protoParseType (cstr (snprintf maxMsg (lineOf word args)))).1 ∈ eventWords := by
    intro word hword args
    rw [protoParseType_lineOf (isWord_of_eventWords word hword)]
    exact hword
  cases h with
  | deliver | broadcast | statusChanged => exact hevent _ (by decide) _

/-- A reply has none of these types. -/
theorem reply_type {plain quits : Prop} {name buf : Bytes} (h : Reply plain quits name buf) :
    (protoParseType (cstr buf)).1 ∉ eventWords := by
  obtain ⟨word, args, hword, rfl, -⟩ := h.line
  rw [protoParseType_lineOf (isWord_of_replyWords word hword)]
  have hdisjoint : ∀ word ∈ replyWords, word ∉ eventWords := by decide
  exact hdisjoint word hword

theorem EventLine.eventOf {name line buf : Bytes} (h : EventLine name line buf)
    (hname : name = [] ∨ isValidUsername name = true) : EventOf name buf := by
  have hlen := length_of_named hname
  have hnul : (0 : UInt8) ∉ name := by
    rcases hname with rfl | hvalid
    · exact List.not_mem_nil
    · exact not_mem_of_isValidUsername hvalid (by decide) (by decide)
  have hevent : ∀ word ∈ eventWords, ∀ text,
      EventOf name (snprintf maxMsg (lineOf word [name, text])) := by
    intro word hword text
    have hisword := isWord_of_eventWords word hword
    obtain ⟨text', htype⟩ := protoParseType_event hisword hnul
      (by have := hisword.length_le
          simp only [maxMsg, maxLineLen]
          omega) text
    exact ⟨word, hword, text', htype⟩
  cases h with
  | deliver | broadcast | statusChanged => exact hevent _ (by decide) _

/-- A notice of the monitor is a frame. -/
theorem isFrame_inactivityNotice {name : Bytes} (hname : name = [] ∨ isValidUsername name = true) :
    IsFrame msgTerminatorChar (maxMsg - 1) (inactivityNotice name) := by
  apply isFrame_lineOf (by decide)
  have hnl := not_mem_newline_of_named hname
  intro arg harg
  rcases List.mem_cons.1 harg with rfl | harg
  · split
    · decide
    · exact hnl
  · obtain rfl := List.mem_singleton.1 harg
    decide

/-! ## The log -/

section Log

variable {x : Externs} {log past : List Event} {c d : Conn}

theorem nameOf_valid_of_spoken (h : Justified (Spoken x) log) (c : Conn) :
    nameOf c log = [] ∨ isValidUsername (nameOf c log) = true := by
  induction log with
  | nil => exact .inl rfl
  | cons e past ih =>
    cases e with
    | named d user =>
      rw [nameOf_named]
      split
      · exact .inr h.1.1
      · exact ih h.2
    | received _ _ | delivered _ _ _ _ | closed _ _ => exact ih h.2

/-- A `REGISTER_OK` confirms the name that the connection has at that moment. -/
theorem registerOk_name {aim : Option Conn} {buf user : Bytes} (hr : x.Registry)
    (h : Spoken x past (.delivered (.client c) aim c buf)) (hok : registerOkName buf = some user) :
    user = nameOf c past ∧ isValidUsername user = true := by
  obtain ⟨huser, rest, htype⟩ := registerOkName_eq_some hok
  obtain ⟨name, hname, ⟨-, hreply⟩ | ⟨line, -, hevent⟩⟩ := h
  · obtain ⟨word, args, hword, hbuf, -, hreg, -⟩ := hreply.line
    have hisword := isWord_of_replyWords word hword
    have hwords := protoParseType_lineOf hisword args
    rw [← hbuf, htype] at hwords
    obtain ⟨hvalid, addr, rfl⟩ := hreg hwords.symm
    have hnul : (0 : UInt8) ∉ name := not_mem_of_isValidUsername hvalid (by decide) (by decide)
    have hsep : fieldSepChar ∉ name := not_mem_of_isValidUsername hvalid (by decide) (by decide)
    have hlen := (isValidUsername_iff.1 hvalid).2.1
    have hline : lineOf word [name, sockaddrToIpString addr, statusActive] =
        lineOf word [name, sockaddrToIpString addr ++ fieldSepChar :: statusActive] := by
      simp [lineOf]
    obtain ⟨text, htext⟩ := protoParseType_event hisword hnul
      (by have := hisword.length_le
          simp only [maxMsg, maxLineLen]
          omega) (sockaddrToIpString addr ++ fieldSepChar :: statusActive)
    rw [← hline, ← hbuf, htype] at htext
    have hpayload := Option.some.inj (Prod.mk.inj htext).2
    have hsplit := congrArg (strchr fieldSepChar) hpayload
    rw [strchr_append huser, strchr_append hsep] at hsplit
    obtain ⟨rfl, -⟩ := Prod.mk.inj (Option.some.inj hsplit)
    exact ⟨hname hr, hvalid⟩
  · have hevents := hevent.type
    rw [htype] at hevents
    exact absurd hevents (show srvRegisterOk ∉ eventWords by decide)

/-- A connection that has been answered `REGISTER_OK` for a user has been given that name. -/
theorem named_of_answers (hr : x.Registry) (hspoken : Justified (Spoken x) log) {user : Bytes}
    (h : user ∈ answers c log) : .named c user ∈ log := by
  obtain ⟨aim, buf, hmem, hok⟩ := mem_answers.1 h
  obtain ⟨post, past, rfl, hentry⟩ := hspoken.of_mem hmem
  obtain ⟨rfl, hvalid⟩ := registerOk_name hr hentry hok
  have hnamed := named_of_nameOf (isValidUsername_iff.1 hvalid).1
  exact List.mem_append_right _ (List.mem_cons_of_mem _ hnamed)

/-- The name of a connection changes only with a `REGISTER` line, so the condition that a line met
    when it was received holds as long as it is the last one. -/
theorem oneLine_lastLine (hspoken : Justified (Spoken x) log)
    (hreceived : Justified (fun past e => ∀ c line, e = .received c line →
      OneLine (nameOf c past) line) log) {line : Bytes} (hline : lastLine c log = some line) :
    OneLine (nameOf c log) line := by
  induction log with
  | nil => cases hline
  | cons e past ih =>
    cases e with
    | received d line' =>
      rw [lastLine_received] at hline
      split at hline
      · rename_i hd
        subst hd
        cases hline
        exact hreceived.1 _ _ rfl
      · exact ih hspoken.2 hreceived.2 hline
    | named d user =>
      rw [lastLine_named] at hline
      rw [nameOf_named]
      split
      · rename_i hd
        subst hd
        obtain ⟨-, line', hlast, hcmd, -⟩ := hspoken.1
        rw [hline] at hlast
        obtain rfl := Option.some.inj hlast
        constructor <;> intro h <;> rw [hcmd] at h <;> cases h
      · exact ih hspoken.2 hreceived.2 hline
    | delivered _ _ _ _ | closed _ _ => exact ih hspoken.2 hreceived.2 hline

/-- Every string that is accounted for is a frame. -/
theorem isFrame_of_spoken (hr : x.Registry) (hp : x.Plain) (hspoken : Justified (Spoken x) past)
    (hreceived : Justified (fun past e => ∀ c line, e = .received c line →
      OneLine (nameOf c past) line) past) {src : Source} {aim : Option Conn} {buf : Bytes}
    (h : Spoken x past (.delivered src aim d buf)) :
    IsFrame msgTerminatorChar (maxMsg - 1) buf := by
  cases src with
  | monitor =>
    obtain ⟨name, rfl, hname⟩ := h
    exact isFrame_inactivityNotice (hname hr)
  | client c =>
    obtain ⟨name, hname, ⟨-, hreply⟩ | ⟨line, hline, hevent⟩⟩ := h
    · exact hreply.isFrame hp
    · have hvalid := nameOf_valid_of_spoken hspoken c
      have hone := oneLine_lastLine hspoken hreceived hline
      rw [← hname hr] at hvalid hone
      exact hevent.isFrame hvalid hone

/-- What was written to a client it obtains line by line. -/
theorem linesOf_receivedBy (hr : x.Registry) (hp : x.Plain) (hspoken : Justified (Spoken x) log)
    (hreceived : Justified (fun past e => ∀ c line, e = .received c line →
      OneLine (nameOf c past) line) log) (d : Conn) :
    linesOf (receivedBy d log).flatten = receivedBy d log := by
  apply linesOf_flatten
  intro buf hbuf
  obtain ⟨src, aim, hmem⟩ := mem_receivedBy.1 hbuf
  obtain ⟨post, past, rfl, hentry, hpast⟩ := (hspoken.and hreceived).of_mem hmem
  exact isFrame_of_spoken hr hp hspoken.of_append.2 hreceived.of_append.2 hentry

end Log

variable {x : Externs} {s : Server} {c : Conn}

/-- What a thread is about to write is a frame. -/
theorem isFrame_handed (hspeaks : Speaks x s) (hp : x.Plain)
    (hone : ∀ line, lastLine c s.log = some line → OneLine (nameOf c s.log) line) {o : Op}
    {buf : Bytes} (ho : s.nextOp c = some o) (hbuf : buffer o = some buf) :
    IsFrame msgTerminatorChar (maxMsg - 1) buf := by
  obtain ⟨t, k, ht, hpc⟩ := nextOp_eq_some.1 ho
  obtain ⟨line, g, hline, ⟨hallow, -⟩, -, hname⟩ := hspeaks.handling c t _ ht hpc
  have hvalid := hspeaks.nameOf_valid c
  have honeline := hone line hline
  rw [← hname hp.1] at hvalid honeline
  cases o
  case send fd buf' =>
    cases hbuf
    rcases hallow with ⟨-, hreply⟩ | ⟨-, hcmd, rfl⟩
    · exact hreply.isFrame hp
    · exact (EventLine.deliver hcmd).isFrame hvalid honeline
  case broadcastAll msg =>
    cases hbuf
    obtain ⟨hcmd, rfl⟩ := hallow
    exact (EventLine.broadcast hcmd).isFrame hvalid honeline
  case broadcastExcept msg fd =>
    cases hbuf
    obtain ⟨-, hcmd, hstatus, rfl⟩ := hallow
    exact (EventLine.statusChanged hcmd hstatus).isFrame hvalid honeline
  all_goals cases hbuf

/-- In a run in which no line that makes an event has an escaped newline in the part of its text
    that fits into the event, no client forges what the server says to another. -/
theorem notForged_of_oneLiners (hx : x.KeepsSlots) (hp : x.Plain) (hb : x.Broadcasts)
    {timeout : Int} (hs : (serverSystem x timeout).ReachUnder OneLiners s) : NotForged s := by
  obtain ⟨-, -, hspeaks⟩ := speaks_reach hx hs.reach
  have hspoken := hspeaks.spoken hb
  have hreceived := received_justified (R := fun c past line => OneLine (nameOf c past) line)
    (fun _ _ _ hok => hok) hs
  constructor
  · intro d line hline
    rw [linesOf_receivedBy hp.1 hp hspoken hreceived, mem_receivedBy] at hline
    obtain ⟨src, aim, hmem⟩ := hline
    obtain ⟨post, past, hlog, hentry⟩ := hspoken.of_mem hmem
    refine ⟨post, past, src, aim, hlog, ?_⟩
    rintro c rfl hcd
    obtain ⟨name, hname, ⟨hself, -⟩ | ⟨line', -, hevent⟩⟩ := hentry
    · exact absurd hself.symm hcd
    · rw [hlog] at hspoken
      have hvalid := nameOf_valid_of_spoken hspoken.of_append.2 c
      rw [← hname hp.1] at hvalid ⊢
      exact hevent.eventOf hvalid
  · intro c o buf ho hbuf
    apply newlines_of_isFrame
    exact isFrame_handed hspeaks hp (fun _ => oneLine_lastLine hspoken hreceived) ho hbuf

/-- Two users register, and the first sends the second a message. -/
def privateMessage (line : String) : List Label :=
  connects 4 ++ turns 0 3 ++ writes 0 "REGISTER|ana\n" 9 ++
  connects 5 ++ turns 1 3 ++ writes 1 "REGISTER|cami\n" 9 ++ writes 0 line 8

theorem notForged_hola :
    ∃ s, (serverSystem managerExterns 60).run (serverInit 60)
        (privateMessage "MSG|cami|hola\n") = some s ∧ NotForged s := by
  have hrun : ((serverSystem managerExterns 60).run (serverInit 60)
    (privateMessage "MSG|cami|hola\n")).isSome = true := by decide +kernel
  obtain ⟨s, hs⟩ := Option.isSome_iff_exists.1 hrun
  have hplain : ((privateMessage "MSG|cami|hola\n").all fun
      | .client _ (.line raw) => decide (escapeChar ∉ cstr raw)
      | _ => true) = true := by decide +kernel
  have hok : ∀ l ∈ privateMessage "MSG|cami|hola\n", ∀ t, OneLiners t l := by
    intro l hl t
    have hl' := List.all_eq_true.1 hplain l hl
    unfold OneLiners
    split
    · exact oneLine_of_not_mem (of_decide_eq_true hl') _
    · trivial
  exact ⟨s, hs, notForged_of_oneLiners managerExterns_keepsSlots
    ⟨managerExterns_registry, managerExterns_findsUsers, managerExterns_plainText⟩
    managerExterns_broadcasts (System.ReachUnder.init.run hok hs)⟩

/-- A message of `ana` with an escaped newline in it reaches `cami` as two lines, of which the
    second one ends her session. -/
theorem forged_bye :
    ¬ ∀ (x : Externs) (timeout : Int) (s : Server), x.KeepsSlots → x.Plain → x.Broadcasts →
      (serverSystem x timeout).Reach s → NotForged s := by
  intro h
  obtain ⟨s, hs, hp⟩ := System.exists_reach_of_run (S := serverSystem managerExterns 60)
    (privateMessage "MSG|cami|hola\\nBYE\n")
    (fun s => decide (ascii "BYE\n" ∈ linesOf (receivedBy 1 s.log).flatten ∧
      ascii "BYE\n" ∉ receivedBy 1 s.log))
    (by decide +kernel)
  obtain ⟨hline, hwritten⟩ := of_decide_eq_true hp
  have hclaimed := h managerExterns 60 s managerExterns_keepsSlots
    ⟨managerExterns_registry, managerExterns_findsUsers, managerExterns_plainText⟩
    managerExterns_broadcasts hs
  obtain ⟨post, past, src, aim, hlog, -⟩ := hclaimed.lines 1 _ hline
  refine hwritten (mem_receivedBy.2 ⟨src, aim, ?_⟩)
  rw [hlog]
  exact List.mem_append_right _ List.mem_cons_self

end Server

end ChatMultithread
