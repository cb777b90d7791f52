import ChatMultithread.Client.Speaking
import ChatMultithread.EndToEnd.ChatRoom
import ChatMultithread.EndToEnd.Commands

/-!
# What a user asks the room for

The lines that a user types become commands, lines of the protocol and bytes of a stream, and on the
other side lines, fields and requests. What comes out is what was typed, in the same order.
-/

namespace ChatMultithread

open Lib ChatRoom

/-- The request that a command stands for, if the client does not refuse it. The text of a broadcast
    is lost: the line has one field, and the handler takes the second for the text. -/
def requestFor (cmd : ParsedCommand) : Option Request :=
  match commandToProto cmd, cmd.type with
  | (.ok, _), .list => some .list
  | (.ok, _), .info => some (.info cmd.arg1)
  | (.ok, _), .status => some (.status cmd.arg1)
  | (.ok, _), .msg => some (.msg cmd.arg1 cmd.arg2)
  | (.ok, _), .all => some (.broadcast [])
  | (.ok, _), .quit => some .quit
  | _, _ => none

/-- The arguments of a command have no separator and no backslash in them. -/
def PlainCommand (cmd : ParsedCommand) : Prop :=
  ∀ a ∈ wireArgs cmd, fieldSepChar ∉ a ∧ escapeChar ∉ a

instance (cmd : ParsedCommand) : Decidable (PlainCommand cmd) :=
  inferInstanceAs (Decidable (∀ a ∈ wireArgs cmd, _))

/-- A line that the server's `recv_line` returns whole and its parser has room for. -/
structure Readable (line : Bytes) : Prop where
  frame : IsFrame msgTerminatorChar (maxLineLen - 1) line
  cstr_eq : cstr line = line
  inBounds : InBounds line

theorem requestOf_protoQuit : Readable protoQuit ∧ requestOf protoQuit = .quit := by
  have hquit : protoQuit = ascii "QUIT\n" := by decide +kernel
  rw [hquit]
  exact ⟨⟨⟨by decide, by decide, by decide, by decide⟩, by decide, by decide +kernel⟩, by decide +kernel⟩

/-! ## One command -/

/-- Nothing that is taken out of a string without a null byte has one. -/
theorem nul_parseCommand {line : Bytes} (h : (0 : UInt8) ∉ line) :
    (0 : UInt8) ∉ (parseCommand line).arg1 ∧ (0 : UInt8) ∉ (parseCommand line).arg2 := by
  have hcut : ∀ {p : Bytes} {n : Nat}, p <:+ line → (0 : UInt8) ∉ trimNewline (strncpy n p) := by
    intro p n hp hmem
    have hcopy := (List.rdropWhile_prefix isLineEnd _).subset hmem
    exact h (hp.subset (List.mem_of_mem_take hcopy))
  rcases parseCommand_cases line with ⟨h1, h2, -⟩ | ⟨p, hp, hcmd | hcmd | hcmd | hcmd⟩
  · rw [h1, h2]
    exact ⟨List.not_mem_nil, List.not_mem_nil⟩
  · rw [hcmd]
    exact ⟨hcut hp, List.not_mem_nil⟩
  · rw [hcmd]
    refine ⟨fun hmem => ?_, List.not_mem_nil⟩
    have hupper : ∀ c : Fin 256, toupper (UInt8.ofFin c) = 0 → UInt8.ofFin c = 0 := by decide +kernel
    obtain ⟨c, hc, hzero⟩ := List.mem_map.1 ((List.rdropWhile_prefix isLineEnd _).subset hmem)
    have hc0 : c = 0 := hupper c.toFin hzero
    exact h (hp.subset (List.mem_of_mem_take (hc0 ▸ hc)))
  · rw [hcmd]
    have hword : (0 : UInt8) ∉ strncpy (maxUsernameLen - 1) (p.takeWhile (!isBlank ·)) := fun hmem =>
      h (hp.subset ((List.takeWhile_prefix _).subset (List.mem_of_mem_take hmem)))
    have hrest : skipSpaces (p.dropWhile (!isBlank ·)) <:+ line :=
      ((List.dropWhile_suffix _).trans (List.dropWhile_suffix _)).trans hp
    unfold parseMsgCommand
    dsimp only
    split
    · exact ⟨hword, List.not_mem_nil⟩
    · exact ⟨hword, hcut hrest⟩
  · rw [hcmd]
    exact ⟨List.not_mem_nil, hcut hp⟩

/-- A line of a word and plain fields is read field by field. -/
theorem readable_lineOf {word : Bytes} {args : List Bytes} (hword : ∀ b ∈ word, marks.Plain b)
    (hnul : (0 : UInt8) ∉ word) (hlen : args.length < 3) (hroom : (lineOf word args).length < maxMsg)
    (hargs : ∀ a ∈ args, a ≠ [] ∧ msgTerminatorChar ∉ a ∧ (0 : UInt8) ∉ a ∧ fieldSepChar ∉ a ∧
      escapeChar ∉ a) :
    Readable (lineOf word args) ∧ field (lineOf word args) 0 = word ∧
      field (lineOf word args) 1 = args.getD 0 [] ∧ field (lineOf word args) 2 = args.getD 1 [] := by
  obtain ⟨hin, h0, h1, h2⟩ :=
    (decoded_iff hword hlen fun a ha => ⟨(hargs a ha).1, (hargs a ha).2.1⟩).2
      fun a ha => (hargs a ha).2.2.2
  have hframe : IsFrame msgTerminatorChar (maxMsg - 1) (snprintf maxMsg (lineOf word args)) :=
    isFrame_lineOf (fun hmem => (hword _ hmem).1 rfl) fun a ha => (hargs a ha).2.1
  rw [snprintf_of_lt hroom] at hframe
  refine ⟨⟨hframe, cstr_of_not_mem fun hmem => ?_, hin⟩, h0, h1, h2⟩
  rcases List.mem_append.1 hmem with hmem | hmem
  · exact not_mem_lineBodyOf (by decide) hnul (fun a ha => (hargs a ha).2.2.1) hmem
  · exact absurd (List.mem_singleton.1 hmem) (by decide)

theorem serverType_ne_invalid {t : CmdType} (h : t ∉ [CmdType.help, .unknown]) :
    serverType t ≠ .invalid := by
  cases t <;> simp_all [serverType]

theorem serverType_eq_quit {t : CmdType} (h : serverType t = .quit) : t = .quit := by
  cases t with
  | quit => rfl
  | list | info | status | msg | all | help | unknown => cases h

/-- What the client sends for a command is read as the request that it stands for. -/
theorem requestOf_wire {line : Bytes} (hline : NewlineLast line)
    (hplain : PlainCommand (parseCommand (cstr line))) {w : Bytes}
    (hw : commandToProto (parseCommand (cstr line)) = (.ok, w)) :
    Readable w ∧ requestFor (parseCommand (cstr line)) = some (requestOf w) := by
  have hcmd := hline.parsed
  have hnul := nul_parseCommand (show (0 : UInt8) ∉ cstr line from not_mem_strcspnCut 0 line)
  obtain ⟨hwire, htype, hne⟩ := commandToProto_ok hcmd hw
  generalize parseCommand (cstr line) = cmd at *
  obtain ⟨hlen, hget0, hget1⟩ := hcmd.getD_wireArgs htype
  have hnuls := (hcmd.forall_wireArgs htype (p := fun a => (0 : UInt8) ∉ a) List.not_mem_nil).2 hnul
  have hroom : (lineOf (wireWord cmd) (wireArgs cmd)).length < maxMsg :=
    Nat.lt_of_le_of_lt hcmd.length_wire (by decide)
  have hword : (0 : UInt8) ∉ wireWord cmd := by
    unfold wireWord
    split <;> decide
  obtain ⟨hread, h0, h1, h2⟩ := readable_lineOf (plain_wireWord cmd) hword hlen hroom fun a ha =>
    ⟨hne a ha, hcmd.newline_wireArgs a ha, hnuls a ha, hplain a ha⟩
  rw [← hwire] at hread h0 h1 h2
  have hcommand : lineCommand w = serverType cmd.type := (commandType_eq_iff (wireWord_mem htype)).2 h0
  have hping : w ≠ ascii "PING\n" := by
    rintro rfl
    have hinvalid : lineCommand (ascii "PING\n") = .invalid := by decide +kernel
    exact serverType_ne_invalid htype (hcommand.symm.trans hinvalid)
  have hquit : w = ascii "QUIT\n" → cmd.type = .quit := by
    rintro rfl
    have hword : lineCommand (ascii "QUIT\n") = .quit := by decide +kernel
    exact serverType_eq_quit (hcommand.symm.trans hword)
  refine ⟨hread, ?_⟩
  rw [hget0] at h1
  rw [hget1] at h2
  rw [requestFor, hw]
  obtain ⟨type, arg1, arg2⟩ := cmd
  cases type with
  | help | unknown => exact absurd htype (by simp)
  | quit =>
    have hw' : w = ascii "QUIT\n" := by
      rw [hwire]
      rfl
    rw [requestOf, if_neg hping, if_pos hw']
  | list =>
    have hnot : w ≠ ascii "QUIT\n" := fun h => by cases hquit h
    rw [requestOf, if_neg hping, if_neg hnot, hcommand]
    rfl
  | info | status | msg | all =>
    have hnot : w ≠ ascii "QUIT\n" := fun h => by cases hquit h
    rw [requestOf, if_neg hping, if_neg hnot, hcommand]
    simp only [serverType, h1, h2]
    rfl

theorem requestOf_register {user : Bytes} (huser : validateUsername user = true) :
    Readable (protoRegister user) ∧ requestOf (protoRegister user) = .register user := by
  rw [validateUsername_eq] at huser
  obtain ⟨hne, hlen, -⟩ := isValidUsername_iff.1 huser
  have hwords : cmdRegister.length = 8 := rfl
  have hline : protoRegister user = lineOf cmdRegister [user] :=
    protoBuild_lineOf (by decide) (Nat.le_trans hlen (by decide))
  have hroom : (lineOf cmdRegister [user]).length < maxMsg := by
    simp only [lineOf, List.flatMap_cons, List.flatMap_nil, List.length_append, List.length_cons,
      List.length_nil, maxMsg, maxLineLen]
    omega
  have hplain : ∀ a ∈ [user], a ≠ [] ∧ msgTerminatorChar ∉ a ∧ (0 : UInt8) ∉ a ∧
      fieldSepChar ∉ a ∧ escapeChar ∉ a := by
    rw [List.forall_mem_singleton]
    exact ⟨hne, not_mem_of_isValidUsername huser (by decide) (by decide),
      not_mem_of_isValidUsername huser (by decide) (by decide),
      not_mem_of_isValidUsername huser (by decide) (by decide),
      not_mem_of_isValidUsername huser (by decide) (by decide)⟩
  obtain ⟨hread, h0, h1, -⟩ :=
    readable_lineOf (by decide +kernel) (by decide) (by simp) hroom hplain
  rw [← hline] at hread h0 h1
  have hcommand : lineCommand (protoRegister user) = .register := by
    rw [lineCommand, h0]
    decide
  have hother : ∀ line, lineCommand line ≠ .register → protoRegister user ≠ line := by
    rintro _ h rfl
    exact h hcommand
  refine ⟨hread, ?_⟩
  rw [requestOf, if_neg (hother _ (by decide +kernel)), if_neg (hother _ (by decide +kernel)),
    hcommand]
  exact congrArg Request.register h1

/-! ## Everything that is typed -/

variable {stdin rest : Bytes} {lines : List Bytes}

theorem Cuts.newlineLast (h : Cuts stdin lines rest) : ∀ line ∈ lines, NewlineLast line := by
  induction h with
  | nil => exact List.forall_mem_nil _
  | snoc h hline ih =>
    intro line hmem
    rcases List.mem_append.1 hmem with hmem | hmem
    · exact ih line hmem
    · rw [List.mem_singleton.1 hmem]
      obtain ⟨-, -, ⟨body, rfl, hbody⟩ | ⟨hnot, -⟩⟩ := fgets_some (by decide) hline
      · rwa [NewlineLast, List.dropLast_concat]
      · exact fun hmem => hnot (List.dropLast_subset _ hmem)

theorem requestFor_refused {cmd : ParsedCommand} (h : ∀ w, commandToProto cmd ≠ (.ok, w)) :
    requestFor cmd = none := by
  unfold requestFor
  split
  all_goals first | rfl | exact absurd ‹_› (h _)

/-- What the input loop sends for the lines is read as what the lines stand for. -/
theorem Talk.requests (h : Talk stdin lines rest)
    (hplain : ∀ line ∈ lines, PlainCommand (Phase.commandOf line)) :
    (∀ w ∈ spoken lines, Readable w) ∧
      (spoken lines).map requestOf =
        lines.filterMap fun line => requestFor (Phase.commandOf line) := by
  have hone : ∀ line ∈ lines, (∀ w ∈ spokenFor line, Readable w) ∧
      (spokenFor line).map requestOf = requestFor (Phase.commandOf line) := by
    intro line hline
    rw [spokenFor, if_neg (h.quit line hline)]
    split
    · rename_i w hw
      obtain ⟨hread, hrequest⟩ :=
        requestOf_wire (h.cuts.newlineLast line hline) (hplain line hline) hw
      refine ⟨fun w' hw' => ?_, hrequest.symm⟩
      cases hw'
      exact hread
    · rename_i hrefused
      refine ⟨fun w hw => absurd hw (Option.not_mem_none w), ?_⟩
      exact (requestFor_refused hrefused).symm
  constructor
  · intro w hw
    obtain ⟨line, hline, hspoken⟩ := List.mem_filterMap.1 hw
    exact (hone line hline).1 w hspoken
  · rw [spoken, List.map_filterMap]
    exact List.filterMap_congr fun line hline => (hone line hline).2

/-- Whoever has not said the last thing has said everything before it. -/
theorem Talk.before (h : Talk stdin lines rest) :
    ∃ lines' rest', Talk stdin lines' rest' ∧ lines' <+: lines ∧
      spoken lines' = (spoken lines).dropLast := by
  obtain ⟨hcuts, hquit⟩ := h
  induction hcuts with
  | nil => exact ⟨[], stdin, ⟨.nil, hquit⟩, List.nil_prefix, rfl⟩
  | snoc hcuts hline ih =>
    rename_i lines line rest rest'
    have hquit' : ∀ l ∈ lines, (Phase.commandOf l).type ≠ .quit := fun l hl =>
      hquit l (List.mem_append_left _ hl)
    cases hspoken : spokenFor line with
    | none =>
      obtain ⟨lines', rest', htalk, hbegins, hall⟩ := ih hquit'
      refine ⟨lines', rest', htalk, hbegins.trans (List.prefix_append _ _), ?_⟩
      rw [hall, spoken, spoken, List.filterMap_append]
      simp [hspoken]
    | some w =>
      refine ⟨lines, rest, ⟨hcuts, hquit'⟩, List.prefix_append _ _, ?_⟩
      have hlast : spoken (lines ++ [line]) = spoken lines ++ [w] := by
        rw [spoken, spoken, List.filterMap_append]
        simp [hspoken]
      rw [hlast, List.dropLast_concat]

namespace Client

variable {network : List Recv} {argv : List Bytes} {user : Bytes} {eof closes : Bool} {s : Client}

/-- What the process has handed over to the network. -/
def delivered (log : List Act) : List Bytes := ((sends log).filter Prod.snd).map Prod.fst

/-- Of farewells some have been handed over. -/
theorem delivered_quits {quits : List (Bytes × Bool)} {n : Nat}
    (h : quits.map Prod.fst = List.replicate n protoQuit) :
    ∃ q ≤ n, (quits.filter Prod.snd).map Prod.fst = List.replicate q protoQuit := by
  obtain ⟨hlen, hall⟩ := List.eq_replicate_iff.1 h
  rw [List.length_map] at hlen
  refine ⟨(quits.filter Prod.snd).length, hlen ▸ List.length_filter_le _ _, ?_⟩
  rw [List.eq_replicate_iff, List.length_map]
  refine ⟨rfl, fun w hw => ?_⟩
  obtain ⟨p, hp, rfl⟩ := List.mem_map.1 hw
  exact hall _ (List.mem_map_of_mem (List.mem_of_mem_filter hp))

theorem delivered_utterance (last : Option Bool) :
    ∃ q ≤ 1, ((utterance protoQuit last).filter Prod.snd).map Prod.fst =
      List.replicate q protoQuit := by
  cases last with
  | none => exact ⟨0, Nat.zero_le 1, rfl⟩
  | some ok => exact delivered_quits (n := 1) rfl

/-- Of what the input loop has said all the commands of some lines have been handed over, and
    perhaps its farewell. -/
theorem delivered_parts {toldQuit : Bool} {said : List (Bytes × Bool)}
    (h : Parts stdin toldQuit said) :
    ∃ lines rest q, Talk stdin lines rest ∧ q ≤ 1 ∧
      (said.filter Prod.snd).map Prod.fst = spoken lines ++ List.replicate q protoQuit := by
  obtain ⟨lines, rest, cmds, quits, htalk, rfl, hcmds, hsure, hquits, -⟩ := h
  obtain ⟨q, hq, hdelivered⟩ := delivered_quits hquits
  have hone : q ≤ 1 := Nat.le_trans hq (Bool.toNat_le toldQuit)
  rw [List.filter_append, List.map_append, hdelivered]
  rcases List.eq_nil_or_concat cmds with rfl | ⟨sure, p, rfl⟩
  · exact ⟨lines, rest, q, htalk, hone, by rw [← hcmds]; rfl⟩
  · rw [List.concat_eq_append, List.dropLast_concat] at hsure
    rw [List.concat_eq_append] at hcmds ⊢
    have hall : sure.filter Prod.snd = sure := List.filter_eq_self.2 hsure
    rw [List.filter_append, hall]
    cases hp : p.2 with
    | true =>
      refine ⟨lines, rest, q, htalk, hone, ?_⟩
      rw [List.filter_cons_of_pos hp, List.filter_nil, hcmds]
    | false =>
      obtain ⟨lines', rest', htalk', -, hbefore⟩ := htalk.before
      refine ⟨lines', rest', q, htalk', hone, ?_⟩
      rw [List.filter_cons_of_neg (by simp [hp]), List.filter_nil, List.append_nil, hbefore, ← hcmds,
        List.map_append, List.map_singleton, List.dropLast_concat]

/-- The room is asked for what its user has typed: the stream from a client falls into lines that
    the server reads whole, the registration first, then the commands in their order, then
    farewells. -/
theorem asked_as_typed (hs : (clientSystem (user :: argv) stdin eof network closes).Reach s)
    (huser : validateUsername user = true)
    (hplain : ∀ lines rest, Talk stdin lines rest →
      ∀ line ∈ lines, PlainCommand (Phase.commandOf line)) :
    (∀ w ∈ delivered s.log, Readable w) ∧
      (∀ more, recvLines (recvLine maxLineLen) (delivered s.log).length
        (bytesIn (delivered s.log).flatten ++ more) = some (delivered s.log, more)) ∧
      (delivered s.log = [] ∨ ∃ lines rest quits, Talk stdin lines rest ∧ quits ≤ 2 ∧
        (delivered s.log).map requestOf = .register user ::
          ((lines.filterMap fun line => requestFor (Phase.commandOf line)) ++
            List.replicate quits .quit)) := by
  obtain ⟨hregister, hname⟩ := requestOf_register huser
  obtain ⟨hquit, hfarewell⟩ := requestOf_protoQuit
  have hspoken : delivered s.log = [] ∨ ∃ lines rest quits, Talk stdin lines rest ∧ quits ≤ 2 ∧
      delivered s.log =
        protoRegister user :: (spoken lines ++ List.replicate quits protoQuit) := by
    rcases (speaks_reach hs).sends_eq with hnone | ⟨ok, said, toldQuit, last, hsends, hparts, hfirst, -⟩
    · exact .inl (by rw [delivered, hnone]; rfl)
    · cases ok with
      | false =>
        obtain ⟨rfl, rfl⟩ := hfirst rfl
        exact .inl (by rw [delivered, hsends]; rfl)
      | true =>
        obtain ⟨lines, rest, q, htalk, hq, hsaid⟩ := delivered_parts hparts
        obtain ⟨q', hq', hlast⟩ := delivered_utterance last
        refine .inr ⟨lines, rest, q + q', htalk, by omega, ?_⟩
        rw [delivered, hsends, List.filter_append, List.filter_cons_of_pos rfl, List.map_append,
          List.map_cons, hsaid, hlast, List.replicate_add, List.cons_append, List.append_assoc]
        rfl
  have hreadable : ∀ w ∈ delivered s.log, Readable w := by
    intro w hw
    rcases hspoken with hnone | ⟨lines, rest, quits, htalk, -, hall⟩
    · rw [hnone] at hw
      exact absurd hw List.not_mem_nil
    · rw [hall, List.mem_cons, List.mem_append] at hw
      rcases hw with rfl | hw | hw
      · exact hregister
      · exact (htalk.requests (hplain lines rest htalk)).1 w hw
      · rw [List.eq_of_mem_replicate hw]
        exact hquit
  refine ⟨hreadable, fun more => ?_, ?_⟩
  · exact recvLines_flatten (fun b hb more => recvLine_frame hb more)
      (fun b hb => (hreadable b hb).frame) more
  · rcases hspoken with hnone | ⟨lines, rest, quits, htalk, hquits, hall⟩
    · exact .inl hnone
    · refine .inr ⟨lines, rest, quits, htalk, hquits, ?_⟩
      rw [hall, List.map_cons, hname, List.map_append, List.map_replicate, hfarewell,
        (htalk.requests (hplain lines rest htalk)).2]

/-- The lines that the user of the session types. -/
theorem cuts_session (h : Cuts (ascii "/status ocupado\n/quit\n") lines rest) :
    lines = [] ∧ rest = ascii "/status ocupado\n/quit\n" ∨
      lines = [ascii "/status ocupado\n"] ∧ rest = ascii "/quit\n" ∨
      lines = [ascii "/status ocupado\n", ascii "/quit\n"] ∧ rest = [] := by
  induction h with
  | nil => exact .inl ⟨rfl, rfl⟩
  | snoc h hline ih =>
    have hfirst : fgets maxMsgLen (ascii "/status ocupado\n/quit\n") =
      (some (ascii "/status ocupado\n"), ascii "/quit\n") := by decide +kernel
    have hsecond : fgets maxMsgLen (ascii "/quit\n") = (some (ascii "/quit\n"), []) := by
      decide +kernel
    rcases ih with ⟨rfl, rfl⟩ | ⟨rfl, rfl⟩ | ⟨rfl, rfl⟩
    · rw [hfirst] at hline
      cases hline
      exact .inr (.inl ⟨rfl, rfl⟩)
    · rw [hsecond] at hline
      cases hline
      exact .inr (.inr ⟨rfl, rfl⟩)
    · cases hline

/-- The server reads the requests of the session. -/
theorem asked_as_typed_session : ∃ s, session.Reach s ∧
    (delivered s.log).map requestOf =
      [.register (ascii "ana"), .status (ascii "OCUPADO"), .quit, .quit] ∧
    recvLines (recvLine maxLineLen) 4 (bytesIn (delivered s.log).flatten ++ []) =
      some (delivered s.log, []) := by
  obtain ⟨s, hs, hp⟩ := System.exists_reach_of_run (S := session) (sessionQuit ++ sessionRest)
    (fun s => decide ((delivered s.log).map requestOf =
      [.register (ascii "ana"), .status (ascii "OCUPADO"), .quit, .quit])) (by decide +kernel)
  have hrequests := of_decide_eq_true hp
  have hlen : (delivered s.log).length = 4 := by
    rw [← List.length_map (f := requestOf), hrequests]
    rfl
  have hplain : ∀ lines rest, Talk (ascii "/status ocupado\n/quit\n") lines rest →
      ∀ line ∈ lines, PlainCommand (Phase.commandOf line) := by
    intro lines rest htalk line hline
    have hboth : ∀ line ∈ [ascii "/status ocupado\n", ascii "/quit\n"],
        PlainCommand (Phase.commandOf line) := by decide +kernel
    rcases cuts_session htalk.cuts with ⟨rfl, -⟩ | ⟨rfl, -⟩ | ⟨rfl, -⟩
    · exact absurd hline List.not_mem_nil
    · exact hboth line (List.mem_of_mem_take (i := 1) hline)
    · exact hboth line hline
  refine ⟨s, hs, hrequests, ?_⟩
  have hread := (asked_as_typed hs (by decide +kernel) hplain).2.1 []
  rwa [hlen] at hread

end Client

end ChatMultithread
