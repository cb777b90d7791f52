import ChatMultithread.Client.Console

/-!
# The passes of the input loop

A pass reads one line and makes at most one thing of it. `Phase` follows the pass from operation to
operation; what the loop has done so far, and where it stands in its input, is read off it.
-/

namespace ChatMultithread

open Lib

/-- The commands that `handle_command` carries out instead of printing an error. -/
def carriedOut (cmd : ParsedCommand) : Bool :=
  cmd.type == .help || (commandToProto cmd).1 == .ok

theorem carriedOut_eq_false {cmd : ParsedCommand} (hhelp : cmd.type ≠ .help)
    (herr : (commandToProto cmd).1 ≠ .ok) : carriedOut cmd = false := by
  rw [carriedOut, beq_eq_false_iff_ne.2 hhelp, beq_eq_false_iff_ne.2 herr]
  rfl

/-- The last branch of `handle_command`: what is sent, unless `command_to_proto` fails. -/
def sendCommand (cmd : ParsedCommand) : InputProg ClientResult :=
  if (commandToProto cmd).1 ≠ .ok then complain .notBuilt
  else if cmd.type = .quit then do
    let _ ← sendProto (commandToProto cmd).2
    ask .stop
    return .quit
  else sendProto (commandToProto cmd).2

/-- The tests in front of it find only commands that `command_to_proto` refuses as well. -/
theorem handleCommand_checked {cmd : ParsedCommand} (hhelp : cmd.type ≠ .help) :
    ((commandToProto cmd).1 ≠ .ok ∧ ∃ p, p ≠ .help ∧ handleCommand cmd = complain p) ∨
      handleCommand cmd = sendCommand cmd := by
  by_cases hunknown : cmd.type = .unknown
  · refine .inl ⟨?_, .unknownCommand, by decide, ?_⟩
    · rw [commandToProto, hunknown]
      exact ClientResult.noConfusion
    · rw [handleCommand, if_neg hhelp, if_pos hunknown]
  by_cases hstatus : cmd.type = .status ∧ cmd.arg1 ≠ statusActive ∧ cmd.arg1 ≠ statusBusy ∧
      cmd.arg1 ≠ statusInactive
  · refine .inl ⟨?_, .invalidStatus cmd.arg1, fun h => Printed.noConfusion h, ?_⟩
    · rw [commandToProto, hstatus.1]
      dsimp only
      rw [if_pos hstatus.2]
      split <;> decide
    · rw [handleCommand, if_neg hhelp, if_neg hunknown, if_pos hstatus]
  by_cases hmsg : cmd.type = .msg ∧ (cmd.arg1 = [] ∨ cmd.arg2 = [])
  · refine .inl ⟨?_, .msgUsage, by decide, ?_⟩
    · rw [commandToProto, hmsg.1]
      dsimp only
      rw [if_pos hmsg.2]
      decide
    · rw [handleCommand, if_neg hhelp, if_neg hunknown, if_neg hstatus, if_pos hmsg]
  by_cases hall : cmd.type = .all ∧ cmd.arg2 = []
  · refine .inl ⟨?_, .allUsage, by decide, ?_⟩
    · rw [commandToProto, hall.1]
      dsimp only
      rw [if_pos hall.2]
      decide
    · rw [handleCommand, if_neg hhelp, if_neg hunknown, if_neg hstatus, if_neg hmsg, if_pos hall]
  right
  rw [handleCommand, if_neg hhelp, if_neg hunknown, if_neg hstatus, if_neg hmsg, if_neg hall,
    sendCommand]

/-- What `handle_command` does. -/
theorem handleCommand_cases (cmd : ParsedCommand) :
    (carriedOut cmd = false ∧ ∃ p, p ≠ .help ∧ handleCommand cmd = complain p) ∨
    (cmd.type = .help ∧
      handleCommand cmd = .call (.print [.help, .prompt]) fun _ => .ret .ok) ∨
    (∃ buf, commandToProto cmd = (.ok, buf) ∧ cmd.type ≠ .quit ∧
      handleCommand cmd = sendProto buf) ∨
    cmd.type = .quit ∧
      handleCommand cmd = sendProto protoQuit >>= fun _ => .call .stop fun _ => .ret .quit := by
  by_cases hhelp : cmd.type = .help
  · right
    left
    refine ⟨hhelp, ?_⟩
    rw [handleCommand, if_pos hhelp]
    rfl
  rcases handleCommand_checked hhelp with ⟨herr, hcomplain⟩ | hsend
  · exact .inl ⟨carriedOut_eq_false hhelp herr, hcomplain⟩
  rw [hsend, sendCommand]
  by_cases herr : (commandToProto cmd).1 ≠ .ok
  · left
    refine ⟨carriedOut_eq_false hhelp herr, .notBuilt, by decide, ?_⟩
    rw [if_pos herr]
  rw [if_neg herr]
  by_cases hquit : cmd.type = .quit
  · right
    right
    right
    refine ⟨hquit, ?_⟩
    rw [if_pos hquit, commandToProto, hquit]
    rfl
  · right
    right
    left
    refine ⟨(commandToProto cmd).2, ?_, hquit, ?_⟩
    · rw [← not_not.1 herr]
    · rw [if_neg hquit]

/-- An empty line is no command. -/
theorem parseCommand_of_isEmptyLine {line : Bytes} (h : isEmptyLine line = true) :
    parseCommand line = noCommand := by
  unfold isEmptyLine at h
  unfold parseCommand
  cases hskip : skipSpaces line with
  | nil => rfl
  | cons b p =>
    rw [hskip] at h
    have hb : b = msgTerminatorChar := beq_iff_eq.1 h
    exact if_pos (by rw [hb]; decide)

/-! ## The phases of a pass -/

/-- What has happened in a pass: nothing yet, the end of the input, a line with the outcomes of what
    was sent for it, and in both cases whether the loop has cleared the flag; or the flag was found
    clear. -/
inductive Phase where
  | waiting
  | ended (stopped : Bool)
  | typed (line : Bytes) (sent : List Bool) (stopped : Bool)
  | left

namespace Phase

/-- The command that the line is. -/
def commandOf (line : Bytes) : ParsedCommand := parseCommand (cstr line)

/-- The loop has cleared the flag in this pass. -/
def stopped : Phase → Bool
  | .ended stopped | .typed _ _ stopped => stopped
  | .waiting | .left => false

/-- The operations of a pass. -/
inductive Allows : Phase → InputOp → Prop
  | running : Allows .waiting .running
  | runningTyped {line : Bytes} : Allows (.typed line [] false) .running
  | fgets : Allows .waiting .fgets
  | stopEnded : Allows (.ended false) .stop
  | sendEnded {buf : Bytes} : Allows (.ended true) (.send buf)
  | send {line buf : Bytes} (hcmd : carriedOut (commandOf line) = true) :
      Allows (.typed line [] false) (.send buf)
  | stop {line : Bytes} {sent : List Bool} (hquit : (commandOf line).type = .quit) :
      Allows (.typed line sent false) .stop
  | help {line : Bytes} (hcmd : carriedOut (commandOf line) = true) {ps : List Printed} :
      Allows (.typed line [] false) (.print ps)
  | print (g : Phase) {ps : List Printed} (hps : .help ∉ ps) : Allows g (.print ps)

/-- The phase behind an operation. -/
def next : (g : Phase) → (o : InputOp) → o.Resp → Phase
  | g, .running, r => if r then g else .left
  | _, .fgets, none => .ended false
  | _, .fgets, some line => .typed line [] false
  | .ended stopped, .send _, _ => .ended stopped
  | .typed line sent stopped, .send _, r => .typed line (sent ++ [r]) stopped
  | .ended _, .stop, _ => .ended true
  | .typed line sent _, .stop, _ => .typed line sent true
  | g, _, _ => g

/-- How a pass ends. The first one begins behind the first prompt. -/
inductive Post : Phase → Option ClientResult → Prop
  | first : Post .waiting none
  | go {line : Bytes} {sent : List Bool} (hquit : (commandOf line).type ≠ .quit)
      (hsent : false ∉ sent) : Post (.typed line sent false) none
  | disconn : Post .left (some .disconn)
  | endQuit : Post (.ended true) (some .quit)
  | quit {line : Bytes} {sent : List Bool} (hquit : (commandOf line).type = .quit) :
      Post (.typed line sent true) (some .quit)
  | err {line : Bytes} {sent : List Bool} (hquit : (commandOf line).type ≠ .quit)
      (hsent : false ∈ sent) : Post (.typed line sent false) (some .err)

/-- The phases as a monitor of the input loop. -/
def monitor : Monitor InputOp InputOp.Resp Phase where
  allows := Allows
  answers _ _ _ := True
  next := next

/-- `send_proto` for a line, behind which the pass goes on with its result. -/
theorem safe_sendProto {post : Phase → ClientResult → Prop} {g : Phase} {buf : Bytes}
    (hallowed : Allows g (.send buf)) (hok : post (g.next (.send buf) true) .ok)
    (herr : post (g.next (.send buf) false) .err) :
    monitor.Safe post g (sendProto buf) := by
  refine ⟨hallowed, ?_⟩
  intro sent _
  cases sent with
  | true => exact hok
  | false =>
    refine ⟨.print _ (by decide), ?_⟩
    intro r _
    show post ((g.next (.send buf) false).next (.print [.notSent]) r) .err
    cases g <;> exact herr

/-- What `handle_command` returns and how the pass stands then. -/
inductive Handled (line : Bytes) : Phase → ClientResult → Prop
  | ok {sent : List Bool} (hquit : (commandOf line).type ≠ .quit) (hsent : false ∉ sent) :
      Handled line (.typed line sent false) .ok
  | err {sent : List Bool} (hquit : (commandOf line).type ≠ .quit) (hsent : false ∈ sent) :
      Handled line (.typed line sent false) .err
  | quit {sent : List Bool} (hquit : (commandOf line).type = .quit) :
      Handled line (.typed line sent true) .quit

theorem safe_handleCommand (line : Bytes) :
    monitor.Safe (Handled line) (.typed line [] false) (handleCommand (commandOf line)) := by
  rcases handleCommand_cases (commandOf line) with ⟨hnot, p, hp, heq⟩ | ⟨hhelp, heq⟩ |
    ⟨buf, hbuf, hquit, heq⟩ | ⟨hquit, heq⟩
  · have hne : (commandOf line).type ≠ .quit := by
      intro hquit
      simp [carriedOut, commandToProto, hquit] at hnot
    rw [heq]
    refine ⟨.print _ ?_, fun _ _ => .ok hne List.not_mem_nil⟩
    simp [Ne.symm hp]
  · have hne : (commandOf line).type ≠ .quit := by
      rw [hhelp]
      decide
    rw [heq]
    refine ⟨.help ?_, fun _ _ => .ok hne List.not_mem_nil⟩
    simp [carriedOut, hhelp]
  · rw [heq]
    apply safe_sendProto
    · apply Allows.send
      simp [carriedOut, hbuf]
    · exact .ok hquit (by simp)
    · exact .err hquit (by simp)
  · have hcmd : carriedOut (commandOf line) = true := by
      simp [carriedOut, commandToProto, hquit]
    rw [heq, Monitor.safe_bind]
    apply safe_sendProto (.send hcmd)
    · exact ⟨.stop hquit, fun _ _ => .quit hquit⟩
    · exact ⟨.stop hquit, fun _ _ => .quit hquit⟩

theorem safe_lineTurn (line : Bytes) :
    monitor.Safe Post (.typed line [] false) (lineTurn line) := by
  unfold lineTurn
  split
  · rename_i hempty
    refine ⟨.print _ (by decide), fun _ _ => .go ?_ List.not_mem_nil⟩
    rw [commandOf, parseCommand_of_isEmptyLine hempty]
    decide
  · rw [Monitor.safe_bind]
    apply (safe_handleCommand line).mono
    intro g result hresult
    cases hresult with
    | ok hquit hsent => exact .go hquit hsent
    | err hquit hsent => exact .err hquit hsent
    | quit hquit => exact .quit hquit

/-- Every pass keeps to its phases. -/
theorem safe_inputTurn : monitor.Safe Post .waiting inputTurn := by
  refine ⟨.running, ?_⟩
  intro running _
  cases running with
  | false => exact .disconn
  | true =>
    refine ⟨.fgets, ?_⟩
    intro line _
    cases line with
    | none =>
      refine ⟨.stopEnded, ?_⟩
      intro _ _
      show monitor.Safe Post (.ended true) (sendProto protoQuit >>= fun _ => .ret (some .quit))
      rw [Monitor.safe_bind]
      apply safe_sendProto .sendEnded
      · exact .endQuit
      · exact .endQuit
    | some line =>
      refine ⟨.runningTyped, ?_⟩
      intro running _
      cases running with
      | false => exact .disconn
      | true => exact safe_lineTurn line

theorem safe_inputLoop : monitor.Safe Post .waiting inputLoop :=
  ⟨.print _ (by decide), fun _ _ => .first⟩

end Phase

/-! ## Runs -/

/-- How far the loop can come in its input: it has read `before`, none of it `/quit`, and `rest` is
    left. -/
inductive Position (stdin : Bytes) : Bytes → Bytes → Prop
  | start : Position stdin [] stdin
  | next {before rest line rest' : Bytes} (h : Position stdin before rest)
      (hline : fgets maxMsgLen rest = (some line, rest'))
      (hquit : (Phase.commandOf line).type ≠ .quit) : Position stdin (before ++ line) rest'

namespace Turn

/-- The line has been executed as a command: something was sent for it, or the help was shown. -/
def Executed (t : Turn) : Prop := t.line ≠ none ∧ (t.sent ≠ [] ∨ .help ∈ t.printed)

/-- A command other than `/quit` could not be sent. -/
def Failed (t : Turn) : Prop :=
  ∃ line buf, t.line = some line ∧ (Phase.commandOf line).type ≠ .quit ∧ (buf, false) ∈ t.sent

/-- What a line is and what was made of it. -/
structure Sound (stdin : Bytes) (t : Turn) (line : Bytes) : Prop where
  position : ∃ rest rest', Position stdin t.before rest ∧ fgets maxMsgLen rest = (some line, rest')
  once : t.sent.length ≤ 1
  carriedOut : t.Executed → carriedOut (Phase.commandOf line) = true

end Turn

/-- The lines that were read, the last one in front, stand one behind the other. -/
inductive Chain : List Turn → Bytes → Prop
  | nil : Chain [] []
  | cons {t : Turn} {turns : List Turn} {taken : Bytes} (h : Chain turns t.before)
      (hline : ∀ line, t.line = some line → line ≠ []) (htaken : taken = t.before ++ t.line.getD []) :
      Chain (t :: turns) taken

namespace Console

/-- What the phase says about the console. -/
def Tracks (stdin : Bytes) (s : Console) : Phase → Prop
  | .waiting => Position stdin s.taken s.stdin ∧ ∀ t ∈ s.turns, ¬ t.Failed
  | .ended _ => (∃ t turns, s.turns = t :: turns ∧ t.line = none) ∧ ∀ t ∈ s.turns, ¬ t.Failed
  | .typed line sent _ =>
      ∃ t turns rest, s.turns = t :: turns ∧ t.line = some line ∧ t.sent.map Prod.snd = sent ∧
        Position stdin t.before rest ∧ fgets maxMsgLen rest = (some line, s.stdin) ∧
        ∀ t ∈ turns, ¬ t.Failed
  | .left => s.disconnected = true ∧ ∀ t ∈ s.turns, ¬ t.Failed

/-- The console in a phase of a pass. -/
structure Follows (stdin : Bytes) (g : Phase) (s : Console) : Prop where
  safe : Phase.monitor.Safe Phase.Post g s.code
  tracks : s.Tracks stdin g
  flag : s.running = false ↔ s.disconnected = true ∨ g.stopped = true
  chain : Chain s.turns s.taken
  sound : ∀ t ∈ s.turns, ∀ line, t.line = some line → t.Sound stdin line

variable {stdin : Bytes} {g : Phase} {s s' : Console} {sent : Bool}

/-- An entry changes the last turn only. -/
theorem note_eq (s : Console) (f : Turn → Turn) :
    s.note f = { s with turns := s.turns.modifyHead f } := by
  obtain ⟨stdin, running, code, disconnected, taken, turns⟩ := s
  cases turns <;> rfl

theorem follows_init : ((inputSystem stdin).init).Follows stdin .waiting where
  safe := Phase.safe_inputLoop
  tracks := ⟨.start, List.forall_mem_nil _⟩
  flag := by simp [inputSystem, Phase.stopped]
  chain := .nil
  sound := List.forall_mem_nil _

/-- The receiver only clears the flag. -/
theorem Follows.receiver (h : s.Follows stdin g) :
    ({ s with running := false, disconnected := true } : Console).Follows stdin g where
  safe := h.safe
  tracks := by
    cases g with
    | left => exact ⟨rfl, h.tracks.2⟩
    | _ => exact h.tracks
  flag := by simp
  chain := h.chain
  sound := h.sound

/-- The next pass begins behind the line. -/
theorem Follows.pass (h : s.Follows stdin g) (hcode : s.code = .ret none) :
    ({ s with code := inputTurn } : Console).Follows stdin .waiting := by
  have hpost : Phase.Post g none := by
    have := h.safe
    rwa [hcode] at this
  have htracks := h.tracks
  have hflag := h.flag
  cases hpost with
  | first => exact ⟨Phase.safe_inputTurn, htracks, hflag, h.chain, h.sound⟩
  | @go line sent hquit hsent =>
    obtain ⟨t, turns, rest, hturns, hline, hout, hpos, hread, hnone⟩ := htracks
    have htaken : s.taken = t.before ++ line := by
      have hchain := h.chain
      rw [hturns] at hchain
      cases hchain with
      | cons _ _ htaken => rw [htaken, hline]; rfl
    refine ⟨Phase.safe_inputTurn, ⟨?_, ?_⟩, hflag, h.chain, h.sound⟩
    · show Position stdin s.taken s.stdin
      rw [htaken]
      exact hpos.next hread hquit
    · show ∀ t ∈ s.turns, ¬ t.Failed
      rw [hturns]
      refine List.forall_mem_cons.2 ⟨?_, hnone⟩
      rintro ⟨_, buf, _, _, hbuf⟩
      apply hsent
      rw [← hout]
      exact List.mem_map_of_mem hbuf

/-- The last turn gets an entry. -/
theorem Follows.note {f : Turn → Turn} {g' : Phase} {code : InputProg (Option ClientResult)}
    (h : s.Follows stdin g) (hf : ∀ t, (f t).before = t.before ∧ (f t).line = t.line)
    (hsafe : Phase.monitor.Safe Phase.Post g' code) (hstopped : g'.stopped = g.stopped)
    (htracks : ({ s with turns := s.turns.modifyHead f } : Console).Tracks stdin g')
    (hsound : ∀ t turns line, s.turns = t :: turns → t.line = some line → t.Sound stdin line →
      (f t).Sound stdin line) :
    ({ s.note f with code := code } : Console).Follows stdin g' := by
  rw [note_eq]
  refine ⟨hsafe, ?_, ?_, ?_, ?_⟩
  · exact htracks
  · show s.running = false ↔ s.disconnected = true ∨ g'.stopped = true
    rw [hstopped]
    exact h.flag
  · show Chain (s.turns.modifyHead f) s.taken
    have hchain := h.chain
    cases hturns : s.turns with
    | nil =>
      rw [hturns] at hchain
      exact hchain
    | cons t turns =>
      rw [hturns] at hchain
      obtain ⟨hbefore, hline⟩ := hf t
      cases hchain with
      | cons hrest hne htaken =>
        refine .cons ?_ ?_ ?_
        · rw [hbefore]
          exact hrest
        · rw [hline]
          exact hne
        · rw [hbefore, hline]
          exact htaken
  · show ∀ t ∈ s.turns.modifyHead f, ∀ line, t.line = some line → t.Sound stdin line
    have hall := h.sound
    cases hturns : s.turns with
    | nil => exact List.forall_mem_nil _
    | cons t turns =>
      rw [hturns] at hall
      refine List.forall_mem_cons.2 ⟨?_, fun t' ht' => hall t' (List.mem_cons_of_mem _ ht')⟩
      intro line hline
      rw [(hf t).2] at hline
      exact hsound t turns line hturns hline (hall t List.mem_cons_self line hline)

/-- `fgets` opens a turn. -/
theorem Follows.fgets {code : InputProg (Option ClientResult)} (h : s.Follows stdin .waiting)
    (hsafe : Phase.monitor.Safe Phase.Post
      (Phase.next .waiting .fgets (ChatMultithread.fgets maxMsgLen s.stdin).1) code) :
    ({ (s.perform sent .fgets).2 with code := code } : Console).Follows stdin
      (Phase.next .waiting .fgets (ChatMultithread.fgets maxMsgLen s.stdin).1) := by
  obtain ⟨hpos, hnone⟩ := h.tracks
  cases hread : ChatMultithread.fgets maxMsgLen s.stdin with
  | mk line rest =>
    rw [hread] at hsafe
    simp only [perform, hread] at hsafe ⊢
    cases line with
    | none =>
      refine ⟨hsafe, ⟨⟨_, _, rfl, rfl⟩, ?_⟩, h.flag, ?_, ?_⟩
      · refine List.forall_mem_cons.2 ⟨?_, hnone⟩
        rintro ⟨line, buf, hline, _⟩
        cases hline
      · refine .cons h.chain ?_ rfl
        intro line hline
        cases hline
      · refine List.forall_mem_cons.2 ⟨?_, h.sound⟩
        intro line hline
        cases hline
    | some line =>
      obtain ⟨_, hne, _⟩ := fgets_some (by decide) hread
      refine ⟨hsafe, ⟨_, _, s.stdin, rfl, rfl, rfl, hpos, hread, hnone⟩, h.flag, ?_, ?_⟩
      · refine .cons h.chain ?_ rfl
        intro line' hline
        cases hline
        exact hne
      · refine List.forall_mem_cons.2 ⟨?_, h.sound⟩
        intro line' hline
        cases hline
        refine ⟨⟨s.stdin, rest, hpos, hread⟩, Nat.zero_le _, ?_⟩
        rintro ⟨_, hsent | hhelp⟩
        · exact absurd rfl hsent
        · cases hhelp

/-- What is printed changes no phase. -/
theorem tracks_print (ps : List Printed) (h : s.Tracks stdin g) :
    ({ s with turns := s.turns.modifyHead fun t => { t with printed := t.printed ++ ps } } :
      Console).Tracks stdin g := by
  have hnone : ∀ turns : List Turn, (∀ t ∈ turns, ¬ t.Failed) →
      ∀ t ∈ turns.modifyHead fun t => { t with printed := t.printed ++ ps }, ¬ t.Failed := by
    intro turns hall
    cases turns with
    | nil => exact List.forall_mem_nil _
    | cons t turns =>
      obtain ⟨ht, hturns⟩ := List.forall_mem_cons.1 hall
      exact List.forall_mem_cons.2 ⟨ht, hturns⟩
  cases g with
  | waiting => exact ⟨h.1, hnone _ h.2⟩
  | left => exact ⟨h.1, hnone _ h.2⟩
  | ended stopped =>
    obtain ⟨⟨t, turns, hturns, hline⟩, hall⟩ := h
    refine ⟨⟨{ t with printed := t.printed ++ ps }, turns, ?_, hline⟩, hnone _ hall⟩
    rw [hturns]
    rfl
  | typed line sent stopped =>
    obtain ⟨t, turns, rest, hturns, hrest⟩ := h
    refine ⟨{ t with printed := t.printed ++ ps }, turns, rest, ?_, hrest⟩
    rw [hturns]
    rfl

/-- The loop reads the flag. -/
theorem Follows.running {code : InputProg (Option ClientResult)} (h : s.Follows stdin g)
    (hstopped : g.stopped = false) (hnone : ∀ t ∈ s.turns, ¬ t.Failed)
    (hsafe : Phase.monitor.Safe Phase.Post (g.next .running s.running) code) :
    ({ s with code := code } : Console).Follows stdin (g.next .running s.running) := by
  have hflag := h.flag
  by_cases hrun : s.running = true
  · have hnext : g.next .running s.running = g := by
      rw [hrun]
      cases g <;> rfl
    rw [hnext] at hsafe ⊢
    exact ⟨hsafe, h.tracks, hflag, h.chain, h.sound⟩
  · rw [Bool.not_eq_true] at hrun
    have hnext : g.next .running s.running = .left := by
      rw [hrun]
      cases g <;> rfl
    have hdisc : s.disconnected = true := by
      rcases hflag.1 hrun with hdisc | hstop
      · exact hdisc
      · rw [hstopped] at hstop
        cases hstop
    rw [hnext] at hsafe ⊢
    refine ⟨hsafe, ⟨hdisc, hnone⟩, ?_, h.chain, h.sound⟩
    exact ⟨fun _ => .inl hdisc, fun _ => hrun⟩

/-- The loop clears the flag. -/
theorem Follows.stop {g' : Phase} {code : InputProg (Option ClientResult)}
    (h : s.Follows stdin g) (hstopped : g'.stopped = true) (htracks : s.Tracks stdin g')
    (hsafe : Phase.monitor.Safe Phase.Post g' code) :
    ({ s with running := false, code := code } : Console).Follows stdin g' := by
  have hclear : false = false ↔ s.disconnected = true ∨ g'.stopped = true :=
    ⟨fun _ => .inr hstopped, fun _ => rfl⟩
  cases g' with
  | ended stopped => exact ⟨hsafe, htracks, hclear, h.chain, h.sound⟩
  | typed line sent stopped => exact ⟨hsafe, htracks, hclear, h.chain, h.sound⟩
  | waiting => cases hstopped
  | left => cases hstopped

/-- The `QUIT` at the end of the input is sent. -/
theorem Follows.sendEnded {buf : Bytes} {code : InputProg (Option ClientResult)}
    (h : s.Follows stdin (.ended true))
    (hsafe : Phase.monitor.Safe Phase.Post (.ended true) code) :
    ({ s.note (fun t => { t with sent := t.sent ++ [(buf, sent)] }) with code := code } :
      Console).Follows stdin (.ended true) := by
  obtain ⟨⟨t, turns, hturns, hline⟩, hall⟩ := h.tracks
  refine h.note (fun _ => ⟨rfl, rfl⟩) hsafe rfl ?_ ?_
  · rw [hturns] at hall
    obtain ⟨_, hrest⟩ := List.forall_mem_cons.1 hall
    refine ⟨⟨{ t with sent := t.sent ++ [(buf, sent)] }, turns, ?_, hline⟩, ?_⟩
    · rw [hturns]
      rfl
    · rw [hturns]
      refine List.forall_mem_cons.2 ⟨?_, hrest⟩
      rintro ⟨line, _, hsome, _⟩
      cases hline.symm.trans hsome
  · intro t' turns' line hturns' hsome
    rw [hturns] at hturns'
    cases hturns'
    cases hline.symm.trans hsome

/-- The line of a command is sent. -/
theorem Follows.send {line buf : Bytes} {code : InputProg (Option ClientResult)}
    (h : s.Follows stdin (.typed line [] false)) (hcmd : carriedOut (Phase.commandOf line) = true)
    (hsafe : Phase.monitor.Safe Phase.Post (.typed line [sent] false) code) :
    ({ s.note (fun t => { t with sent := t.sent ++ [(buf, sent)] }) with code := code } :
      Console).Follows stdin (.typed line [sent] false) := by
  obtain ⟨t, turns, rest, hturns, hline, hout, hrest⟩ := h.tracks
  have hempty : t.sent = [] := List.map_eq_nil_iff.1 hout
  refine h.note (fun _ => ⟨rfl, rfl⟩) hsafe rfl ?_ ?_
  · refine ⟨{ t with sent := t.sent ++ [(buf, sent)] }, turns, rest, ?_, hline, ?_, hrest⟩
    · rw [hturns]
      rfl
    · show (t.sent ++ [(buf, sent)]).map Prod.snd = [sent]
      rw [hempty]
      rfl
  · intro t' turns' line' hturns' hline' hsound
    rw [hturns] at hturns'
    cases hturns'
    cases hline.symm.trans hline'
    refine ⟨hsound.position, ?_, fun _ => hcmd⟩
    rw [hempty]
    exact Nat.le_refl 1

/-- The help is printed for a command that is carried out. -/
theorem Follows.help {line : Bytes} {ps : List Printed} {code : InputProg (Option ClientResult)}
    (h : s.Follows stdin (.typed line [] false)) (hcmd : carriedOut (Phase.commandOf line) = true)
    (hsafe : Phase.monitor.Safe Phase.Post (.typed line [] false) code) :
    ({ s.note (fun t => { t with printed := t.printed ++ ps }) with code := code } :
      Console).Follows stdin (.typed line [] false) := by
  refine h.note (fun _ => ⟨rfl, rfl⟩) hsafe rfl (tracks_print ps h.tracks) ?_
  intro t' turns' line' hturns' hline' hsound
  obtain ⟨t, turns, rest, hturns, hline, _⟩ := h.tracks
  rw [hturns] at hturns'
  cases hturns'
  cases hline.symm.trans hline'
  exact ⟨hsound.position, hsound.once, fun _ => hcmd⟩

/-- Anything else may be printed in every phase. -/
theorem Follows.print {ps : List Printed} {code : InputProg (Option ClientResult)}
    (h : s.Follows stdin g) (hps : .help ∉ ps) (hsafe : Phase.monitor.Safe Phase.Post g code) :
    ({ s.note (fun t => { t with printed := t.printed ++ ps }) with code := code } :
      Console).Follows stdin g := by
  refine h.note (fun _ => ⟨rfl, rfl⟩) hsafe rfl (tracks_print ps h.tracks) ?_
  intro t' turns' line' _ _ hsound
  refine ⟨hsound.position, hsound.once, ?_⟩
  rintro ⟨hline, hacted⟩
  apply hsound.carriedOut
  refine ⟨hline, ?_⟩
  rcases hacted with hsent | hhelp
  · exact .inl hsent
  · rcases List.mem_append.1 hhelp with hhelp | hhelp
    · exact .inr hhelp
    · exact absurd hhelp hps

/-- One operation of the loop. -/
theorem Follows.perform {o : InputOp} {k : o.Resp → InputProg (Option ClientResult)}
    (h : s.Follows stdin g) (hcode : s.code = .call o k) :
    ∃ g', ({ (s.perform sent o).2 with code := k (s.perform sent o).1 } : Console).Follows stdin g' := by
  have hsafe := h.safe
  rw [hcode] at hsafe
  obtain ⟨hallowed, hnext⟩ := hsafe
  have htracks := h.tracks
  have hsafe' := hnext (s.perform sent o).1 trivial
  refine ⟨g.next o (s.perform sent o).1, ?_⟩
  cases hallowed with
  | running => exact h.running rfl htracks.2 hsafe'
  | @runningTyped line =>
    obtain ⟨t, turns, rest, hturns, hline, hout, hrest⟩ := htracks
    refine h.running rfl ?_ hsafe'
    rw [hturns]
    refine List.forall_mem_cons.2 ⟨?_, hrest.2.2⟩
    rintro ⟨_, buf, _, _, hbuf⟩
    rw [List.map_eq_nil_iff.1 hout] at hbuf
    cases hbuf
  | fgets => exact h.fgets hsafe'
  | stopEnded => exact h.stop rfl htracks hsafe'
  | stop hquit => exact h.stop rfl htracks hsafe'
  | sendEnded => exact h.sendEnded hsafe'
  | send hcmd => exact h.send hcmd hsafe'
  | help hcmd => exact h.help hcmd hsafe'
  | @print _ ps hps =>
    have hsame : g.next (.print ps) () = g := by cases g <;> rfl
    have hsafe'' : Phase.monitor.Safe Phase.Post (g.next (.print ps) ()) (k ()) := hsafe'
    rw [hsame] at hsafe''
    have hprinted := h.print hps hsafe''
    rw [← hsame] at hprinted
    exact hprinted

/-- One step of the console. -/
theorem Follows.step {l : InputLabel} (h : s.Follows stdin g) (hstep : s.step l = some s') :
    ∃ g', s'.Follows stdin g' := by
  cases l with
  | receiver =>
    cases hstep
    exact ⟨g, h.receiver⟩
  | input sent =>
    simp only [Console.step] at hstep
    split at hstep
    · cases hstep
    · rename_i hcode
      cases hstep
      exact ⟨.waiting, h.pass hcode⟩
    · rename_i o k hcode
      cases hstep
      exact h.perform hcode

/-- Every console that is reached is in a phase of a pass. -/
theorem follows_of_reach (h : (inputSystem stdin).Reach s) : ∃ g, s.Follows stdin g := by
  apply System.Reach.invariant (P := fun s => ∃ g, s.Follows stdin g) _ _ h
  · exact ⟨.waiting, follows_init⟩
  · intro s l s' _ ⟨g, hg⟩ hstep
    exact hg.step hstep

end Console

end ChatMultithread
