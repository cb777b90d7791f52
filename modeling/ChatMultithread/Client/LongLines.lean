import ChatMultithread.Client.Passes

/-!
# Lines that `fgets` cuts

`fgets` returns at most 1023 bytes, and `input_loop` parses every block of a longer line afresh. A
block that does not begin its line is executed when it happens to be a command.
-/

namespace ChatMultithread

open Lib

/-- A line begins behind `before`. -/
def BeginsLine (before : Bytes) : Prop := before = [] ∨ before.getLast? = some msgTerminatorChar

instance (before : Bytes) : Decidable (BeginsLine before) := inferInstanceAs (Decidable (_ ∨ _))

/-- How many lines the input has, the last one with or without a newline. -/
def typedLines (stdin : Bytes) : Nat :=
  stdin.count msgTerminatorChar + if BeginsLine stdin then 0 else 1

/-- What was sent for the lines of the input. -/
def sentLines (turns : List Turn) : List (Bytes × Bool) :=
  (turns.filter fun t => t.line.isSome).flatMap Turn.sent

/-- At most one line is sent for each line of the input, and every block that is executed begins
    one. -/
structure OneCommandPerTypedLine (stdin : Bytes) (turns : List Turn) : Prop where
  count : (sentLines turns).length ≤ typedLines stdin
  begins : ∀ t ∈ turns, t.Executed → BeginsLine t.before

/-- No block that the loop can come to inside a line is a command. -/
def BlocksIgnored (stdin : Bytes) : Prop :=
  ∀ before rest line rest', Position stdin before rest → fgets maxMsgLen rest = (some line, rest') →
    ¬ BeginsLine before → carriedOut (Phase.commandOf line) = false

/-! ## Counting lines -/

theorem typedLines_append {a b : Bytes} (hb : b ≠ []) :
    a.count msgTerminatorChar + 1 ≤ typedLines (a ++ b) := by
  have hcount : (a ++ b).count msgTerminatorChar =
      a.count msgTerminatorChar + b.count msgTerminatorChar := List.count_append
  unfold typedLines
  rw [hcount]
  split
  · rename_i hbegins
    have hlast : b.getLast? = some msgTerminatorChar := by
      rcases hbegins with hnil | hlast
      · exact absurd (List.append_eq_nil_iff.1 hnil).2 hb
      · rwa [List.getLast?_append_of_ne_nil a hb] at hlast
    have hmem := List.count_pos_iff.2 (List.mem_of_getLast? hlast)
    omega
  · omega

theorem typedLines_le (a b : Bytes) : typedLines a ≤ typedLines (a ++ b) := by
  by_cases hb : b = []
  · rw [hb, List.append_nil]
  · apply Nat.le_trans _ (typedLines_append hb)
    unfold typedLines
    split <;> omega

theorem Position.append {stdin before rest : Bytes} (h : Position stdin before rest) :
    before ++ rest = stdin := by
  induction h with
  | start => rfl
  | next _ hline _ ih =>
    obtain ⟨hsplit, _⟩ := fgets_some (by decide) hline
    rw [List.append_assoc, ← hsplit]
    exact ih

/-- What was read is a part of the input. -/
theorem Chain.isPrefix {stdin taken : Bytes} {turns : List Turn} (h : Chain turns taken)
    (hsound : ∀ t ∈ turns, ∀ line, t.line = some line → t.Sound stdin line) : taken <+: stdin := by
  induction h with
  | nil => exact List.nil_prefix
  | @cons t turns taken _ _ htaken ih =>
    cases hline : t.line with
    | none =>
      rw [htaken, hline, Option.getD_none, List.append_nil]
      exact ih fun t' ht' => hsound t' (List.mem_cons_of_mem _ ht')
    | some line =>
      obtain ⟨rest, rest', hpos, hread⟩ := (hsound t List.mem_cons_self line hline).position
      obtain ⟨hsplit, _⟩ := fgets_some (by decide) hread
      refine ⟨rest', ?_⟩
      rw [htaken, hline, Option.getD_some, List.append_assoc, ← hsplit]
      exact hpos.append

/-- Where only blocks that begin a line are executed, one line is sent for each at most. -/
theorem Chain.length_sentLines {stdin taken : Bytes} {turns : List Turn} (h : Chain turns taken)
    (hsound : ∀ t ∈ turns, ∀ line, t.line = some line → t.Sound stdin line)
    (hbegins : ∀ t ∈ turns, t.Executed → BeginsLine t.before) :
    (sentLines turns).length ≤ typedLines taken := by
  induction h with
  | nil => exact Nat.zero_le _
  | @cons t turns taken _ hne htaken ih =>
    have hrest := ih (fun t' ht' => hsound t' (List.mem_cons_of_mem _ ht'))
      fun t' ht' => hbegins t' (List.mem_cons_of_mem _ ht')
    cases hline : t.line with
    | none =>
      rw [htaken, hline, Option.getD_none, List.append_nil, sentLines,
        List.filter_cons_of_neg (by simp [hline])]
      exact hrest
    | some line =>
      have hcount := typedLines_append (a := t.before) (hne line hline)
      have honce := (hsound t List.mem_cons_self line hline).once
      rw [htaken, hline, Option.getD_some, sentLines, List.filter_cons_of_pos (by simp [hline]),
        List.flatMap_cons, List.length_append]
      change t.sent.length + (sentLines turns).length ≤ _
      have hle := typedLines_le t.before line
      by_cases hsent : t.sent = []
      · rw [hsent, List.length_nil]
        omega
      · have hexec : t.Executed := ⟨by simp [hline], .inl hsent⟩
        have hlines : typedLines t.before = t.before.count msgTerminatorChar := by
          rw [typedLines, if_pos (hbegins t List.mem_cons_self hexec), Nat.add_zero]
        omega

/-! ## Where blocks begin -/

/-- A position inside a line is a multiple of 1023 bytes behind the beginning of the line. -/
theorem Position.offset {stdin before rest : Bytes} (h : Position stdin before rest)
    (hrest : rest ≠ []) :
    ∃ pre body k, before = pre ++ body ∧ BeginsLine pre ∧ msgTerminatorChar ∉ body ∧
      body.length = k * (maxMsgLen - 1) := by
  induction h with
  | start => exact ⟨[], [], 0, rfl, .inl rfl, List.not_mem_nil, rfl⟩
  | @next before rest line rest' _ hline _ ih =>
    obtain ⟨hsplit, hne, ⟨body, hbody, _⟩ | ⟨hmem, hcut⟩⟩ := fgets_some (by decide) hline
    · refine ⟨before ++ line, [], 0, (List.append_nil _).symm, .inr ?_, List.not_mem_nil, ?_⟩
      · rw [hbody, ← List.append_assoc, List.getLast?_concat]
      · rw [Nat.zero_mul]
        rfl
    · have hlen := hcut.resolve_right hrest
      obtain ⟨pre, body, k, hbefore, hpre, hbody, hk⟩ := ih (by simp [hsplit, hne])
      refine ⟨pre, body ++ line, k + 1, ?_, hpre, ?_, ?_⟩
      · rw [hbefore, List.append_assoc]
      · rw [List.mem_append, not_or]
        exact ⟨hbody, hmem⟩
      · rw [List.length_append, hk, hlen, Nat.succ_mul]

/-! ## Runs that come to a block -/

namespace Console

variable {stdin rest line : Bytes} {s : Console}

/-- The loop takes a step in which a `send` succeeds. -/
theorem reach_input (h : (inputSystem stdin).Reach s) {o : InputOp}
    {k : o.Resp → InputProg (Option ClientResult)} (hcode : s.code = .call o k) :
    (inputSystem stdin).Reach
      { (s.perform true o).2 with code := k (s.perform true o).1 } := by
  apply h.step (l := .input true)
  show Console.step s (.input true) = _
  rw [Console.step, hcode]

/-- The loop reads a line. -/
theorem reach_line (h : (inputSystem stdin).Reach s) (hcode : s.code = .ret none)
    (hrun : s.running = true) (hread : fgets maxMsgLen s.stdin = (some line, rest)) :
    (inputSystem stdin).Reach
      { s with
        stdin := rest
        code := lineTurn line
        taken := s.taken ++ line
        turns := ⟨s.taken, some line, [], []⟩ :: s.turns } := by
  have hpass : (inputSystem stdin).Reach { s with code := inputTurn } := by
    apply h.step (l := .input true)
    show Console.step s (.input true) = _
    rw [Console.step, hcode]
  have hflag := reach_input hpass (o := .running) rfl
  simp only [perform, hrun] at hflag
  have hfgets := reach_input hflag (o := .fgets) rfl
  simp only [perform, hread, Option.getD_some] at hfgets
  have hagain := reach_input hfgets (o := .running) rfl
  simp only [perform] at hagain
  rw [hrun]
  exact hagain

/-- The loop is through with a line other than `/quit`. -/
theorem reach_next (h : (inputSystem stdin).Reach s) (hcode : s.code = lineTurn line)
    (hquit : (Phase.commandOf line).type ≠ .quit) :
    ∃ turns, (inputSystem stdin).Reach { s with code := .ret none, turns := turns } := by
  by_cases hempty : isEmptyLine (cstr line) = true
  · rw [lineTurn, if_pos hempty] at hcode
    have hprompt := reach_input h hcode
    simp only [perform, note_eq] at hprompt
    exact ⟨_, hprompt⟩
  rw [lineTurn, if_neg hempty] at hcode
  change s.code = (handleCommand (Phase.commandOf line) >>= _) at hcode
  rcases handleCommand_cases (Phase.commandOf line) with ⟨_, p, _, heq⟩ | ⟨_, heq⟩ |
    ⟨buf, _, _, heq⟩ | ⟨hother, _⟩
  · rw [heq] at hcode
    have herror := reach_input h hcode
    simp only [perform, note_eq] at herror
    exact ⟨_, herror⟩
  · rw [heq] at hcode
    have hhelp := reach_input h hcode
    simp only [perform, note_eq] at hhelp
    exact ⟨_, hhelp⟩
  · rw [heq] at hcode
    have hsent := reach_input h hcode
    simp only [perform, note_eq] at hsent
    exact ⟨_, hsent⟩
  · exact absurd hother hquit

/-- The loop executes a line that is a command. -/
theorem reach_executed (h : (inputSystem stdin).Reach s) (hcode : s.code = lineTurn line)
    (hcmd : carriedOut (Phase.commandOf line) = true) {t : Turn} {turns : List Turn}
    (hturns : s.turns = t :: turns) (hline : t.line = some line) :
    ∃ s' t', (inputSystem stdin).Reach s' ∧ t' ∈ s'.turns ∧ t'.before = t.before ∧ t'.Executed := by
  have hsome : t.line ≠ none := by simp [hline]
  by_cases hempty : isEmptyLine (cstr line) = true
  · rw [Phase.commandOf, parseCommand_of_isEmptyLine hempty] at hcmd
    exact absurd hcmd (by decide)
  rw [lineTurn, if_neg hempty] at hcode
  change s.code = (handleCommand (Phase.commandOf line) >>= _) at hcode
  have hsend : ∀ buf k, s.code = .call (.send buf) k →
      ∃ s' t', (inputSystem stdin).Reach s' ∧ t' ∈ s'.turns ∧ t'.before = t.before ∧
        t'.Executed := by
    intro buf k hcode
    have hsent := reach_input h hcode
    simp only [perform, note_eq, hturns] at hsent
    exact ⟨_, _, hsent, List.mem_cons_self, rfl, hsome, .inl (by simp)⟩
  rcases handleCommand_cases (Phase.commandOf line) with ⟨hnot, _⟩ | ⟨_, heq⟩ |
    ⟨buf, _, _, heq⟩ | ⟨_, heq⟩
  · rw [hcmd] at hnot
    cases hnot
  · rw [heq] at hcode
    have hhelp := reach_input h hcode
    simp only [perform, note_eq, hturns] at hhelp
    exact ⟨_, _, hhelp, List.mem_cons_self, rfl, hsome, .inr (by simp)⟩
  · rw [heq] at hcode
    exact hsend _ _ hcode
  · rw [heq] at hcode
    exact hsend _ _ hcode

/-- The loop comes to every position, as long as nobody clears the flag and every `send`
    succeeds. -/
theorem reach_position {before : Bytes} (h : Position stdin before rest) :
    ∃ s, (inputSystem stdin).Reach s ∧ s.code = .ret none ∧ s.running = true ∧ s.taken = before ∧
      s.stdin = rest := by
  induction h with
  | start =>
    have hprompt := @reach_input stdin _ System.Reach.init _ _ rfl
    exact ⟨_, hprompt, rfl, rfl, rfl, rfl⟩
  | next _ hread hquit ih =>
    obtain ⟨s, hs, hcode, hrun, rfl, rfl⟩ := ih
    obtain ⟨turns, hnext⟩ := reach_next (reach_line hs hcode hrun hread) rfl hquit
    exact ⟨_, hnext, rfl, hrun, rfl, rfl⟩

/-- Every command that begins where the loop comes is executed in some run. -/
theorem executed_of_position {before rest' : Bytes} (h : Position stdin before rest)
    (hread : fgets maxMsgLen rest = (some line, rest'))
    (hcmd : carriedOut (Phase.commandOf line) = true) :
    ∃ s t, (inputSystem stdin).Reach s ∧ t ∈ s.turns ∧ t.before = before ∧ t.Executed := by
  obtain ⟨s, hs, hcode, hrun, rfl, rfl⟩ := reach_position h
  exact reach_executed (reach_line hs hcode hrun hread) rfl hcmd rfl rfl

/-- The loop sends at most one line for each line of the input, and executes no block of a line but
    the first, exactly when no other block that it can come to is a command. -/
theorem oneCommandPerTypedLine_iff (stdin : Bytes) :
    (∀ s, (inputSystem stdin).Reach s → OneCommandPerTypedLine stdin s.turns) ↔
      BlocksIgnored stdin := by
  constructor
  · intro h before rest line rest' hpos hread hinside
    cases hcmd : carriedOut (Phase.commandOf line) with
    | false => rfl
    | true =>
      obtain ⟨s, t, hs, ht, rfl, hexec⟩ := executed_of_position hpos hread hcmd
      exact absurd ((h s hs).begins t ht hexec) hinside
  · intro h s hs
    obtain ⟨g, hg⟩ := follows_of_reach hs
    have hbegins : ∀ t ∈ s.turns, t.Executed → BeginsLine t.before := by
      intro t ht hexec
      obtain ⟨line, hline⟩ := Option.ne_none_iff_exists'.1 hexec.1
      have hsound := hg.sound t ht line hline
      obtain ⟨rest, rest', hpos, hread⟩ := hsound.position
      by_contra hinside
      have hnot := h _ _ _ _ hpos hread hinside
      rw [hsound.carriedOut hexec] at hnot
      cases hnot
    refine ⟨?_, hbegins⟩
    obtain ⟨rest, hrest⟩ := hg.chain.isPrefix hg.sound
    apply Nat.le_trans (hg.chain.length_sentLines hg.sound hbegins)
    rw [← hrest]
    exact typedLines_le s.taken rest

/-- The 1023 bytes behind which a long message continues with `/quit`. -/
def longMessage : Bytes := ascii "/all " ++ List.replicate 1018 97

/-- The end of a long message is executed as `/quit`. -/
theorem longMessage_quits :
    ¬ ∀ stdin s, (inputSystem stdin).Reach s → OneCommandPerTypedLine stdin s.turns := by
  intro h
  have hfirst : fgets maxMsgLen (longMessage ++ ascii "/quit\n") =
      (some longMessage, ascii "/quit\n") := by
    decide +kernel
  have hother : (Phase.commandOf longMessage).type ≠ .quit := by decide +kernel
  have hpos := Position.start.next hfirst hother
  have hrest : fgets maxMsgLen (ascii "/quit\n") = (some (ascii "/quit\n"), []) := by
    decide +kernel
  obtain ⟨s, t, hs, ht, hbefore, hexec⟩ := executed_of_position hpos hrest (by decide +kernel)
  have hbegins := (h _ s hs).begins t ht hexec
  rw [hbefore, List.nil_append] at hbegins
  exact absurd hbegins (by decide +kernel)

end Console

end ChatMultithread
