import ChatMultithread.Client.Commands

/-!
# The commands of the console

The lines that the help text of the client describes, and what `parse_command` makes of them. The
other way round, whatever it takes for a command begins with one of the seven words.
-/

namespace ChatMultithread

open Lib

/-- An argument of a command: a word that fits `arg1`. -/
structure Argument (u : Bytes) : Prop where
  ne_nil : u ≠ []
  length_le : u.length ≤ maxUsernameLen - 1
  plain : ∀ b ∈ u, isBlank b = false ∧ isLineEnd b = false

/-- A line of the console and the command it stands for. -/
inductive ConsoleLine : Bytes → ParsedCommand → Prop
  | list {pre e : Bytes} (hpre : ∀ b ∈ pre, isBlank b = true) (he : FinalNewline e) :
      ConsoleLine (pre ++ ascii "/list" ++ e) ⟨.list, [], []⟩
  | help {pre e : Bytes} (hpre : ∀ b ∈ pre, isBlank b = true) (he : FinalNewline e) :
      ConsoleLine (pre ++ ascii "/help" ++ e) ⟨.help, [], []⟩
  | quit {pre e : Bytes} (hpre : ∀ b ∈ pre, isBlank b = true) (he : FinalNewline e) :
      ConsoleLine (pre ++ ascii "/quit" ++ e) ⟨.quit, [], []⟩
  | info {pre ws u e : Bytes} (hpre : ∀ b ∈ pre, isBlank b = true) (hws : Blanks ws)
      (hu : Argument u) (he : FinalNewline e) :
      ConsoleLine (pre ++ ascii "/info" ++ (ws ++ (u ++ e))) ⟨.info, u, []⟩
  | status {pre ws u e : Bytes} (hpre : ∀ b ∈ pre, isBlank b = true) (hws : Blanks ws)
      (hu : Argument u) (he : FinalNewline e) :
      ConsoleLine (pre ++ ascii "/status" ++ (ws ++ (u ++ e))) ⟨.status, u.map toupper, []⟩
  | msg {pre ws u ws' t e : Bytes} (hpre : ∀ b ∈ pre, isBlank b = true) (hws : Blanks ws)
      (hu : Argument u) (hws' : Blanks ws') (ht : Sendable t) (he : FinalNewline e) :
      ConsoleLine (pre ++ ascii "/msg" ++ (ws ++ (u ++ (ws' ++ (t ++ e))))) ⟨.msg, u, t⟩
  | all {pre ws t e : Bytes} (hpre : ∀ b ∈ pre, isBlank b = true) (hws : Blanks ws)
      (ht : Sendable t) (he : FinalNewline e) :
      ConsoleLine (pre ++ ascii "/all" ++ (ws ++ (t ++ e))) ⟨.all, [], t⟩

/-- The words of the commands. -/
def consoleWords : List Bytes :=
  [ascii "list", ascii "help", ascii "quit", ascii "info", ascii "status", ascii "msg", ascii "all"]

/-! ## From the line to the command -/

theorem FinalNewline.wordEnd {e : Bytes} (h : FinalNewline e) : WordEnd e := by
  rcases h with rfl | rfl
  · intro b hb
    cases hb
  · intro b hb
    obtain rfl := Option.some.inj hb
    decide

theorem Argument.head_append {u : Bytes} (h : Argument u) (e : Bytes) :
    ∀ b ∈ (u ++ e).head?, isBlank b = false := by
  rw [List.head?_append_of_ne_nil _ h.ne_nil]
  exact fun b hb => (h.plain b (List.mem_of_head? hb)).1

theorem Argument.destination {u : Bytes} (h : Argument u) : Destination u where
  ne_nil := h.ne_nil
  length_lt := Nat.lt_succ_of_le h.length_le
  blank b hb := (h.plain b hb).1

theorem isLineEnd_toupper (c : UInt8) : isLineEnd (toupper c) = isLineEnd c := by
  have hall : ∀ n : Fin 256, isLineEnd (toupper (UInt8.ofFin n)) = isLineEnd (UInt8.ofFin n) := by
    decide +kernel
  exact hall c.toFin

/-- The argument of `/status` arrives in upper case. -/
theorem Argument.trim_upper {u e : Bytes} (h : Argument u) (he : FinalNewline e) :
    trimNewline (strToupperCopy (u ++ e) maxUsernameLen) = u.map toupper := by
  have hnewline : e.map toupper = e := by
    rcases he with rfl | rfl <;> decide
  have hcopy : strToupperCopy (u ++ e) maxUsernameLen =
      strncpy (maxUsernameLen - 1) (u.map toupper ++ e) := by
    rw [strToupperCopy, List.map_take, List.map_append, hnewline, strncpy]
  rw [hcopy]
  apply trimNewline_strncpy _ _ he
  · rw [List.length_map]
    exact h.length_le
  · intro b hb
    obtain ⟨c, hc, rfl⟩ := List.mem_map.1 (List.mem_of_getLast? hb)
    rw [isLineEnd_toupper]
    exact (h.plain c hc).2

/-- A line of the console is parsed as the command it stands for. -/
theorem ConsoleLine.parseCommand {line : Bytes} {cmd : ParsedCommand} (h : ConsoleLine line cmd) :
    parseCommand line = cmd := by
  cases h with
  | list hpre he => exact parseCommand_list hpre he.wordEnd
  | help hpre he => exact parseCommand_help hpre he.wordEnd
  | quit hpre he => exact parseCommand_quit hpre he.wordEnd
  | @info pre ws u e hpre hws hu he =>
    have hskip := hws.skipSpaces (hu.head_append e)
    have hne : skipSpaces (ws ++ (u ++ e)) ≠ [] := by
      rw [hskip]
      exact List.append_ne_nil_of_left_ne_nil hu.ne_nil e
    have hlast : ∀ b ∈ u.getLast?, isLineEnd b = false := fun b hb =>
      (hu.plain b (List.mem_of_getLast? hb)).2
    rw [parseCommand_info hpre (hws.wordEnd _) hne, hskip, trimNewline_strncpy hu.length_le hlast he]
    rfl
  | @status pre ws u e hpre hws hu he =>
    have hskip := hws.skipSpaces (hu.head_append e)
    have hne : skipSpaces (ws ++ (u ++ e)) ≠ [] := by
      rw [hskip]
      exact List.append_ne_nil_of_left_ne_nil hu.ne_nil e
    rw [parseCommand_status hpre (hws.wordEnd _) hne, hskip, hu.trim_upper he]
    rfl
  | msg hpre hws hu hws' ht he => exact parseCommand_msgText hpre hws ht he hu.destination hws'
  | all hpre hws ht he => exact parseCommand_allText hpre hws ht he

/-! ## From the command to the line -/

theorem commandWord_split (room : Nat) (p : Bytes) :
    (commandWord room p).1 ++ (commandWord room p).2 = p := by
  induction room generalizing p with
  | zero => rfl
  | succ room ih =>
    cases p with
    | nil => rfl
    | cons b p =>
      rw [commandWord]
      split
      · rfl
      · exact congrArg _ (ih p)

/-- A word that has not filled its array has come to its end. -/
theorem commandWord_end {room : Nat} {p : Bytes} (h : (commandWord room p).1.length < room) :
    WordEnd (commandWord room p).2 := by
  induction room generalizing p with
  | zero => cases h
  | succ room ih =>
    cases p with
    | nil =>
      intro b hb
      cases hb
    | cons b p =>
      rw [commandWord] at h ⊢
      split at h
      · rename_i hb
        rw [if_pos hb]
        intro c hc
        obtain rfl := Option.some.inj hc
        exact hb
      · rename_i hb
        rw [if_neg hb]
        exact ih (Nat.lt_of_succ_lt_succ h)

/-- Only a line that begins with `'/'` and one of the words is taken for a command. -/
theorem parseCommand_known {line : Bytes} (h : (parseCommand line).type ≠ .unknown) :
    ∃ pre w rest, line = pre ++ 47 :: (w ++ rest) ∧ (∀ b ∈ pre, isBlank b = true) ∧
      w ∈ consoleWords ∧ WordEnd rest := by
  have hline : line.takeWhile isBlank ++ skipSpaces line = line := List.takeWhile_append_dropWhile
  unfold ChatMultithread.parseCommand at h
  cases hskip : skipSpaces line with
  | nil =>
    rw [hskip] at h
    exact absurd rfl h
  | cons b p =>
    rw [hskip] at h hline
    dsimp only at h
    split at h
    · exact absurd rfl h
    · rename_i hslash
      have hword : (commandWord 31 p).1 ∈ consoleWords := by
        by_contra hother
        simp only [consoleWords, List.mem_cons, List.not_mem_nil, or_false, not_or] at hother
        obtain ⟨h1, h2, h3, h4, h5, h6, h7⟩ := hother
        rw [if_neg h1, if_neg h2, if_neg h3, if_neg h4, if_neg h5, if_neg h6, if_neg h7] at h
        exact h rfl
      have hshort : ∀ w ∈ consoleWords, w.length < 31 := by decide
      refine ⟨line.takeWhile isBlank, _, _, ?_, fun b hb => List.mem_takeWhile_imp hb, hword,
        commandWord_end (hshort _ hword)⟩
      rw [commandWord_split, ← not_not.1 hslash]
      exact hline.symm

theorem length_parseMsgCommand (p : Bytes) :
    (parseMsgCommand p).arg1.length < maxUsernameLen ∧ (parseMsgCommand p).arg2.length < maxChatLen := by
  have hdest : (strncpy (maxUsernameLen - 1) (p.takeWhile (!isBlank ·))).length < maxUsernameLen :=
    Nat.lt_succ_of_le (List.length_take_le _ _)
  unfold parseMsgCommand
  dsimp only
  split
  · exact ⟨hdest, Nat.succ_pos _⟩
  · exact ⟨hdest, Nat.lt_succ_of_le (length_trimNewline_strncpy_le _ _)⟩

/-- The arguments leave room for their terminators. -/
theorem length_parseCommand (line : Bytes) :
    (parseCommand line).arg1.length < maxUsernameLen ∧
      (parseCommand line).arg2.length < maxChatLen := by
  rcases parseCommand_cases line with ⟨h1, h2, -⟩ | ⟨p, -, h | h | h | h⟩
  · rw [h1, h2]
    decide
  · rw [h]
    exact ⟨Nat.lt_succ_of_le (length_trimNewline_strncpy_le _ _), Nat.succ_pos _⟩
  · have hcopy : (strToupperCopy p maxUsernameLen).length ≤ maxUsernameLen - 1 := by
      rw [strToupperCopy, List.length_map]
      exact List.length_take_le _ _
    rw [h]
    exact ⟨Nat.lt_succ_of_le (Nat.le_trans (length_trimNewline_le _) hcopy), Nat.succ_pos _⟩
  · rw [h]
    exact length_parseMsgCommand p
  · rw [h]
    exact ⟨Nat.succ_pos _, Nat.lt_succ_of_le (length_trimNewline_strncpy_le _ _)⟩

/-- `parse_command` accepts the lines of the console, takes nothing for a command that does not
    begin with one of its words, and keeps its arguments within their arrays. -/
theorem parseCommand_grammar :
    (∀ line cmd, ConsoleLine line cmd → parseCommand line = cmd) ∧
      (∀ line, (parseCommand line).type ≠ .unknown →
        ∃ pre w rest, line = pre ++ 47 :: (w ++ rest) ∧ (∀ b ∈ pre, isBlank b = true) ∧
          w ∈ consoleWords ∧ WordEnd rest) ∧
      ∀ line, (parseCommand line).arg1.length < maxUsernameLen ∧
        (parseCommand line).arg2.length < maxChatLen :=
  ⟨fun _ _ h => h.parseCommand, fun _ h => parseCommand_known h, length_parseCommand⟩

example : parseCommand (ascii " \t/status ocupado\n") = ⟨.status, ascii "OCUPADO", []⟩ := by
  decide +kernel

end ChatMultithread
