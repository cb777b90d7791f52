import ChatMultithread.Client.InputLoop
import ChatMultithread.Common.Builders
import ChatMultithread.Common.Parser

/-!
# The commands a client sends

What `parse_command` makes of a line of the standard input and `command_to_proto` of that. A line
that `fgets` returns has a newline at its end at most. The arguments have none: `trim_newline` runs
after every copy that cuts, and the one copy that it does not follow, that of the destination of
`/msg`, holds a newline only where the text is missing and the command is not sent.
-/

namespace ChatMultithread

open Lib

/-! ## Lines of the standard input -/

/-- A newline stands at the end of the string at most. -/
def NewlineLast (s : Bytes) : Prop := msgTerminatorChar ∉ s.dropLast

instance (s : Bytes) : Decidable (NewlineLast s) := inferInstanceAs (Decidable (_ ∉ _))

theorem newlineLast_iff {s : Bytes} :
    NewlineLast s ↔ ∀ a b, s = a ++ msgTerminatorChar :: b → b = [] := by
  constructor
  · intro h a b hs
    by_contra hb
    apply h
    rw [hs, List.dropLast_append_of_ne_nil (List.cons_ne_nil _ _), List.dropLast_cons_of_ne_nil hb]
    exact List.mem_append_right _ List.mem_cons_self
  · intro h hmem
    obtain ⟨a, b, hab⟩ := List.append_of_mem hmem
    have hne : s ≠ [] := by
      intro hs
      rw [hs] at hmem
      cases hmem
    have hsplit := List.dropLast_append_getLast hne
    rw [hab, List.append_assoc, List.cons_append] at hsplit
    have hb := h a _ hsplit.symm
    simp at hb

/-- A part of such a string is one. -/
theorem NewlineLast.part {s t : Bytes} (h : NewlineLast s) (ht : t <:+: s) : NewlineLast t := by
  rw [newlineLast_iff] at h ⊢
  intro a b hab
  obtain ⟨p, q, hpq⟩ := ht
  have hs : s = (p ++ a) ++ msgTerminatorChar :: (b ++ q) := by
    rw [← hpq, hab]
    simp
  exact (List.append_eq_nil_iff.1 (h _ _ hs)).1

theorem NewlineLast.strncpy {s : Bytes} (h : NewlineLast s) (n : Nat) : NewlineLast (strncpy n s) :=
  h.part (List.take_prefix n s).isInfix

/-- `toupper` neither makes a newline nor takes one away. -/
theorem NewlineLast.strToupperCopy {s : Bytes} (h : NewlineLast s) (n : Nat) :
    NewlineLast (strToupperCopy s n) := by
  have hupper : ∀ c : UInt8, toupper c = msgTerminatorChar → c = msgTerminatorChar := by
    intro c hc
    unfold toupper at hc
    split at hc
    · rename_i hrange
      have hall : ∀ n : Fin 256, 97 ≤ UInt8.ofFin n → UInt8.ofFin n ≤ 122 →
          UInt8.ofFin n - 32 ≠ msgTerminatorChar := by decide +kernel
      exact absurd hc (hall c.toFin hrange.1 hrange.2)
    · exact hc
  intro hmem
  unfold ChatMultithread.strToupperCopy at hmem
  rw [← List.map_dropLast] at hmem
  obtain ⟨c, hc, hcnl⟩ := List.mem_map.1 hmem
  rw [hupper c hcnl] at hc
  exact h.part (List.take_prefix _ s).isInfix hc

/-- `trim_newline` leaves no newline of one that stands at the end. -/
theorem NewlineLast.trimNewline {s : Bytes} (h : NewlineLast s) : msgTerminatorChar ∉ trimNewline s := by
  rcases List.eq_nil_or_concat s with rfl | ⟨s, b, rfl⟩
  · exact List.not_mem_nil
  · rw [List.concat_eq_append] at h ⊢
    have hs : msgTerminatorChar ∉ s := by
      have := h
      rwa [NewlineLast, List.dropLast_concat] at this
    unfold ChatMultithread.trimNewline
    by_cases hb : isLineEnd b = true
    · rw [List.rdropWhile_concat_pos _ _ _ hb]
      intro hmem
      exact hs ((List.rdropWhile_prefix isLineEnd s).subset hmem)
    · rw [List.rdropWhile_concat_neg _ _ _ hb]
      have hne : b ≠ msgTerminatorChar := by
        intro e
        exact hb (by rw [e]; decide)
      intro hmem
      rcases List.mem_append.1 hmem with hmem | hmem
      · exact hs hmem
      · exact hne (List.mem_singleton.1 hmem).symm

theorem length_trimNewline_le (s : Bytes) : (trimNewline s).length ≤ s.length :=
  (List.rdropWhile_prefix isLineEnd s).length_le

/-! ## What is parsed -/

theorem commandWord_suffix (room : Nat) (p : Bytes) : (commandWord room p).2 <:+ p := by
  induction room generalizing p with
  | zero => exact List.suffix_refl _
  | succ room ih =>
    cases p with
    | nil => exact List.suffix_refl _
    | cons b p =>
      rw [commandWord]
      split
      · exact List.suffix_refl _
      · exact (ih p).trans (List.suffix_cons b p)

/-- What a line may be parsed to: the commands without an argument, and for the others a copy of
    what stands behind the word. -/
def ParsedFrom (line : Bytes) (cmd : ParsedCommand) : Prop :=
  (cmd.arg1 = [] ∧ cmd.arg2 = [] ∧ cmd.type ∉ [CmdType.info, .status, .msg, .all]) ∨
    ∃ p, p <:+ line ∧
      (cmd = { noCommand with type := .info, arg1 := trimNewline (strncpy (maxUsernameLen - 1) p) } ∨
        cmd = { noCommand with type := .status, arg1 := trimNewline (strToupperCopy p maxUsernameLen) } ∨
        cmd = parseMsgCommand p ∨
        cmd = { noCommand with type := .all, arg2 := trimNewline (strncpy (maxChatLen - 1) p) })

theorem parseCommand_cases (line : Bytes) : ParsedFrom line (parseCommand line) := by
  have hskip : skipSpaces line <:+ line := List.dropWhile_suffix _
  unfold parseCommand
  cases hline : skipSpaces line with
  | nil => exact .inl ⟨rfl, rfl, by decide⟩
  | cons b p =>
    rw [hline] at hskip
    have hp : skipSpaces (commandWord 31 p).2 <:+ line :=
      ((List.dropWhile_suffix _).trans (commandWord_suffix 31 p)).trans
        ((List.suffix_cons b p).trans hskip)
    have hnothing : ParsedFrom line noCommand := .inl ⟨rfl, rfl, by decide⟩
    dsimp only
    refine iteInduction (fun _ => hnothing) fun _ => ?_
    -- the commands without an argument
    refine iteInduction (fun _ => .inl ⟨rfl, rfl, by decide⟩) fun _ => ?_
    refine iteInduction (fun _ => .inl ⟨rfl, rfl, by decide⟩) fun _ => ?_
    refine iteInduction (fun _ => .inl ⟨rfl, rfl, by decide⟩) fun _ => ?_
    -- the others, which are no commands without theirs
    refine iteInduction (fun _ => iteInduction (fun _ => hnothing) fun _ => ?_) fun _ => ?_
    · exact .inr ⟨_, hp, .inl rfl⟩
    refine iteInduction (fun _ => iteInduction (fun _ => hnothing) fun _ => ?_) fun _ => ?_
    · exact .inr ⟨_, hp, .inr (.inl rfl)⟩
    refine iteInduction (fun _ => iteInduction (fun _ => hnothing) fun _ => ?_) fun _ => ?_
    · exact .inr ⟨_, hp, .inr (.inr (.inl rfl))⟩
    refine iteInduction (fun _ => iteInduction (fun _ => hnothing) fun _ => ?_) fun _ => hnothing
    exact .inr ⟨_, hp, .inr (.inr (.inr rfl))⟩

/-- A command that was parsed from a line of the standard input: the arguments fit their arrays,
    they are free of newlines where there is a command, and those that a command does not take are
    empty. -/
structure Parsed (cmd : ParsedCommand) : Prop where
  length_arg1 : cmd.arg1.length ≤ maxUsernameLen - 1
  length_arg2 : cmd.arg2.length ≤ maxChatLen - 1
  newline_arg1 : cmd.type ≠ .unknown → msgTerminatorChar ∉ cmd.arg1
  newline_arg2 : msgTerminatorChar ∉ cmd.arg2
  unused_arg1 : cmd.type ∉ [CmdType.info, .status, .msg, .unknown] → cmd.arg1 = []
  unused_arg2 : cmd.type ∉ [CmdType.msg, .all] → cmd.arg2 = []

theorem length_trimNewline_strncpy_le (n : Nat) (s : Bytes) :
    (trimNewline (strncpy n s)).length ≤ n :=
  Nat.le_trans (length_trimNewline_le _) (List.length_take_le _ _)

/-- The destination of `/msg` runs to the end of the line only where no text follows. -/
theorem parsed_parseMsgCommand {p : Bytes} (hp : NewlineLast p) : Parsed (parseMsgCommand p) := by
  have hsplit : p.takeWhile (!isBlank ·) ++ p.dropWhile (!isBlank ·) = p :=
    List.takeWhile_append_dropWhile
  have hrest : NewlineLast (skipSpaces (p.dropWhile (!isBlank ·))) :=
    hp.part ((List.dropWhile_suffix _).trans (List.dropWhile_suffix _)).isInfix
  have hdest : (strncpy (maxUsernameLen - 1) (p.takeWhile (!isBlank ·))).length ≤
      maxUsernameLen - 1 := List.length_take_le _ _
  unfold parseMsgCommand
  dsimp only
  split
  · exact ⟨hdest, Nat.zero_le _, fun h => absurd rfl h, List.not_mem_nil, fun h => absurd (by simp) h, fun _ => rfl⟩
  · rename_i htext
    refine ⟨hdest, length_trimNewline_strncpy_le _ _, ?_, (hrest.strncpy _).trimNewline,
      fun h => absurd (by simp) h, fun h => absurd (by simp) h⟩
    intro _ hmem
    apply htext
    obtain ⟨a, b, hab⟩ := List.append_of_mem (List.mem_of_mem_take hmem)
    have hp' : p = a ++ msgTerminatorChar :: (b ++ p.dropWhile (!isBlank ·)) := by
      rw [← List.cons_append, ← List.append_assoc, ← hab]
      exact hsplit.symm
    have hnil := newlineLast_iff.1 hp _ _ hp'
    rw [(List.append_eq_nil_iff.1 hnil).2]
    rfl

/-- `parse_command` on a line that `fgets` has read. -/
theorem parsed_parseCommand {line : Bytes} (hline : NewlineLast line) : Parsed (parseCommand line) := by
  rcases parseCommand_cases line with ⟨h1, h2, htype⟩ | ⟨p, hp, hcmd⟩
  · refine ⟨?_, ?_, fun _ => ?_, ?_, fun _ => h1, fun _ => h2⟩
    · rw [h1]
      exact Nat.zero_le _
    · rw [h2]
      exact Nat.zero_le _
    · rw [h1]
      exact List.not_mem_nil
    · rw [h2]
      exact List.not_mem_nil
  · have hp' : NewlineLast p := hline.part hp.isInfix
    rcases hcmd with h | h | h | h
    · rw [h]
      exact ⟨length_trimNewline_strncpy_le _ _, Nat.zero_le _,
        fun _ => (hp'.strncpy _).trimNewline, List.not_mem_nil, fun h => absurd (by simp) h,
        fun _ => rfl⟩
    · rw [h]
      have hlen : (strToupperCopy p maxUsernameLen).length ≤ maxUsernameLen - 1 := by
        unfold strToupperCopy
        rw [List.length_map]
        exact List.length_take_le _ _
      exact ⟨Nat.le_trans (length_trimNewline_le _) hlen, Nat.zero_le _,
        fun _ => (hp'.strToupperCopy _).trimNewline, List.not_mem_nil,
        fun h => absurd (by simp) h, fun _ => rfl⟩
    · rw [h]
      exact parsed_parseMsgCommand hp'
    · rw [h]
      exact ⟨Nat.zero_le _, length_trimNewline_strncpy_le _ _, fun _ => List.not_mem_nil,
        (hp'.strncpy _).trimNewline, fun _ => rfl, fun h => absurd (by simp) h⟩

/-! ## What is sent -/

/-- The word of the line for a command. -/
def wireWord (cmd : ParsedCommand) : Bytes :=
  match cmd.type with
  | .list => cmdList
  | .info => cmdInfo
  | .status => cmdStatus
  | .msg => cmdMsg
  | .all => cmdBroadcast
  | .quit => cmdQuit
  | .help | .unknown => []

/-- The fields of the line for a command. -/
def wireArgs (cmd : ParsedCommand) : List Bytes :=
  match cmd.type with
  | .info | .status => [cmd.arg1]
  | .msg => [cmd.arg1, cmd.arg2]
  | .all => [cmd.arg2]
  | .list | .quit | .help | .unknown => []

/-- `proto_build` without a field. -/
theorem protoBuild_zero {n : Nat} {type : Bytes} (h : type.length + 1 < n) :
    (protoBuild n type none none none).1 = type ++ [msgTerminatorChar] := by
  have h0 : type.length < n := by omega
  have h1 := protoAppend_of_lt (n := n) (s := type) (t := [msgTerminatorChar]) (by simp; omega)
  simp only [protoBuild, protoField, snprintf_of_lt h0, h1]

/-- The line for a command with one argument of either kind. -/
theorem protoBuild_lineOf {word arg : Bytes} (hword : word.length ≤ 9)
    (harg : arg.length ≤ maxChatLen - 1) :
    (protoBuild maxMsgLen word arg none none).1 = lineOf word [arg] := by
  have hlen : word.length + arg.length + 2 < maxMsgLen := by
    simp only [maxChatLen, maxMsgLen, maxLineLen] at harg ⊢
    omega
  rw [protoBuild_one hlen]
  simp [lineOf]

/-- What `command_to_proto` accepts is one of the six commands of the protocol with the fields it
    needs, and the line for it fits the buffer. -/
theorem commandToProto_ok {cmd : ParsedCommand} (hcmd : Parsed cmd) {w : Bytes}
    (hw : commandToProto cmd = (.ok, w)) :
    w = lineOf (wireWord cmd) (wireArgs cmd) ∧ cmd.type ∉ [CmdType.help, .unknown] ∧
      ∀ a ∈ wireArgs cmd, a ≠ [] := by
  have h1 := hcmd.length_arg1
  have h2 := hcmd.length_arg2
  obtain ⟨type, arg1, arg2⟩ := cmd
  have harg1 : arg1.length ≤ maxChatLen - 1 := Nat.le_trans h1 (by decide)
  cases type with
  | list | quit =>
    simp only [commandToProto, Prod.mk.injEq, true_and] at hw
    subst hw
    exact ⟨protoBuild_zero (by decide), by simp, List.forall_mem_nil _⟩
  | info =>
    simp only [commandToProto] at hw
    split at hw
    · cases hw
    · rename_i hne
      simp only [Prod.mk.injEq, true_and] at hw
      subst hw
      exact ⟨protoBuild_lineOf (by decide) harg1, by simp, by simpa [wireArgs] using hne⟩
  | status =>
    simp only [commandToProto] at hw
    split at hw
    · cases hw
    · rename_i hne
      split at hw
      · cases hw
      · simp only [Prod.mk.injEq, true_and] at hw
        subst hw
        exact ⟨protoBuild_lineOf (by decide) harg1, by simp, by simpa [wireArgs] using hne⟩
  | msg =>
    simp only [commandToProto] at hw
    split at hw
    · cases hw
    · rename_i hne
      simp only [Prod.mk.injEq, true_and] at hw
      subst hw
      refine ⟨?_, by simp, by simpa [wireArgs, not_or] using hne⟩
      have hword : cmdMsg.length = 3 := rfl
      have hline := @protoBuild_two maxMsgLen cmdMsg arg1 arg2 (by
        simp only [maxUsernameLen, maxChatLen, maxMsgLen, maxLineLen] at h1 h2 ⊢
        omega)
      simpa [lineOf, wireWord, wireArgs, protoMsg] using hline
  | all =>
    simp only [commandToProto] at hw
    split at hw
    · cases hw
    · rename_i hne
      simp only [Prod.mk.injEq, true_and] at hw
      subst hw
      exact ⟨protoBuild_lineOf (by decide) h2, by simp, by simpa [wireArgs] using hne⟩
  | help | unknown => cases hw

end ChatMultithread
