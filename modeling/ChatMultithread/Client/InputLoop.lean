import ChatMultithread.Common.Protocol
import Mathlib.Data.List.DropRight

/-!
# What the user types

`src/client/input_loop.c`: from a line of the standard input to a line of the protocol. The
client's command types are those of `include/client.h`, which are not the server's.
-/

namespace ChatMultithread

open Lib

/-- `CommandType` of the client. -/
inductive CmdType where
  | unknown | list | info | status | msg | all | quit | help
  deriving DecidableEq, Repr

/-- `ParsedCommand`. -/
structure ParsedCommand where
  type : CmdType
  arg1 : Bytes
  arg2 : Bytes
  deriving DecidableEq, Repr

/-- `ClientResult`. -/
inductive ClientResult where
  | ok | err | quit | disconn
  deriving DecidableEq, Repr

/-- A space or a tab. -/
def isBlank (b : UInt8) : Bool := b == 32 || b == 9

/-- A newline or a carriage return. -/
def isLineEnd (b : UInt8) : Bool := b == 10 || b == 13

/-- `toupper()` in the `"C"` locale. -/
def toupper (c : UInt8) : UInt8 := if 97 ≤ c ∧ c ≤ 122 then c - 32 else c

/-- `str_toupper_copy()`. -/
def strToupperCopy (src : Bytes) (maxLen : Nat) : Bytes := (src.take (maxLen - 1)).map toupper

/-- `trim_newline()`. -/
def trimNewline (s : Bytes) : Bytes := s.rdropWhile isLineEnd

/-- `skip_spaces()`. -/
def skipSpaces (s : Bytes) : Bytes := s.dropWhile isBlank

/-- The loop of `parse_command` that copies the word of the command, with room for `room` bytes:
    the word and what stands behind it. -/
def commandWord : Nat → Bytes → Bytes × Bytes
  | 0, p => ([], p)
  | _ + 1, [] => ([], [])
  | room + 1, b :: p =>
      if isBlank b || isLineEnd b then ([], b :: p)
      else (b :: (commandWord room p).1, (commandWord room p).2)

/-- `out` after the `memset`. -/
def noCommand : ParsedCommand := ⟨.unknown, [], []⟩

/-- The branch of `parse_command` for `/msg`, on what stands behind the word. The destination is
    stored even where the text is missing. -/
def parseMsgCommand (p : Bytes) : ParsedCommand :=
  let dest := strncpy (maxUsernameLen - 1) (p.takeWhile (!isBlank ·))
  let p := skipSpaces (p.dropWhile (!isBlank ·))
  if p = [] then ⟨.unknown, dest, []⟩
  else ⟨.msg, dest, trimNewline (strncpy (maxChatLen - 1) p)⟩

/-- `parse_command()`. -/
def parseCommand (line : Bytes) : ParsedCommand :=
  match skipSpaces line with
  | [] => noCommand
  | b :: p =>
      if b ≠ 47 then noCommand
      else
        let word := (commandWord 31 p).1
        let p := skipSpaces (commandWord 31 p).2
        if word = ascii "list" then { noCommand with type := .list }
        else if word = ascii "help" then { noCommand with type := .help }
        else if word = ascii "quit" then { noCommand with type := .quit }
        else if word = ascii "info" then
          if p = [] then noCommand
          else { noCommand with
            type := .info, arg1 := trimNewline (strncpy (maxUsernameLen - 1) p) }
        else if word = ascii "status" then
          if p = [] then noCommand
          else { noCommand with
            type := .status, arg1 := trimNewline (strToupperCopy p maxUsernameLen) }
        else if word = ascii "msg" then
          if p = [] then noCommand else parseMsgCommand p
        else if word = ascii "all" then
          if p = [] then noCommand
          else { noCommand with type := .all, arg2 := trimNewline (strncpy (maxChatLen - 1) p) }
        else noCommand

/-- `command_to_proto()`: the result and the string left in `buf`. -/
def commandToProto (cmd : ParsedCommand) : ClientResult × Bytes :=
  match cmd.type with
  | .list => (.ok, protoList)
  | .info => if cmd.arg1 = [] then (.err, []) else (.ok, protoInfo cmd.arg1)
  | .status =>
      if cmd.arg1 = [] then (.err, [])
      else if cmd.arg1 ≠ statusActive ∧ cmd.arg1 ≠ statusBusy ∧ cmd.arg1 ≠ statusInactive then
        (.err, [])
      else (.ok, protoStatus cmd.arg1)
  | .msg =>
      if cmd.arg1 = [] ∨ cmd.arg2 = [] then (.err, []) else (.ok, protoMsg cmd.arg1 cmd.arg2)
  | .all => if cmd.arg2 = [] then (.err, []) else (.ok, protoBroadcast cmd.arg2)
  | .quit => (.ok, protoQuit)
  | .help | .unknown => (.err, [])

/-! ## Lines of a command and a text -/

/-- A text a user can send whole: it fits `arg2`, is one line, and neither the blanks in front
    nor a carriage return behind are trimmed off it. -/
structure Sendable (t : Bytes) : Prop where
  ne_nil : t ≠ []
  length_le : t.length ≤ maxChatLen - 1
  newline : msgTerminatorChar ∉ t
  nul : (0 : UInt8) ∉ t
  head : ∀ b ∈ t.head?, isBlank b = false
  last : ∀ b ∈ t.getLast?, b ≠ 13

theorem skipSpaces_of_head {t : Bytes} (h : ∀ b ∈ t.head?, isBlank b = false) :
    skipSpaces t = t := by
  cases t with
  | nil => rfl
  | cons b t => simp [skipSpaces, h b rfl]

theorem trimNewline_of_last {t : Bytes} (h : ∀ b ∈ t.getLast?, isLineEnd b = false) :
    trimNewline t = t := by
  rcases List.eq_nil_or_concat t with rfl | ⟨t, b, rfl⟩
  · rfl
  · have hb : ¬ isLineEnd b = true := by simp [h b (by simp)]
    rw [trimNewline, List.concat_eq_append, List.rdropWhile_concat_neg _ _ _ hb]

theorem Sendable.isLineEnd_last {t : Bytes} (h : Sendable t) :
    ∀ b ∈ t.getLast?, isLineEnd b = false := by
  intro b hb
  have h10 : b ≠ 10 := by
    rintro rfl
    exact h.newline (List.mem_of_getLast? hb)
  simp [isLineEnd, h10, h.last b hb]

/-- The newline that ends a line of the standard input, unless the input ends there. -/
def FinalNewline (e : Bytes) : Prop := e = [] ∨ e = [msgTerminatorChar]

/-- What fits the copy of an argument is copied whole, and the newline behind it is trimmed. -/
theorem trimNewline_strncpy {n : Nat} {t e : Bytes} (hlen : t.length ≤ n)
    (hlast : ∀ b ∈ t.getLast?, isLineEnd b = false) (he : FinalNewline e) :
    trimNewline (strncpy n (t ++ e)) = t := by
  have htrim := trimNewline_of_last hlast
  rcases he with rfl | rfl
  · rw [List.append_nil, strncpy_of_le hlen]
    exact htrim
  · rcases Nat.lt_or_ge t.length n with hlt | hge
    · rw [strncpy_of_le (by rw [List.length_append]; exact hlt), trimNewline,
        List.rdropWhile_concat_pos _ _ _ (by decide)]
      exact htrim
    · rw [strncpy, List.take_append_of_le_length hge, List.take_of_length_le hlen]
      exact htrim

/-- The text arrives in `arg2` as it was typed. -/
theorem Sendable.trim {t e : Bytes} (h : Sendable t) (he : FinalNewline e) :
    trimNewline (strncpy (maxChatLen - 1) (t ++ e)) = t :=
  trimNewline_strncpy h.length_le h.isLineEnd_last he

/-! ## The word of a command -/

/-- Where a word ends: at a blank, at the end of the line or at that of the string. -/
def WordEnd (rest : Bytes) : Prop := ∀ b ∈ rest.head?, (isBlank b || isLineEnd b) = true

theorem wordEnd_cons {b : UInt8} (hb : isBlank b = true) (p : Bytes) : WordEnd (b :: p) := by
  intro c hc
  obtain rfl := Option.some.inj hc
  rw [hb, Bool.true_or]

/-- `commandWord` reads a short word up to its end. -/
theorem commandWord_append {room : Nat} {w : Bytes} (hw : w.length < room)
    (hplain : ∀ b ∈ w, isBlank b = false ∧ isLineEnd b = false) {rest : Bytes}
    (hrest : WordEnd rest) : commandWord room (w ++ rest) = (w, rest) := by
  induction w generalizing room with
  | nil =>
    obtain ⟨room, rfl⟩ := Nat.exists_eq_succ_of_ne_zero (Nat.ne_of_gt hw)
    cases rest with
    | nil => rfl
    | cons b rest => rw [List.nil_append, commandWord, if_pos (hrest b rfl)]
  | cons c w ih =>
    obtain ⟨room, rfl⟩ := Nat.exists_eq_succ_of_ne_zero (Nat.ne_zero_of_lt hw)
    have hc := hplain c List.mem_cons_self
    rw [List.cons_append, commandWord, hc.1, hc.2,
      ih (Nat.lt_of_succ_lt_succ hw) fun b hb => hplain b (List.mem_cons_of_mem _ hb)]
    rfl

section Words

variable {pre rest : Bytes} (hpre : ∀ b ∈ pre, isBlank b = true) (hrest : WordEnd rest)
include hpre hrest

/-- The blanks in front of a command are skipped, and its word is read. -/
theorem parseCommand_word {w : Bytes} (hw : w.length < 31)
    (hplain : ∀ b ∈ w, isBlank b = false ∧ isLineEnd b = false) :
    skipSpaces (pre ++ 47 :: w ++ rest) = 47 :: (w ++ rest) ∧
      commandWord 31 (w ++ rest) = (w, rest) := by
  refine ⟨?_, commandWord_append hw hplain hrest⟩
  rw [List.append_assoc, skipSpaces, List.dropWhile_append_of_pos hpre]
  rfl

theorem parseCommand_list :
    parseCommand (pre ++ ascii "/list" ++ rest) = { noCommand with type := .list } := by
  obtain ⟨hline, hword⟩ := parseCommand_word hpre hrest (w := ascii "list") (by decide)
    (by decide +kernel)
  unfold parseCommand
  rw [show ascii "/list" = 47 :: ascii "list" from rfl, hline]
  simp only [hword]
  simp

theorem parseCommand_help :
    parseCommand (pre ++ ascii "/help" ++ rest) = { noCommand with type := .help } := by
  obtain ⟨hline, hword⟩ := parseCommand_word hpre hrest (w := ascii "help") (by decide)
    (by decide +kernel)
  unfold parseCommand
  rw [show ascii "/help" = 47 :: ascii "help" from rfl, hline]
  simp only [hword]
  simp [ascii]

theorem parseCommand_quit :
    parseCommand (pre ++ ascii "/quit" ++ rest) = { noCommand with type := .quit } := by
  obtain ⟨hline, hword⟩ := parseCommand_word hpre hrest (w := ascii "quit") (by decide)
    (by decide +kernel)
  unfold parseCommand
  rw [show ascii "/quit" = 47 :: ascii "quit" from rfl, hline]
  simp only [hword]
  simp [ascii]

theorem parseCommand_info (hne : skipSpaces rest ≠ []) :
    parseCommand (pre ++ ascii "/info" ++ rest) = { noCommand with
      type := .info, arg1 := trimNewline (strncpy (maxUsernameLen - 1) (skipSpaces rest)) } := by
  obtain ⟨hline, hword⟩ := parseCommand_word hpre hrest (w := ascii "info") (by decide)
    (by decide +kernel)
  unfold parseCommand
  rw [show ascii "/info" = 47 :: ascii "info" from rfl, hline]
  simp only [hword]
  simp [hne, ascii]

theorem parseCommand_status (hne : skipSpaces rest ≠ []) :
    parseCommand (pre ++ ascii "/status" ++ rest) = { noCommand with
      type := .status, arg1 := trimNewline (strToupperCopy (skipSpaces rest) maxUsernameLen) } := by
  obtain ⟨hline, hword⟩ := parseCommand_word hpre hrest (w := ascii "status") (by decide)
    (by decide +kernel)
  unfold parseCommand
  rw [show ascii "/status" = 47 :: ascii "status" from rfl, hline]
  simp only [hword]
  simp [hne, ascii]

theorem parseCommand_msg (hne : skipSpaces rest ≠ []) :
    parseCommand (pre ++ ascii "/msg" ++ rest) = parseMsgCommand (skipSpaces rest) := by
  obtain ⟨hline, hword⟩ := parseCommand_word hpre hrest (w := ascii "msg") (by decide)
    (by decide +kernel)
  unfold parseCommand
  rw [show ascii "/msg" = 47 :: ascii "msg" from rfl, hline]
  simp only [hword]
  simp [hne, ascii]

theorem parseCommand_all (hne : skipSpaces rest ≠ []) :
    parseCommand (pre ++ ascii "/all" ++ rest) = { noCommand with
      type := .all, arg2 := trimNewline (strncpy (maxChatLen - 1) (skipSpaces rest)) } := by
  obtain ⟨hline, hword⟩ := parseCommand_word hpre hrest (w := ascii "all") (by decide)
    (by decide +kernel)
  unfold parseCommand
  rw [show ascii "/all" = 47 :: ascii "all" from rfl, hline]
  simp only [hword]
  simp [hne, ascii]

end Words

/-! ## Whole commands -/

/-- A run of spaces and tabs. -/
structure Blanks (ws : Bytes) : Prop where
  ne_nil : ws ≠ []
  blank : ∀ b ∈ ws, isBlank b = true

theorem blanks_space : Blanks [32] := ⟨by decide, by decide +kernel⟩

theorem Blanks.wordEnd {ws : Bytes} (h : Blanks ws) (p : Bytes) : WordEnd (ws ++ p) := by
  obtain ⟨b, ws, rfl⟩ := List.exists_cons_of_ne_nil h.ne_nil
  exact wordEnd_cons (h.blank b List.mem_cons_self) _

theorem Blanks.skipSpaces {ws : Bytes} (h : Blanks ws) {t : Bytes}
    (ht : ∀ b ∈ t.head?, isBlank b = false) : skipSpaces (ws ++ t) = t := by
  rw [ChatMultithread.skipSpaces, List.dropWhile_append_of_pos h.blank]
  exact skipSpaces_of_head ht

/-- A destination as `/msg` reads it. -/
structure Destination (d : Bytes) : Prop where
  ne_nil : d ≠ []
  length_lt : d.length < maxUsernameLen
  blank : ∀ b ∈ d, isBlank b = false

theorem Sendable.head_append {t : Bytes} (h : Sendable t) (e : Bytes) :
    ∀ b ∈ (t ++ e).head?, isBlank b = false := by
  rw [List.head?_append_of_ne_nil _ h.ne_nil]
  exact h.head

theorem Sendable.append_ne_nil {t : Bytes} (h : Sendable t) (e : Bytes) : t ++ e ≠ [] :=
  List.append_ne_nil_of_left_ne_nil h.ne_nil e

section Whole

variable {pre ws ws' d t e : Bytes} (hpre : ∀ b ∈ pre, isBlank b = true) (hws : Blanks ws)
  (ht : Sendable t) (he : FinalNewline e)
include hpre hws ht he

/-- `/all t` is the command with the text `t`. -/
theorem parseCommand_allText :
    parseCommand (pre ++ ascii "/all" ++ (ws ++ (t ++ e))) = ⟨.all, [], t⟩ := by
  have hskip := hws.skipSpaces (ht.head_append e)
  rw [parseCommand_all hpre (hws.wordEnd _) (by rw [hskip]; exact ht.append_ne_nil e), hskip,
    ht.trim he]
  rfl

/-- `/msg d t` is the command with the destination `d` and the text `t`. -/
theorem parseCommand_msgText (hd : Destination d) (hws' : Blanks ws') :
    parseCommand (pre ++ ascii "/msg" ++ (ws ++ (d ++ (ws' ++ (t ++ e))))) = ⟨.msg, d, t⟩ := by
  have hhead : ∀ b ∈ (d ++ (ws' ++ (t ++ e))).head?, isBlank b = false := by
    rw [List.head?_append_of_ne_nil _ hd.ne_nil]
    exact fun b hb => hd.blank b (List.mem_of_head? hb)
  have hskip := hws.skipSpaces hhead
  have hne : d ++ (ws' ++ (t ++ e)) ≠ [] := List.append_ne_nil_of_left_ne_nil hd.ne_nil _
  obtain ⟨b, ws', rfl⟩ := List.exists_cons_of_ne_nil hws'.ne_nil
  have hb : isBlank b = true := hws'.blank b List.mem_cons_self
  have htake : (d ++ (b :: ws' ++ (t ++ e))).takeWhile (!isBlank ·) = d := by
    rw [List.takeWhile_append_of_pos fun c hc => by simp [hd.blank c hc]]
    simp [hb]
  have hdrop : (d ++ (b :: ws' ++ (t ++ e))).dropWhile (!isBlank ·) = b :: ws' ++ (t ++ e) := by
    rw [List.dropWhile_append_of_pos fun c hc => by simp [hd.blank c hc]]
    simp [hb]
  have hlen : d.length ≤ maxUsernameLen - 1 := Nat.le_sub_one_of_lt hd.length_lt
  rw [parseCommand_msg hpre (hws.wordEnd _) (by rw [hskip]; exact hne), hskip, parseMsgCommand,
    htake, hdrop, hws'.skipSpaces (ht.head_append e)]
  simp only [if_neg (ht.append_ne_nil e), strncpy_of_le hlen, ht.trim he]

end Whole

end ChatMultithread
