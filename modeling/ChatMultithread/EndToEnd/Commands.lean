import ChatMultithread.Common.Canonical
import ChatMultithread.EndToEnd.Framing

/-!
# The client encodes and the server parses

`proto_build` copies the arguments of a command as they are, and `parse_message` takes separators
and backslashes in them for its own. The two agree on exactly the commands that have neither.
-/

namespace ChatMultithread

open Lib

/-- The server's type for a command of the client. -/
def serverType : CmdType → CommandType
  | .list => .list
  | .info => .info
  | .status => .status
  | .msg => .msg
  | .all => .broadcast
  | .quit => .quit
  | .help | .unknown => .invalid

/-- The server parses `w` inside its array, to the type of the command and the arguments that the
    user typed. The text of `/all` is the client's second argument and the server's first. -/
def ParsedAs (cmd : ParsedCommand) (w : Bytes) : Prop :=
  ∃ rc msg, parseMessage w = some (rc, msg) ∧ msg.type = serverType cmd.type ∧
    msg.arg1 = (if cmd.type = .all then cmd.arg2 else cmd.arg1) ∧
    msg.arg2 = (if cmd.type = .all then [] else cmd.arg2)

theorem wireWord_mem {cmd : ParsedCommand} (h : cmd.type ∉ [CmdType.help, .unknown]) :
    (wireWord cmd, serverType cmd.type) ∈ commandWords := by
  obtain ⟨type, arg1, arg2⟩ := cmd
  cases type with
  | help | unknown => exact absurd (by simp) h
  | list | info | status | msg | all | quit =>
    simp [wireWord, serverType, commandWords, cmdList, cmdInfo, cmdStatus, cmdMsg, cmdBroadcast,
      cmdQuit]

theorem plain_wireWord (cmd : ParsedCommand) : ∀ b ∈ wireWord cmd, marks.Plain b := by
  unfold wireWord
  split <;> decide +kernel

/-- The arguments on the wire are the command's, those that it does not take being empty. -/
theorem Parsed.getD_wireArgs {cmd : ParsedCommand} (h : Parsed cmd)
    (htype : cmd.type ∉ [CmdType.help, .unknown]) :
    (wireArgs cmd).length < 3 ∧
      (wireArgs cmd).getD 0 [] = (if cmd.type = .all then cmd.arg2 else cmd.arg1) ∧
      (wireArgs cmd).getD 1 [] = (if cmd.type = .all then [] else cmd.arg2) := by
  have h1 := h.unused_arg1
  have h2 := h.unused_arg2
  obtain ⟨type, arg1, arg2⟩ := cmd
  cases type <;> simp_all [wireArgs]

theorem Parsed.forall_wireArgs {cmd : ParsedCommand} (h : Parsed cmd)
    (htype : cmd.type ∉ [CmdType.help, .unknown]) {p : Bytes → Prop} (hnil : p []) :
    (∀ a ∈ wireArgs cmd, p a) ↔ p cmd.arg1 ∧ p cmd.arg2 := by
  have h1 := h.unused_arg1
  have h2 := h.unused_arg2
  obtain ⟨type, arg1, arg2⟩ := cmd
  cases type <;> simp_all [wireArgs]

/-- The two codecs agree on a command that is sent exactly when neither argument has a separator or
    a backslash in it. -/
theorem parsedAs_iff {line : Bytes} (hline : line.length ≤ maxMsgLen - 1 ∧ NewlineLast line) {w : Bytes}
    (hw : commandToProto (parseCommand (cstr line)) = (.ok, w)) :
    ParsedAs (parseCommand (cstr line)) w ↔
      (fieldSepChar ∉ (parseCommand (cstr line)).arg1 ∧
        escapeChar ∉ (parseCommand (cstr line)).arg1) ∧
      fieldSepChar ∉ (parseCommand (cstr line)).arg2 ∧
        escapeChar ∉ (parseCommand (cstr line)).arg2 := by
  have hcmd := hline.2.parsed
  obtain ⟨hwire, htype, hne⟩ := commandToProto_ok hcmd hw
  generalize parseCommand (cstr line) = cmd at *
  obtain ⟨hlen, hget0, hget1⟩ := hcmd.getD_wireArgs htype
  have hargs : ∀ a ∈ wireArgs cmd, a ≠ [] ∧ msgTerminatorChar ∉ a :=
    fun a ha => ⟨hne a ha, hcmd.newline_wireArgs a ha⟩
  have hfits : w.length < maxMsg := by
    rw [hwire]
    exact Nat.lt_of_le_of_lt hcmd.length_wire (by decide)
  have htypes : lineCommand w = serverType cmd.type ↔ field w 0 = wireWord cmd :=
    commandType_eq_iff (wireWord_mem htype)
  rw [← hcmd.forall_wireArgs htype (p := fun a => fieldSepChar ∉ a ∧ escapeChar ∉ a) (by decide),
    ← decoded_iff (plain_wireWord cmd) hlen hargs, ← hwire, hget0, hget1]
  constructor
  · rintro ⟨rc, msg, hparse, hmsg, h1, h2⟩
    rw [parseMessage_eq hfits] at hparse
    split at hparse
    · rename_i hin
      cases hparse
      exact ⟨hin, htypes.1 hmsg, h1, h2⟩
    · cases hparse
  · rintro ⟨hin, h0, h1, h2⟩
    exact ⟨_, _, by rw [parseMessage_eq hfits, if_pos hin], htypes.2 h0, h1, h2⟩

/-- A text with a separator in it arrives cut. -/
theorem parsedAs_iff_pipe :
    ¬ ParsedAs (parseCommand (cstr (ascii "/msg ana a|b\n"))) (ascii "MSG|ana|a|b\n") := by
  have hline : (ascii "/msg ana a|b\n").length ≤ maxMsgLen - 1 ∧ NewlineLast (ascii "/msg ana a|b\n") := by
    decide
  intro h
  have := (parsedAs_iff hline (by decide +kernel)).1 h
  revert this
  decide +kernel

end ChatMultithread
