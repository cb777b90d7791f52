import ChatMultithread.Client.InputLoop
import ChatMultithread.Lib.Framing
import ChatMultithread.Lib.Prog
import ChatMultithread.Lib.Transition

/-!
# The loop over the standard input

`input_loop` and what it calls, as a program over the operations at which the receiver thread can
run: the accesses to `state->running`, `fgets`, the critical sections of `print_mutex` and `send`.
The console is this program with the standard input and the flag that the receiver clears.

What stands in front of each line and what the loop has made of it is recorded to state properties
with: no step depends on it.
-/

namespace ChatMultithread

open Lib

/-- `fgets(line, n, stdin)` on what is left of the input: the line, which is missing at the end of
    the input, and the rest. -/
def fgets (n : Nat) (stdin : Bytes) : Option Bytes × Bytes :=
  match nextFrame msgTerminatorChar (n - 1) stdin with
  | some (line, rest) => (some line, rest)
  | none => if stdin = [] then (none, []) else (some stdin, [])

/-- What `input_loop` prints. -/
inductive Printed where
  | prompt
  | help
  | unknownCommand
  | invalidStatus (status : Bytes)
  | msgUsage
  | allUsage
  | notBuilt
  | notSent
  deriving DecidableEq, Repr

/-- An operation of the input loop on what it shares with others. -/
inductive InputOp where
  /-- Reads `state->running`. -/
  | running
  /-- `state->running = 0`. -/
  | stop
  | fgets
  /-- The output of one critical section of `print_mutex`. -/
  | print (ps : List Printed)
  /-- Whether `send` succeeds. -/
  | send (buf : Bytes)
  deriving DecidableEq

abbrev InputOp.Resp : InputOp → Type
  | .running | .send _ => Bool
  | .stop | .print _ => Unit
  | .fgets => Option Bytes

/-- Code of the input loop between operations. -/
abbrev InputProg := Prog InputOp InputOp.Resp

/-- One operation. -/
def ask (o : InputOp) : InputProg o.Resp := .op o

@[simp] theorem ask_bind {α : Type} (o : InputOp) (f : o.Resp → InputProg α) :
    (ask o >>= f) = .call o f := rfl

/-- `send_proto()`. -/
def sendProto (buf : Bytes) : InputProg ClientResult := do
  let sent ← ask (.send buf)
  if sent then return .ok
  else do
    ask (.print [.notSent])
    return .err

/-- The branches of `handle_command` that print an error and the prompt. -/
def complain (p : Printed) : InputProg ClientResult := do
  ask (.print [p, .prompt])
  return .ok

/-- `handle_command()`. -/
def handleCommand (cmd : ParsedCommand) : InputProg ClientResult :=
  if cmd.type = .help then do
    ask (.print [.help, .prompt])
    return .ok
  else if cmd.type = .unknown then complain .unknownCommand
  else if cmd.type = .status ∧ cmd.arg1 ≠ statusActive ∧ cmd.arg1 ≠ statusBusy ∧
      cmd.arg1 ≠ statusInactive then
    complain (.invalidStatus cmd.arg1)
  else if cmd.type = .msg ∧ (cmd.arg1 = [] ∨ cmd.arg2 = []) then complain .msgUsage
  else if cmd.type = .all ∧ cmd.arg2 = [] then complain .allUsage
  else
    let proto := commandToProto cmd
    if proto.1 ≠ .ok then complain .notBuilt
    else if cmd.type = .quit then do
      let _ ← sendProto proto.2
      ask .stop
      return .quit
    else sendProto proto.2

/-- The test for a line that holds nothing but blanks. -/
def isEmptyLine (line : Bytes) : Bool :=
  match skipSpaces line with
  | [] => true
  | b :: _ => b == msgTerminatorChar

/-- The rest of a pass with a line behind the second test of the flag. -/
def lineTurn (line : Bytes) : InputProg (Option ClientResult) :=
  if isEmptyLine (cstr line) then do
    ask (.print [.prompt])
    return none
  else do
    let result ← handleCommand (parseCommand (cstr line))
    if result = .quit then return some .quit
    else if result = .err then return some .err
    else return none

/-- One pass of the loop of `input_loop`: what it returns, if it returns. -/
def inputTurn : InputProg (Option ClientResult) := do
  let running ← ask .running
  if !running then return some .disconn
  else do
    let line ← ask .fgets
    match line with
    | none => do
        ask .stop
        let _ ← sendProto protoQuit
        return some .quit
    | some line => do
        let running ← ask .running
        if !running then return some .disconn
        else lineTurn line

/-- `input_loop()` up to the head of its loop. -/
def inputLoop : InputProg (Option ClientResult) := do
  ask (.print [.prompt])
  return none

/-! ## The console -/

/-- What the loop has made of one answer of `fgets`, which it got with `before` read already. -/
structure Turn where
  before : Bytes
  line : Option Bytes
  sent : List (Bytes × Bool)
  printed : List Printed
  deriving DecidableEq, Repr

/-- The input loop with the input that is left. `code` is the rest of the pass it is in, `taken`
    what it has read, `turns` what it has made of that, the last line in front, and `disconnected`
    tells whether the receiver has cleared the flag. -/
structure Console where
  stdin : Bytes
  running : Bool
  code : InputProg (Option ClientResult)
  disconnected : Bool
  taken : Bytes
  turns : List Turn

/-- Whether the receiver clears the flag or the loop takes a step, with the outcome of a `send`. -/
inductive InputLabel where
  | receiver
  | input (sent : Bool)
  deriving DecidableEq, Repr

namespace Console

/-- An entry about the line that was read last. -/
def note (s : Console) (f : Turn → Turn) : Console :=
  match s.turns with
  | [] => s
  | t :: turns => { s with turns := f t :: turns }

/-- One operation of the input loop: its answer, and the console afterwards. -/
def perform (s : Console) (sent : Bool) : (o : InputOp) → o.Resp × Console
  | .running => (s.running, s)
  | .stop => ((), { s with running := false })
  | .fgets =>
      ((fgets maxMsgLen s.stdin).1,
        { s with
          stdin := (fgets maxMsgLen s.stdin).2
          taken := s.taken ++ (fgets maxMsgLen s.stdin).1.getD []
          turns := ⟨s.taken, (fgets maxMsgLen s.stdin).1, [], []⟩ :: s.turns })
  | .print ps => ((), s.note fun t => { t with printed := t.printed ++ ps })
  | .send buf => (sent, s.note fun t => { t with sent := t.sent ++ [(buf, sent)] })

/-- One step of the client on the side of the input loop. -/
def step (s : Console) : InputLabel → Option Console
  | .receiver => some { s with running := false, disconnected := true }
  | .input sent =>
      match s.code with
      | .ret (some _) => none
      | .ret none => some { s with code := inputTurn }
      | .call o k => some { (s.perform sent o).2 with code := k (s.perform sent o).1 }

/-- What `input_loop` has returned. -/
def result (s : Console) : Option ClientResult :=
  match s.code with
  | .ret r => r
  | .call _ _ => none

end Console

/-- The client that `client_run` has started, with the input that will be typed. -/
def inputSystem (stdin : Bytes) : System Console InputLabel where
  init :=
    { stdin := stdin, running := true, code := inputLoop, disconnected := false, taken := [],
      turns := [] }
  step := Console.step

theorem Console.code_of_result {s : Console} {r : ClientResult} (h : s.result = some r) :
    s.code = .ret (some r) := by
  unfold Console.result at h
  split at h
  · rename_i hcode
    rw [hcode, h]
  · cases h

/-! ## The standard input -/

/-- A line is a part of the input: it ends with the newline, fills the buffer or ends the input. -/
theorem fgets_some {n : Nat} (hn : 1 < n) {stdin line rest : Bytes}
    (h : fgets n stdin = (some line, rest)) :
    stdin = line ++ rest ∧ line ≠ [] ∧
      ((∃ body, line = body ++ [msgTerminatorChar] ∧ msgTerminatorChar ∉ body) ∨
        msgTerminatorChar ∉ line ∧ (line.length = n - 1 ∨ rest = [])) := by
  unfold fgets at h
  split at h
  · rename_i hnext
    cases h
    obtain ⟨hsplit, ⟨hmem, hlen⟩ | ⟨body, hbody, hmem, -⟩⟩ := nextFrame_eq_some hnext
    · refine ⟨hsplit, ?_, .inr ⟨hmem, .inl hlen⟩⟩
      apply List.ne_nil_of_length_pos
      omega
    · refine ⟨hsplit, ?_, .inl ⟨body, hbody, hmem⟩⟩
      rw [hbody]
      exact List.append_ne_nil_of_right_ne_nil body (List.cons_ne_nil _ _)
  · rename_i hnext
    split at h
    · cases h
    · rename_i hne
      cases h
      exact ⟨(List.append_nil _).symm, hne, .inr ⟨(nextFrame_eq_none hnext).1, .inr rfl⟩⟩

end ChatMultithread
