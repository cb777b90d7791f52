import ChatMultithread.Client.Console
import ChatMultithread.Client.Register
import ChatMultithread.Client.Usernames
import ChatMultithread.Lib.Decimal
import ChatMultithread.Lib.CInt

/-!
# The client process

`main` of `src/client/main_client.c` with the functions that it calls, beside the receiver thread.
The code of `main` in front of `input_loop` and behind it is a program over its calls of the
operating system; in between the console runs, with the flag that both threads read and write. The
receiver thread is a program as well, from one of its accesses to the next.

A step performs one operation, of the one thread or of the other, and its label holds what the
operating system answers. The log records what the process does; no step depends on it.
-/

namespace ChatMultithread

open Lib

/-! ## The code of `main` -/

/-- `validate_port()`. -/
def validatePort (portStr : Bytes) : Int :=
  let port := strtol portStr
  if port.stop ≠ [] ∨ port.value < 1 ∨ port.value > 65535 then -1 else toInt port.value

/-- What the client's `recv_line` leaves in the buffer, or its 0 or -1. -/
inductive Received where
  | line (buffer : Bytes)
  | closed
  | failed
  deriving DecidableEq, Repr

/-- `recv_line()` of the client, and the input behind what it has read. Where the input ends first,
    `recv` returns 0 if the peer closes the connection there, and waits if it does not. -/
def receive (closes : Bool) (input : List Recv) : Option (Received × List Recv) :=
  match clientRecvLine maxMsgLen input with
  | .line buffer rest => some (.line buffer, rest)
  | .closed => if closes then some (.closed, []) else none
  | .failed => some (.failed, [])

/-- An operation of `main` outside of the input loop. -/
inductive MainOp where
  /-- Whether `pthread_mutex_init` succeeds. -/
  | mutexInit
  | mutexDestroy
  /-- `state->sockfd = socket(...)`. -/
  | socket
  /-- Whether `inet_pton` knows the address. -/
  | inetPton (serverIp : Bytes)
  /-- Whether `connect` succeeds. -/
  | connect (serverPort : Int)
  | recvLine
  /-- Whether `send` succeeds. -/
  | send (buf : Bytes)
  /-- The writes of `client_register` to the state. -/
  | store (state : ClientState)
  /-- Whether `pthread_create` succeeds. -/
  | create
  /-- `ui_print_welcome`. -/
  | welcome
  /-- `pthread_join`. -/
  | join
  /-- Reads `state->sockfd`. -/
  | sockfd
  /-- `close(state->sockfd)`. -/
  | close
  /-- `state->sockfd = -1`. -/
  | forget
  deriving DecidableEq

abbrev MainOp.Resp : MainOp → Type
  | .mutexInit | .inetPton _ | .connect _ | .send _ | .create => Bool
  | .socket | .sockfd => Int
  | .recvLine => Received
  | .mutexDestroy | .store _ | .welcome | .join | .close | .forget => Unit

/-- Code of `main` between operations. -/
abbrev MainProg := Prog MainOp MainOp.Resp

/-- One operation of `main`. -/
def call (o : MainOp) : MainProg o.Resp := .op o

@[simp] theorem call_bind {α : Type} (o : MainOp) (f : o.Resp → MainProg α) :
    (call o >>= f) = .call o f := rfl

/-- The branches of `client_connect` that close the socket. -/
def giveUp : MainProg ClientResult := do
  call .close
  call .forget
  return .err

/-- `client_connect()`. -/
def clientConnect (serverIp : Bytes) (serverPort : Int) : MainProg ClientResult := do
  let sockfd ← call .socket
  if sockfd < 0 then return .err
  else do
    let known ← call (.inetPton serverIp)
    if !known then giveUp
    else do
      let connected ← call (.connect serverPort)
      if !connected then giveUp else return .ok

/-- `client_register()` from its `send` on. -/
def registerAnswer (state : ClientState) (username : Bytes) :
    MainProg (Except RegisterError ClientState) := do
  let sent ← call (.send (protoRegister username))
  if !sent then return .error .sendFailed
  else do
    let n ← call .recvLine
    match n with
    | .closed | .failed => return .error .closedDuringRegister
    | .line buffer => return registerReply state (cstr buffer)

/-- `client_register()`, as a program: what it returns is what `clientRegister` says. -/
def clientRegistration (state : ClientState) (username : Bytes) :
    MainProg (Except RegisterError ClientState) := do
  let n ← call .recvLine
  match n with
  | .closed | .failed => return .error .closedBeforeWelcome
  | .line buffer =>
      if (protoParseType (strncpy (maxMsgLen - 1) (cstr buffer))).1 ≠ srvWelcome then
        return .error (.notWelcome (cstr buffer))
      else registerAnswer state username

/-- `client_disconnect()`. -/
def clientDisconnect : MainProg Unit := do
  let sockfd ← call .sockfd
  if sockfd < 0 then return ()
  else do
    let _ ← call (.send protoQuit)
    call .close
    call .forget
    call .mutexDestroy
    return ()

/-- How `main` goes on: it returns `EXIT_FAILURE`, `client_run` enters `input_loop`, or it has
    failed to create the thread. -/
inductive Started where
  | failure
  | loop
  | noThread
  deriving DecidableEq, Repr

/-- `client_run()` up to its call of `input_loop`. -/
def clientRun : MainProg Started := do
  let created ← call .create
  if !created then return .noThread
  else do
    call .welcome
    return .loop

/-- `main` behind the connection. -/
def mainRegister (username : Bytes) : MainProg Started := do
  let result ← clientRegistration clientInit username
  match result with
  | .error _ => do
      call .close
      call .mutexDestroy
      return .failure
  | .ok state => do
      call (.store state)
      clientRun

/-- `main` behind the checks of its arguments. -/
def mainConnect (username serverIp : Bytes) (port : Int) : MainProg Started := do
  let init ← call .mutexInit
  if !init then return .failure
  else do
    let result ← clientConnect serverIp port
    if result ≠ .ok then do
      call .mutexDestroy
      return .failure
    else mainRegister username

/-- `main` up to its call of `input_loop`, with the arguments behind the name of the program. -/
def clientMain : List Bytes → MainProg Started
  | [username, serverIp, portStr] =>
      if !validateUsername username then return .failure
      else if validatePort portStr < 0 then return .failure
      else mainConnect username serverIp (validatePort portStr)
  | _ => return .failure

/-- `main` behind `input_loop`. -/
def clientLeave : MainProg Unit := do
  call .join
  clientDisconnect

/-! ## The receiver thread -/

/-- An operation of the receiver thread. -/
inductive ReceiverOp where
  /-- Reads `state->running`. -/
  | running
  | recvLine
  /-- A critical section of `print_mutex` with a call of `ui_print_...`. -/
  | shows (e : UiEvent)
  deriving DecidableEq

abbrev ReceiverOp.Resp : ReceiverOp → Type
  | .running => Bool
  | .recvLine => Received
  | .shows _ => Unit

/-- Code of the receiver thread between operations. -/
abbrev ReceiverProg := Prog ReceiverOp ReceiverOp.Resp

/-- One operation of the receiver thread. -/
def receiver (o : ReceiverOp) : ReceiverProg o.Resp := .op o

@[simp] theorem receiver_bind {α : Type} (o : ReceiverOp) (f : o.Resp → ReceiverProg α) :
    (receiver o >>= f) = .call o f := rfl

/-- The branches of `receiver_loop` for the end of the connection. -/
def connectionEnded (e : UiEvent) : ReceiverProg Bool := do
  let running ← receiver .running
  if running then do
    receiver (.shows e)
    return false
  else return false

/-- One pass of the loop of `receiver_loop`: whether it goes on. -/
def receiverTurn : ReceiverProg Bool := do
  let running ← receiver .running
  if !running then return false
  else do
    let n ← receiver .recvLine
    match n with
    | .closed => connectionEnded .disconnected
    | .failed => connectionEnded .connectionLost
    | .line buffer => do
        receiver (.shows (dispatchMessage (cstr buffer)).1)
        return decide ((dispatchMessage (cstr buffer)).2 ≠ -1)

/-! ## The process -/

/-- What the process does with what it shares. -/
inductive Act where
  | mutexInit
  | mutexDestroy
  /-- A critical section of `print_mutex` of the input loop. -/
  | printed
  /-- A critical section of the receiver thread. -/
  | showed (e : UiEvent)
  | opened
  | closed
  /-- `connect`, or a `recv_line`. -/
  | touched
  | sent (buf : Bytes) (ok : Bool)
  | registered (state : ClientState)
  /-- The input loop has cleared the flag. -/
  | stopped
  /-- `input_loop` has returned. -/
  | returned (r : ClientResult)
  deriving DecidableEq

/-- Where `main` stands: in front of `input_loop`, in it, behind it, or it has returned
    `EXIT_SUCCESS` or `EXIT_FAILURE`. -/
inductive ClientPc where
  | starting (code : MainProg Started)
  | looping
  | leaving (code : MainProg Unit)
  | exited (success : Bool)

/-- Where the receiver thread stands: `stopping` is at `state->running = 0`. -/
inductive ReceiverPc where
  | notCreated
  | looping (code : ReceiverProg Bool)
  | stopping
  | done

/-- The process with what will be typed, in the console, and what will arrive at its socket. `eof`
    and `closes` tell whether the user ends the input behind that, and the peer the connection: if
    they do not, whoever reads on waits. -/
structure Client where
  pc : ClientPc
  receiver : ReceiverPc
  console : Console
  eof : Bool
  sockfd : Int
  network : List Recv
  closes : Bool
  state : ClientState
  log : List Act

/-- Which thread moves; for `main`, whether its call succeeds and the descriptor of a new socket. -/
inductive ClientLabel where
  | main (ok : Bool) (fd : Nat)
  | receiver
  deriving DecidableEq, Repr

/-- What `ui_print_...` writes to the state. -/
def ClientState.showed (state : ClientState) : UiEvent → ClientState
  | .statusOk newStatus => { state with myStatus := strncpy (16 - 1) newStatus }
  | _ => state

namespace Client

/-- Records what the process does. -/
def record (s : Client) (a : Act) : Client := { s with log := s.log ++ [a] }

/-- An operation of `main`: its answer, and the process afterwards. It has none while it waits. -/
def perform (s : Client) (ok : Bool) (fd : Nat) : (o : MainOp) → Option (o.Resp × Client)
  | .mutexInit => some (ok, if ok then s.record .mutexInit else s)
  | .mutexDestroy => some ((), s.record .mutexDestroy)
  | .socket =>
      if ok then some ((fd : Int), { s with sockfd := fd }.record .opened)
      else some (-1, { s with sockfd := -1 })
  | .inetPton _ => some (ok, s)
  | .connect _ => some (ok, s.record .touched)
  | .recvLine =>
      (receive s.closes s.network).map fun p => (p.1, { s with network := p.2 }.record .touched)
  | .send buf => some (ok, s.record (.sent buf ok))
  | .store state => some ((), { s with state := state }.record (.registered state))
  | .create => some (ok, if ok then { s with receiver := .looping receiverTurn } else s)
  | .welcome => some ((), s)
  | .join =>
      match s.receiver with
      | .done => some ((), s)
      | _ => none
  | .sockfd => some (s.sockfd, s)
  | .close => some ((), s.record .closed)
  | .forget => some ((), { s with sockfd := -1 })

/-- What the next operation of the input loop does, as the log has it. -/
def inputAct (ok : Bool) : InputOp → Option Act
  | .print _ => some .printed
  | .send buf => some (.sent buf ok)
  | .stop => some .stopped
  | .running | .fgets => none

/-- What the next step of the console does. -/
def consoleAct (s : Console) (ok : Bool) : Option Act :=
  match s.code with
  | .call o _ => inputAct ok o
  | .ret _ => none

/-- The input loop is at an `fgets` for which no whole line has been typed, and the input has not
    ended. -/
def inputWaits (s : Client) : Bool :=
  match s.console.code with
  | .call .fgets _ =>
      !s.eof && (nextFrame msgTerminatorChar (maxMsgLen - 1) s.console.stdin).isNone
  | _ => false

/-- One step of `main`. -/
def mainStep (s : Client) (ok : Bool) (fd : Nat) : Option Client :=
  match s.pc with
  | .starting (.ret .failure) => some { s with pc := .exited false }
  | .starting (.ret .loop) => some { s with pc := .looping }
  | .starting (.ret .noThread) => some { s with pc := .leaving clientDisconnect }
  | .starting (.call o k) =>
      (s.perform ok fd o).map fun p => { p.2 with pc := .starting (k p.1) }
  | .looping =>
      match s.console.result with
      | some r => some ({ s with pc := .leaving clientLeave }.record (.returned r))
      | none =>
          if s.inputWaits then none
          else
            (s.console.step (.input ok)).map fun console =>
              { s with console := console, log := s.log ++ (consoleAct s.console ok).toList }
  | .leaving (.ret ()) => some { s with pc := .exited true }
  | .leaving (.call o k) =>
      (s.perform ok fd o).map fun p => { p.2 with pc := .leaving (k p.1) }
  | .exited _ => none

/-- An operation of the receiver thread. It has no answer while it waits. -/
def hear (s : Client) : (o : ReceiverOp) → Option (o.Resp × Client)
  | .running => some (s.console.running, s)
  | .recvLine =>
      (receive s.closes s.network).map fun p => (p.1, { s with network := p.2 }.record .touched)
  | .shows e => some ((), { s with state := s.state.showed e }.record (.showed e))

/-- One step of the receiver thread. -/
def receiverStep (s : Client) : Option Client :=
  match s.receiver with
  | .notCreated | .done => none
  | .looping (.ret true) => some { s with receiver := .looping receiverTurn }
  | .looping (.ret false) => some { s with receiver := .stopping }
  | .looping (.call o k) =>
      (s.hear o).map fun p => { p.2 with receiver := .looping (k p.1) }
  | .stopping =>
      (s.console.step .receiver).map fun console => { s with console := console, receiver := .done }

/-- One step of the process. -/
def step (s : Client) : ClientLabel → Option Client
  | .main ok fd => s.mainStep ok fd
  | .receiver => s.receiverStep

end Client

/-- The process with its arguments, what will be typed and what will arrive. -/
def clientSystem (argv : List Bytes) (stdin : Bytes) (eof : Bool) (network : List Recv)
    (closes : Bool) : System Client ClientLabel where
  init :=
    { pc := .starting (clientMain argv), receiver := .notCreated
      console := (inputSystem stdin).init, eof := eof, sockfd := -1, network := network
      closes := closes, state := clientInit, log := [] }
  step := Client.step

/-- `main` is at the operation. -/
def ClientPc.At (o : MainOp) : ClientPc → Prop
  | .starting (.call o' _) | .leaving (.call o' _) => o' = o
  | .starting (.ret _) | .leaving (.ret _) | .looping | .exited _ => False

instance (o : MainOp) : DecidablePred (ClientPc.At o)
  | .starting (.call _ _) | .leaving (.call _ _) => inferInstanceAs (Decidable (_ = _))
  | .starting (.ret _) | .leaving (.ret _) | .looping | .exited _ => isFalse id

/-- The receiver thread is at the operation. -/
def ReceiverPc.At (o : ReceiverOp) : ReceiverPc → Prop
  | .looping (.call o' _) => o' = o
  | .looping (.ret _) | .notCreated | .stopping | .done => False

instance (o : ReceiverOp) : DecidablePred (ReceiverPc.At o)
  | .looping (.call _ _) => inferInstanceAs (Decidable (_ = _))
  | .looping (.ret _) | .notCreated | .stopping | .done => isFalse id

theorem ReceiverPc.At.eq {o : ReceiverOp} {r : ReceiverPc} (h : r.At o) :
    ∃ k, r = .looping (.call o k) := by
  cases r with
  | looping code =>
    cases code with
    | ret more => cases h
    | call o' k =>
      obtain rfl : o' = o := h
      exact ⟨k, rfl⟩
  | notCreated | stopping | done => cases h

/-- The receiver thread waits in `recv`. -/
def Client.Listening (s : Client) : Prop :=
  s.receiver.At .recvLine ∧ receive s.closes s.network = none

instance (s : Client) : Decidable s.Listening := inferInstanceAs (Decidable (_ ∧ _))

/-! ## What a step can do -/

namespace Client

/-- The steps of the process, one constructor for each kind. -/
inductive Step : Client → ClientLabel → Client → Prop
  | failure {s : Client} {ok : Bool} {fd : Nat} (hpc : s.pc = .starting (.ret .failure)) :
      Step s (.main ok fd) { s with pc := .exited false }
  | loop {s : Client} {ok : Bool} {fd : Nat} (hpc : s.pc = .starting (.ret .loop)) :
      Step s (.main ok fd) { s with pc := .looping }
  | noThread {s : Client} {ok : Bool} {fd : Nat} (hpc : s.pc = .starting (.ret .noThread)) :
      Step s (.main ok fd) { s with pc := .leaving clientDisconnect }
  | start {s s' : Client} {ok : Bool} {fd : Nat} {o : MainOp} {k : o.Resp → MainProg Started}
      {r : o.Resp} (hpc : s.pc = .starting (.call o k)) (h : s.perform ok fd o = some (r, s')) :
      Step s (.main ok fd) { s' with pc := .starting (k r) }
  | returned {s : Client} {ok : Bool} {fd : Nat} {r : ClientResult} (hpc : s.pc = .looping)
      (hr : s.console.code = .ret (some r)) :
      Step s (.main ok fd) ({ s with pc := .leaving clientLeave }.record (.returned r))
  | pass {s : Client} {ok : Bool} {fd : Nat} (hpc : s.pc = .looping)
      (hcode : s.console.code = .ret none) :
      Step s (.main ok fd) { s with console := { s.console with code := inputTurn } }
  | input {s : Client} {ok : Bool} {fd : Nat} {o : InputOp}
      {k : o.Resp → InputProg (Option ClientResult)} (hpc : s.pc = .looping)
      (hcode : s.console.code = .call o k) :
      Step s (.main ok fd)
        { s with
          console := { (s.console.perform ok o).2 with code := k (s.console.perform ok o).1 }
          log := s.log ++ (inputAct ok o).toList }
  | exit {s : Client} {ok : Bool} {fd : Nat} (hpc : s.pc = .leaving (.ret ())) :
      Step s (.main ok fd) { s with pc := .exited true }
  | leave {s s' : Client} {ok : Bool} {fd : Nat} {o : MainOp} {k : o.Resp → MainProg Unit}
      {r : o.Resp} (hpc : s.pc = .leaving (.call o k)) (h : s.perform ok fd o = some (r, s')) :
      Step s (.main ok fd) { s' with pc := .leaving (k r) }
  | again {s : Client} (hr : s.receiver = .looping (.ret true)) :
      Step s .receiver { s with receiver := .looping receiverTurn }
  | ended {s : Client} (hr : s.receiver = .looping (.ret false)) :
      Step s .receiver { s with receiver := .stopping }
  | hear {s s' : Client} {o : ReceiverOp} {k : o.Resp → ReceiverProg Bool} {r : o.Resp}
      (hr : s.receiver = .looping (.call o k)) (h : s.hear o = some (r, s')) :
      Step s .receiver { s' with receiver := .looping (k r) }
  | stop {s : Client} (hr : s.receiver = .stopping) :
      Step s .receiver
        { s with
          console := { s.console with running := false, disconnected := true }, receiver := .done }

theorem step_cases {s s' : Client} {l : ClientLabel} (h : s.step l = some s') : Step s l s' := by
  cases l with
  | main ok fd =>
    simp only [step, mainStep] at h
    split at h
    · rename_i hpc
      cases h
      exact .failure hpc
    · rename_i hpc
      cases h
      exact .loop hpc
    · rename_i hpc
      cases h
      exact .noThread hpc
    · rename_i o k hpc
      obtain ⟨⟨r, t⟩, hp, rfl⟩ := Option.map_eq_some_iff.1 h
      exact .start hpc hp
    · rename_i hpc
      split at h
      · rename_i r hr
        cases h
        exact .returned hpc (Console.code_of_result hr)
      · rename_i hr
        split at h
        · cases h
        obtain ⟨console, hc, rfl⟩ := Option.map_eq_some_iff.1 h
        simp only [Console.step] at hc
        split at hc
        · cases hc
        · rename_i hcode
          cases hc
          simp only [consoleAct, hcode, Option.toList_none, List.append_nil]
          exact .pass hpc hcode
        · rename_i o k hcode
          cases hc
          simp only [consoleAct, hcode]
          exact .input hpc hcode
    · rename_i hpc
      cases h
      exact .exit hpc
    · rename_i o k hpc
      obtain ⟨⟨r, t⟩, hp, rfl⟩ := Option.map_eq_some_iff.1 h
      exact .leave hpc hp
    · cases h
  | receiver =>
    simp only [step, receiverStep] at h
    split at h
    · cases h
    · cases h
    · rename_i hr
      cases h
      exact .again hr
    · rename_i hr
      cases h
      exact .ended hr
    · rename_i o k hr
      obtain ⟨⟨r, t⟩, hp, rfl⟩ := Option.map_eq_some_iff.1 h
      exact .hear hr hp
    · rename_i hr
      cases h
      exact .stop hr

variable {s s' : Client}

/-- A call of `recv_line` that does not wait. -/
theorem receive_some {α : Type} {f : Received × List Recv → α} {a : α}
    (h : (receive s.closes s.network).map f = some a) :
    ∃ r rest, receive s.closes s.network = some (r, rest) ∧ f (r, rest) = a := by
  obtain ⟨⟨r, rest⟩, hr, ha⟩ := Option.map_eq_some_iff.1 h
  exact ⟨r, rest, hr, ha⟩

/-- An operation of `main` does not touch the console, nor what is outside of the process. -/
theorem perform_console {ok : Bool} {fd : Nat} {o : MainOp} {r : o.Resp}
    (h : s.perform ok fd o = some (r, s')) :
    s'.console = s.console ∧ s'.eof = s.eof ∧ s'.closes = s.closes := by
  cases o with
  | mutexInit => cases h; cases ok <;> exact ⟨rfl, rfl, rfl⟩
  | socket => cases ok <;> cases h <;> exact ⟨rfl, rfl, rfl⟩
  | create => cases h; cases ok <;> exact ⟨rfl, rfl, rfl⟩
  | recvLine =>
    obtain ⟨r, rest, -, h⟩ := receive_some h
    cases h
    exact ⟨rfl, rfl, rfl⟩
  | join =>
    rw [perform] at h
    split at h
    · cases h
      exact ⟨rfl, rfl, rfl⟩
    · cases h
  | _ => cases h; exact ⟨rfl, rfl, rfl⟩

/-- It touches the other thread where it creates it. -/
theorem perform_receiver {ok : Bool} {fd : Nat} {o : MainOp} {r : o.Resp}
    (h : s.perform ok fd o = some (r, s')) :
    s'.receiver = s.receiver ∨ o = .create ∧ s'.receiver = .looping receiverTurn := by
  cases o with
  | mutexInit => cases h; cases ok <;> exact .inl rfl
  | socket => cases ok <;> cases h <;> exact .inl rfl
  | create =>
    cases h
    cases ok with
    | false => exact .inl rfl
    | true => exact .inr ⟨rfl, rfl⟩
  | recvLine =>
    obtain ⟨r, rest, -, h⟩ := receive_some h
    cases h
    exact .inl rfl
  | join =>
    rw [perform] at h
    split at h
    · cases h
      exact .inl rfl
    · cases h
  | _ => cases h; exact .inl rfl

/-- An operation of the receiver thread touches neither the console nor `main`. -/
theorem hear_console {o : ReceiverOp} {r : o.Resp} (h : s.hear o = some (r, s')) :
    s'.console = s.console ∧ s'.pc = s.pc ∧ s'.eof = s.eof ∧ s'.closes = s.closes := by
  cases o with
  | running | shows => cases h; exact ⟨rfl, rfl, rfl, rfl⟩
  | recvLine =>
    obtain ⟨r, rest, -, h⟩ := receive_some h
    cases h
    exact ⟨rfl, rfl, rfl, rfl⟩

/-- Whether there is more from outside is decided outside. -/
theorem step_outside {l : ClientLabel} (h : Step s l s') :
    s'.eof = s.eof ∧ s'.closes = s.closes := by
  cases h with
  | start hpc h | leave hpc h => exact (perform_console h).2
  | hear hr h => exact (hear_console h).2.2
  | failure | loop | noThread | returned | pass | input | exit | again | ended | stop =>
    exact ⟨rfl, rfl⟩

theorem outside_reach {argv : List Bytes} {stdin : Bytes} {eof : Bool} {network : List Recv}
    {closes : Bool} (h : (clientSystem argv stdin eof network closes).Reach s) :
    s.eof = eof ∧ s.closes = closes := by
  apply System.Reach.invariant (P := fun s => s.eof = eof ∧ s.closes = closes) ⟨rfl, rfl⟩ _ h
  intro s l s' _ ⟨heof, hcloses⟩ hstep
  obtain ⟨heof', hcloses'⟩ := step_outside (step_cases hstep)
  exact ⟨heof'.trans heof, hcloses'.trans hcloses⟩

end Client

end ChatMultithread
