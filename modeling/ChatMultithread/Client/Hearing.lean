import ChatMultithread.Client.Passes
import ChatMultithread.Client.Resources

/-!
# What the client process shows

`client_register` takes two lines off the stream, and the receiver thread goes on behind them. What
it shows beside the input loop is what `receiver_loop` shows when it is alone, up to the moment in
which the input loop clears the flag.
-/

namespace ChatMultithread

open Lib

/-- What the log has shown. -/
def shows (log : List Act) : List UiEvent :=
  log.filterMap fun
    | .showed e => some e
    | _ => none

@[simp] theorem shows_append (log log' : List Act) :
    shows (log ++ log') = shows log ++ shows log' := List.filterMap_append

/-! ## The receiver thread alone -/

/-- All that `receiver_loop` shows of its input when the user does not leave. -/
def heardFrom (closes : Bool) (input : List Recv) : List UiEvent :=
  receiverLoop closes (input.length + 1) input

theorem clientRecvLineLoop_length {room : Nat} {used : Bytes} {input : List Recv} {buffer : Bytes}
    {rest : List Recv} (h : clientRecvLineLoop room used input = .line buffer rest) :
    rest.length ≤ input.length ∧ (0 < room → rest.length < input.length) := by
  induction room generalizing used input with
  | zero =>
    cases h
    exact ⟨Nat.le_refl _, fun h => absurd h (Nat.lt_irrefl 0)⟩
  | succ room ih =>
    cases input with
    | nil => cases h
    | cons r input =>
      cases r with
      | byte c =>
        rw [clientRecvLineLoop] at h
        split at h
        · cases h
          simp
        · have hle := (ih h).1
          rw [List.length_cons]
          exact ⟨by omega, fun _ => by omega⟩
      | interrupted => cases h
      | failed => cases h

/-- A line takes something off the input. -/
theorem clientRecvLine_length {input : List Recv} {buffer : Bytes} {rest : List Recv}
    (h : clientRecvLine maxMsgLen input = .line buffer rest) : rest.length < input.length :=
  (clientRecvLineLoop_length h).2 (by decide)

/-- There is always enough fuel. -/
theorem receiverLoop_eq_heardFrom {closes : Bool} {fuel : Nat} {input : List Recv}
    (h : input.length < fuel) : receiverLoop closes fuel input = heardFrom closes input := by
  suffices hany : ∀ n fuel fuel', input.length ≤ n → input.length < fuel → input.length < fuel' →
      receiverLoop closes fuel input = receiverLoop closes fuel' input from
    hany input.length fuel (input.length + 1) (Nat.le_refl _) h (Nat.lt_succ_self _)
  intro n
  induction n generalizing input with
  | zero =>
    intro fuel fuel' hn hfuel hfuel'
    obtain rfl := List.length_eq_zero_iff.1 (Nat.le_zero.1 hn)
    obtain ⟨fuel, rfl⟩ := Nat.exists_eq_succ_of_ne_zero (Nat.ne_of_gt hfuel)
    obtain ⟨fuel', rfl⟩ := Nat.exists_eq_succ_of_ne_zero (Nat.ne_of_gt hfuel')
    rfl
  | succ n ih =>
    intro fuel fuel' hn hfuel hfuel'
    obtain ⟨fuel, rfl⟩ := Nat.exists_eq_succ_of_ne_zero (Nat.ne_zero_of_lt hfuel)
    obtain ⟨fuel', rfl⟩ := Nat.exists_eq_succ_of_ne_zero (Nat.ne_zero_of_lt hfuel')
    rw [receiverLoop, receiverLoop]
    cases hrecv : clientRecvLine maxMsgLen input with
    | closed => rfl
    | failed => rfl
    | line buffer rest =>
      have hlt := clientRecvLine_length hrecv
      dsimp only
      rw [@ih rest (by omega) fuel fuel' (by omega) (by omega) (by omega)]

/-- What is left of the input behind a line. -/
def behindLine (input : List Recv) : List Recv :=
  match clientRecvLine maxMsgLen input with
  | .line _ rest => rest
  | .closed | .failed => []

theorem receive_behind {closes : Bool} {input rest : List Recv} {r : Received}
    (h : receive closes input = some (r, rest)) : rest = behindLine input := by
  rw [receive] at h
  rw [behindLine]
  cases hrecv : clientRecvLine maxMsgLen input with
  | line buffer rest =>
    rw [hrecv] at h
    cases h
    rfl
  | closed =>
    rw [hrecv] at h
    cases closes <;> cases h
    rfl
  | failed =>
    rw [hrecv] at h
    cases h
    rfl

theorem receive_line {closes : Bool} {input rest : List Recv} {buffer : Bytes}
    (h : receive closes input = some (.line buffer, rest)) :
    clientRecvLine maxMsgLen input = .line buffer rest := by
  rw [receive] at h
  cases hrecv : clientRecvLine maxMsgLen input with
  | line buffer rest =>
    rw [hrecv] at h
    cases h
    rfl
  | closed =>
    rw [hrecv] at h
    cases closes <;> cases h
  | failed =>
    rw [hrecv] at h
    cases h

/-- A frame is a line of the input. -/
theorem behindLine_frame {b : Bytes} (hb : IsFrame msgTerminatorChar (maxMsgLen - 1) b)
    (rest : Bytes) : behindLine (bytesIn (b ++ rest)) = bytesIn rest := by
  rw [behindLine, clientRecvLine_bytesIn, hb.nextFrame]

/-- The loop, line by line; nothing more is shown while it waits. -/
theorem heardFrom_eq (closes : Bool) (input : List Recv) :
    heardFrom closes input =
      match receive closes input with
      | none => []
      | some (.closed, _) => [.disconnected]
      | some (.failed, _) => [.connectionLost]
      | some (.line buffer, rest) =>
          (dispatchMessage (cstr buffer)).1 ::
            if (dispatchMessage (cstr buffer)).2 ≠ -1 then heardFrom closes rest else [] := by
  rw [heardFrom, receiverLoop, receive]
  cases hrecv : clientRecvLine maxMsgLen input with
  | closed => cases closes <;> rfl
  | failed => rfl
  | line buffer rest =>
    dsimp only
    rw [receiverLoop_eq_heardFrom (clientRecvLine_length hrecv)]
    by_cases hend : (dispatchMessage (cstr buffer)).2 = -1
    · rw [if_pos hend, if_neg (not_not.2 hend)]
    · rw [if_neg hend, if_pos hend]

/-! ## A pass of the receiver thread -/

/-- What the receiver thread has in hand: nothing; the end of the connection; a line, and whether
    it goes on behind it; what it has just shown; or it has found the flag clear. -/
inductive Hearing where
  | waiting
  | lost (e : UiEvent)
  | heard (e : UiEvent) (more : Bool)
  | shown (more : Bool)
  | left
  deriving DecidableEq, Repr

namespace Hearing

inductive Allows : Hearing → ReceiverOp → Prop
  | running (g : Hearing) : Allows g .running
  | recvLine : Allows .waiting .recvLine
  | showLost (e : UiEvent) : Allows (.lost e) (.shows e)
  | showHeard (e : UiEvent) (more : Bool) : Allows (.heard e more) (.shows e)

/-- What a call of `recv_line` leaves to be shown. -/
def received : Received → Hearing
  | .closed => .lost .disconnected
  | .failed => .lost .connectionLost
  | .line buffer =>
      .heard (dispatchMessage (cstr buffer)).1 (decide ((dispatchMessage (cstr buffer)).2 ≠ -1))

def next : (g : Hearing) → (o : ReceiverOp) → o.Resp → Hearing
  | g, .running, r => if r then g else .left
  | _, .recvLine, r => received r
  | .heard _ more, .shows _, _ => .shown more
  | _, .shows _, _ => .shown false

/-- How a pass ends. -/
inductive Post : Hearing → Bool → Prop
  | shown (more : Bool) : Post (.shown more) more
  | left : Post .left false

/-- The monitor of the receiver thread. -/
def monitor : Monitor ReceiverOp ReceiverOp.Resp Hearing where
  allows := Allows
  answers _ _ _ := True
  next := next

theorem safe_receiverTurn : monitor.Safe Post .waiting receiverTurn := by
  have hended : ∀ e, monitor.Safe Post (.lost e) (connectionEnded e) := by
    intro e
    refine ⟨.running _, fun running _ => ?_⟩
    cases running with
    | false => exact .left
    | true => exact ⟨.showLost e, fun _ _ => .shown false⟩
  refine ⟨.running _, fun running _ => ?_⟩
  cases running with
  | false => exact .left
  | true =>
    refine ⟨.recvLine, fun n _ => ?_⟩
    cases n with
    | closed => exact hended .disconnected
    | failed => exact hended .connectionLost
    | line buffer => exact ⟨.showHeard _ _, fun _ _ => .shown _⟩

/-- What is still to be shown, with the rest of the input. -/
def pending (closes : Bool) (network : List Recv) : Hearing → List UiEvent
  | .waiting => heardFrom closes network
  | .lost e => [e]
  | .heard e more => e :: if more then heardFrom closes network else []
  | .shown more => if more then heardFrom closes network else []
  | .left => []

/-- Receiving a line leaves the same to be shown. -/
theorem pending_received {closes : Bool} {network rest : List Recv} {r : Received}
    (h : receive closes network = some (r, rest)) :
    pending closes rest (received r) = heardFrom closes network := by
  rw [heardFrom_eq, h]
  cases r with
  | closed => rfl
  | failed => rfl
  | line buffer => simp [pending, received]

end Hearing

/-! ## The registration -/

/-- What is left of the input behind `client_register`. -/
def behindRegister (network : List Recv) : List Recv := behindLine (behindLine network)

/-- `main` reads its input in order, stores only what `client_register` has found, and creates the
    thread behind that. -/
def reading (username : Bytes) (network : List Recv) (closes : Bool) :
    Monitor MainOp MainOp.Resp (List Recv × Option ClientState) where
  allows g o := match o with
    | .recvLine => g.2 = none
    | .store state => g.2 = none ∧ (clientRegister clientInit username true network).result = .ok state ∧
        g.1 = behindRegister network
    | .create => g.2.isSome = true
    | _ => True
  answers g o r := match o, r with
    | .recvLine, r => ∃ rest, receive closes g.1 = some (r, rest)
    | _, _ => True
  next g o _ := match o with
    | .recvLine => (behindLine g.1, g.2)
    | .store state => (g.1, some state)
    | _ => g

section Reading

variable {username : Bytes} {network : List Recv} {closes : Bool} {α : Type}
  {post : List Recv × Option ClientState → α → Prop} {g : List Recv × Option ClientState}

/-- A state that `client_register` returns is that of `clientRegister`, with the input behind it. -/
def Found (username : Bytes) (network : List Recv) (g : List Recv × Option ClientState)
    (result : Except RegisterError ClientState) : Prop :=
  g.2 = none ∧ ∀ state, result = .ok state →
    (clientRegister clientInit username true network).result = .ok state ∧
      g.1 = behindRegister network

theorem reading_clientRegistration :
    (reading username network closes).Safe (Found username network) (network, none)
      (clientRegistration clientInit username) := by
  have hfailure : ∀ g e, g.2 = none →
      (reading username network closes).Safe (Found username network) g (.ret (.error e)) :=
    fun g e hg => ⟨hg, fun state h => nomatch h⟩
  refine ⟨rfl, ?_⟩
  rintro n ⟨rest, hn⟩
  show (reading username network closes).Safe _ (behindLine network, none) _
  cases n with
  | closed | failed => exact hfailure _ _ rfl
  | line buffer =>
    show (reading username network closes).Safe _ _ (if _ then _ else _)
    split
    · exact hfailure _ _ rfl
    · rename_i hwelcome
      refine ⟨trivial, fun sent _ => ?_⟩
      cases sent with
      | false => exact hfailure _ _ rfl
      | true =>
        refine ⟨rfl, ?_⟩
        rintro m ⟨rest', hm⟩
        show (reading username network closes).Safe _ (behindRegister network, none) _
        have hm : receive closes (behindLine network) = some (m, rest') := hm
        rw [← receive_behind hn] at hm
        cases m with
        | closed | failed => exact hfailure _ _ rfl
        | line buffer' =>
          refine ⟨rfl, fun state hstate => ⟨?_, rfl⟩⟩
          unfold clientRegister
          rw [receive_line hn]
          simp only [if_neg hwelcome, receive_line hm]
          exact hstate

theorem reading_clientConnect (serverIp : Bytes) (port : Int) :
    (reading username network closes).Safe (fun g _ => g = (network, none)) (network, none)
      (clientConnect serverIp port) := by
  have hgiveUp : (reading username network closes).Safe
      (fun g (_ : ClientResult) => g = (network, none)) (network, none) giveUp :=
    ⟨trivial, fun _ _ => ⟨trivial, fun _ _ => rfl⟩⟩
  refine ⟨trivial, fun sockfd _ => ?_⟩
  show (reading username network closes).Safe _ (network, none) (if sockfd < 0 then _ else _)
  split
  · rfl
  · refine ⟨trivial, fun known _ => ?_⟩
    cases known with
    | false => exact hgiveUp
    | true =>
      refine ⟨trivial, fun connected _ => ?_⟩
      cases connected with
      | false => exact hgiveUp
      | true => rfl

/-- What `main` knows when it goes on to `input_loop`, or does not come so far. -/
def Known (g : List Recv × Option ClientState) (started : Started) : Prop :=
  started = .failure → g.2 = none

end Reading

theorem reading_clientMain (argv : List Bytes) (network : List Recv) (closes : Bool) :
    (reading (argv.headD []) network closes).Safe Known (network, none) (clientMain argv) := by
  have hfailure : ∀ username g, g.2 = none →
      (reading username network closes).Safe Known g (.ret .failure) := fun _ _ h _ => h
  unfold clientMain
  split
  · rename_i username serverIp portStr
    rw [List.headD_cons]
    split
    · exact hfailure _ _ rfl
    split
    · exact hfailure _ _ rfl
    refine ⟨trivial, fun init _ => ?_⟩
    cases init with
    | false => exact hfailure _ _ rfl
    | true =>
      show (reading username network closes).Safe Known (network, none) (clientConnect _ _ >>= _)
      rw [Monitor.safe_bind]
      apply (reading_clientConnect _ _).mono
      rintro g result rfl
      split
      · exact ⟨trivial, fun _ _ => hfailure _ _ rfl⟩
      · show (reading username network closes).Safe Known (network, none) (mainRegister username)
        unfold mainRegister
        rw [Monitor.safe_bind]
        apply reading_clientRegistration.mono
        rintro g result ⟨hnone, hfound⟩
        cases result with
        | error e => exact ⟨trivial, fun _ _ => ⟨trivial, fun _ _ => hfailure _ _ hnone⟩⟩
        | ok state =>
          obtain ⟨hresult, hbehind⟩ := hfound state rfl
          refine ⟨⟨hnone, hresult, hbehind⟩, fun _ _ => ⟨rfl, fun created _ => ?_⟩⟩
          cases created with
          | false => exact fun h => nomatch h
          | true => exact ⟨trivial, fun _ _ h => nomatch h⟩
  · exact hfailure _ _ rfl

theorem reading_clientDisconnect {username : Bytes} {network : List Recv} {closes : Bool}
    (g : List Recv × Option ClientState) :
    (reading username network closes).Safe (fun _ _ => True) g clientDisconnect := by
  refine ⟨trivial, fun sockfd _ => ?_⟩
  show (reading username network closes).Safe _ g (if sockfd < 0 then _ else _)
  split
  · trivial
  · exact ⟨trivial, fun _ _ => ⟨trivial, fun _ _ => ⟨trivial, fun _ _ => ⟨trivial, fun _ _ => trivial⟩⟩⟩⟩

/-! ## Runs -/

namespace Client

variable {argv : List Bytes} {stdin : Bytes} {eof : Bool} {network : List Recv} {closes : Bool}
  {s s' : Client} {g : List Recv × Option ClientState}

/-- What `main` still has to do keeps to the input. -/
def Reads (argv : List Bytes) (network : List Recv) (closes : Bool)
    (g : List Recv × Option ClientState) : ClientPc → Prop
  | .starting code => (reading (argv.headD []) network closes).Safe Known g code
  | .leaving code => (reading (argv.headD []) network closes).Safe (fun _ _ => True) g code
  | .looping | .exited _ => True

/-- What the receiver thread has shown of what `receiver_loop` shows from its start on, where it
    stands, with `input` left. -/
def Shown (closes : Bool) (start input : List Recv) (log : List Act) : ReceiverPc → Prop
  | .notCreated => shows log = []
  | .looping code =>
      ∃ g more, Hearing.monitor.Safe Hearing.Post g code ∧
        shows log ++ g.pending closes input ++ more = heardFrom closes start ∧
        (g = .left ∧ .stopped ∈ log ∨ g ≠ .left ∧ more = [])
  | .stopping | .done =>
      ∃ more, shows log ++ more = heardFrom closes start ∧ (.stopped ∈ log ∨ more = [])

/-- What the process has got from its input. -/
structure Hears (argv : List Bytes) (network : List Recv) (closes : Bool)
    (g : List Recv × Option ClientState) (s : Client) : Prop where
  reads : Reads argv network closes g s.pc
  peer : s.closes = closes
  input : s.receiver = .notCreated → s.network = g.1
  registered : ∀ state, .registered state ∈ s.log ↔ g.2 = some state
  fresh : g.2 = none → s.receiver = .notCreated
  found : ∀ state, g.2 = some state →
    (clientRegister clientInit (argv.headD []) true network).result = .ok state ∧
      g.1 = behindRegister network ∧ s.state = (shows s.log).foldl ClientState.showed state
  shown : Shown closes (behindRegister network) s.network s.log s.receiver
  flag : s.console.running = false → .stopped ∈ s.log ∨ s.receiver = .done

theorem hears_init :
    Hears argv network closes (network, none)
      (clientSystem argv stdin eof network closes).init where
  reads := reading_clientMain argv network closes
  peer := rfl
  input _ := rfl
  registered state := by simp [clientSystem]
  fresh _ := rfl
  found state h := nomatch h
  shown := rfl
  flag h := nomatch h

/-- A log that shows no more. -/
theorem Shown.silent {start input : List Recv} {log log' : List Act} {r : ReceiverPc}
    (h : Shown closes start input log r) (hshows : shows log' = shows log)
    (hstopped : Act.stopped ∈ log → Act.stopped ∈ log') : Shown closes start input log' r := by
  cases r with
  | notCreated => exact hshows.trans h
  | looping code =>
    obtain ⟨g, more, hsafe, htotal, hwhy⟩ := h
    refine ⟨g, more, hsafe, by rw [hshows, htotal], ?_⟩
    exact hwhy.imp (fun hleft => ⟨hleft.1, hstopped hleft.2⟩) fun hgo => hgo
  | stopping | done =>
    obtain ⟨more, htotal, hwhy⟩ := h
    exact ⟨more, by rw [hshows, htotal], hwhy.imp hstopped fun hnil => hnil⟩

/-- An entry of the log that is not about what is heard. -/
theorem Hears.log {entries : List Act} (h : Hears argv network closes g s)
    (hshows : shows entries = []) (hregistered : ∀ state, Act.registered state ∉ entries) :
    Hears argv network closes g { s with log := s.log ++ entries } := by
  have hsame : shows (s.log ++ entries) = shows s.log := by
    rw [shows_append, hshows, List.append_nil]
  have hstopped : Act.stopped ∈ s.log → Act.stopped ∈ s.log ++ entries := List.mem_append_left _
  exact { h with
    registered := fun state => by
      rw [← h.registered state, List.mem_append, or_iff_left (hregistered state)]
    found := fun state hstate => by
      dsimp only
      rw [hsame]
      exact h.found state hstate
    shown := h.shown.silent hsame hstopped
    flag := fun hflag => (h.flag hflag).imp_left hstopped }

/-- One entry of `main`. -/
theorem Hears.record {a : Act} {pc : ClientPc} (h : Hears argv network closes g s)
    (hreads : Reads argv network closes g pc) (hshows : shows [a] = [])
    (hregistered : ∀ state, a ≠ .registered state) :
    Hears argv network closes g { s.record a with pc := pc } := by
  have hlog := h.log hshows fun state hmem => hregistered state (List.mem_singleton.1 hmem).symm
  exact { hlog with reads := hreads }

/-- `main` reads what has arrived. -/
theorem Hears.answers {ok : Bool} {fd : Nat} {o : MainOp} {r : o.Resp}
    (h : Hears argv network closes g s)
    (hallowed : (reading (argv.headD []) network closes).allows g o)
    (hp : s.perform ok fd o = some (r, s')) :
    (reading (argv.headD []) network closes).answers g o r := by
  cases o with
  | recvLine =>
    obtain ⟨r, rest, hrecv, hp⟩ := receive_some hp
    cases hp
    rw [h.peer, h.input (h.fresh hallowed)] at hrecv
    exact ⟨rest, hrecv⟩
  | _ => trivial

/-- `main` has read a line. -/
theorem Hears.received {r : Received} {rest : List Recv} {pc : ClientPc}
    (h : Hears argv network closes g s) (hnone : g.2 = none)
    (hrecv : receive s.closes s.network = some (r, rest))
    (hreads : Reads argv network closes (behindLine g.1, g.2) pc) :
    Hears argv network closes (behindLine g.1, g.2)
      { { s with network := rest }.record .touched with pc := pc } := by
  have hfresh := h.fresh hnone
  have hlog := @Hears.log _ _ _ _ _ [.touched] h rfl (by simp)
  exact { hlog with
    reads := hreads
    input := fun _ => by
      rw [← h.input hfresh]
      exact receive_behind hrecv
    found := fun state hstate => by
      rw [show g.2 = some state from hstate] at hnone
      cases hnone
    shown := by
      have hshown := hlog.shown
      dsimp only at hshown
      show Shown _ _ rest (s.log ++ [.touched]) s.receiver
      rw [hfresh] at hshown ⊢
      exact hshown }

/-- `main` has registered with what it has found. -/
theorem Hears.store {state : ClientState} {pc : ClientPc} (h : Hears argv network closes g s)
    (hnone : g.2 = none)
    (hresult : (clientRegister clientInit (argv.headD []) true network).result = .ok state)
    (hbehind : g.1 = behindRegister network)
    (hreads : Reads argv network closes (g.1, some state) pc) :
    Hears argv network closes (g.1, some state)
      { { s with state := state }.record (.registered state) with pc := pc } := by
  have hfresh := h.fresh hnone
  have hshows : shows s.log = [] := by
    have hshown := h.shown
    rwa [hfresh] at hshown
  have hnow : shows (s.log ++ [.registered state]) = [] := by
    rw [shows_append, hshows]
    rfl
  exact {
    reads := hreads
    peer := h.peer
    input := h.input
    registered := fun state' => by
      have hbefore : Act.registered state' ∉ s.log := by
        rw [h.registered state', hnone]
        exact fun hsome => nomatch hsome
      show Act.registered state' ∈ s.log ++ [.registered state] ↔ some state = some state'
      rw [List.mem_append, or_iff_right hbefore, List.mem_singleton, Act.registered.injEq,
        Option.some.injEq]
      exact eq_comm
    fresh := fun hnew => nomatch hnew
    found := fun state' hstate => by
      obtain rfl := Option.some.inj hstate
      refine ⟨hresult, hbehind, ?_⟩
      show state = (shows (s.log ++ [.registered state])).foldl ClientState.showed state
      rw [hnow]
      rfl
    shown := by
      show Shown _ _ _ (s.log ++ [.registered state]) s.receiver
      rw [hfresh]
      exact hnow
    flag := fun hflag => (h.flag hflag).imp_left (List.mem_append_left _) }

/-- `main` has created the thread. -/
theorem Hears.create {pc : ClientPc} (h : Hears argv network closes g s)
    (hsome : g.2.isSome = true) (hcreated : s.receiver = .notCreated)
    (hreads : Reads argv network closes g pc) :
    Hears argv network closes g { s with receiver := .looping receiverTurn, pc := pc } := by
  obtain ⟨state, hstate⟩ := Option.isSome_iff_exists.1 hsome
  refine { h with
    reads := hreads
    input := fun hnot => nomatch hnot
    fresh := fun hnone => ?_
    shown := ⟨.waiting, [], Hearing.safe_receiverTurn, ?_, .inr ⟨Hearing.noConfusion, rfl⟩⟩
    flag := fun hflag => .inl ?_ }
  · rw [show g.2 = none from hnone] at hstate
    cases hstate
  · have hshown := h.shown
    rw [hcreated] at hshown
    show shows s.log ++ heardFrom closes s.network ++ [] = _
    rw [show shows s.log = [] from hshown, h.input hcreated, (h.found state hstate).2.1,
      List.append_nil, List.nil_append]
  · rcases h.flag hflag with hstopped | hdone
    · exact hstopped
    · rw [hcreated] at hdone
      cases hdone

/-- An operation of `main`. -/
theorem Hears.perform {held : Holdings} {ok : Bool} {fd : Nat} {o : MainOp} {r : o.Resp}
    {pc : ClientPc} (h : Hears argv network closes g s) (hg : Holds held s)
    (hcan : held.Allows o) (hallowed : (reading (argv.headD []) network closes).allows g o)
    (hp : s.perform ok fd o = some (r, s'))
    (hreads : Reads argv network closes ((reading (argv.headD []) network closes).next g o r) pc) :
    Hears argv network closes ((reading (argv.headD []) network closes).next g o r)
      { s' with pc := pc } := by
  cases o with
  | mutexInit =>
    cases hp
    cases ok with
    | false => exact { h with reads := hreads }
    | true => exact h.record hreads rfl fun _ => Act.noConfusion
  | mutexDestroy | connect | send | close =>
    cases hp
    exact h.record hreads rfl fun _ => Act.noConfusion
  | socket =>
    cases ok with
    | false =>
      cases hp
      exact { h with reads := hreads }
    | true =>
      cases hp
      have hlog := h.record (a := .opened) hreads rfl fun _ => Act.noConfusion
      exact { hlog with }
  | inetPton | welcome | sockfd | forget =>
    cases hp
    exact { h with reads := hreads }
  | recvLine =>
    obtain ⟨r, rest, hrecv, hp⟩ := receive_some hp
    cases hp
    exact h.received hallowed hrecv hreads
  | store state =>
    cases hp
    exact h.store hallowed.1 hallowed.2.1 hallowed.2.2 hreads
  | create =>
    cases hp
    cases ok with
    | false => exact { h with reads := hreads }
    | true => exact h.create hallowed (hg.notCreated hcan.2.2) hreads
  | join =>
    rw [Client.perform] at hp
    split at hp
    · cases hp
      exact { h with reads := hreads }
    · cases hp

/-- What one operation of the receiver thread makes of what is still to be shown. -/
theorem Hears.pending {held : Hearing} {more : List UiEvent} {o : ReceiverOp} {r : o.Resp}
    {start : List Recv} (h : Hears argv network closes g s) (hallowed : Hearing.Allows held o)
    (hp : s.hear o = some (r, s')) (hr : s.receiver ≠ .done)
    (htotal : shows s.log ++ held.pending closes s.network ++ more = heardFrom closes start)
    (hwhy : held = .left ∧ .stopped ∈ s.log ∨ held ≠ .left ∧ more = []) :
    ∃ more', shows s'.log ++ (held.next o r).pending closes s'.network ++ more' =
        heardFrom closes start ∧
      (held.next o r = .left ∧ .stopped ∈ s'.log ∨ held.next o r ≠ .left ∧ more' = []) := by
  cases hallowed with
  | running =>
    cases hp
    cases hflag : s.console.running with
    | true =>
      have hsame : held.next .running true = held := by cases held <;> rfl
      rw [hsame]
      exact ⟨more, htotal, hwhy⟩
    | false =>
      have hleft : held.next .running false = .left := by cases held <;> rfl
      rw [hleft]
      refine ⟨held.pending closes s.network ++ more, ?_, .inl ⟨rfl, ?_⟩⟩
      · show shows s.log ++ [] ++ (held.pending closes s.network ++ more) = _
        rw [List.append_nil, ← List.append_assoc, htotal]
      · exact (h.flag hflag).resolve_right hr
  | recvLine =>
    obtain ⟨r, rest, hrecv, hp⟩ := receive_some hp
    cases hp
    obtain ⟨-, rfl⟩ := hwhy.resolve_left fun hleft => nomatch hleft.1
    refine ⟨[], ?_, .inr ⟨?_, rfl⟩⟩
    · rw [h.peer] at hrecv
      show shows (s.log ++ [.touched]) ++ Hearing.pending closes rest (Hearing.received r) ++ [] = _
      rw [Hearing.pending_received hrecv, shows_append, show shows [Act.touched] = [] from rfl,
        List.append_nil (shows s.log)]
      exact htotal
    · show Hearing.received r ≠ .left
      cases r <;> exact Hearing.noConfusion
  | showLost e =>
    cases hp
    obtain ⟨-, rfl⟩ := hwhy.resolve_left fun hleft => nomatch hleft.1
    refine ⟨[], ?_, .inr ⟨Hearing.noConfusion, rfl⟩⟩
    show shows (s.log ++ [.showed e]) ++ [] ++ [] = _
    rw [shows_append, List.append_nil]
    exact htotal
  | showHeard e goOn =>
    cases hp
    obtain ⟨-, rfl⟩ := hwhy.resolve_left fun hleft => nomatch hleft.1
    refine ⟨[], ?_, .inr ⟨Hearing.noConfusion, rfl⟩⟩
    show shows (s.log ++ [.showed e]) ++ (if goOn = true then heardFrom closes s.network else []) ++
      [] = _
    rw [shows_append, ← htotal]
    simp [Hearing.pending, shows]

/-- The receiver thread goes on. -/
theorem Hears.move {r : ReceiverPc} {console : Console} (h : Hears argv network closes g s)
    (hr : s.receiver ≠ .notCreated) (hnew : r ≠ .notCreated)
    (hshown : Shown closes (behindRegister network) s.network s.log r)
    (hflag : console.running = false → .stopped ∈ s.log ∨ r = .done) :
    Hears argv network closes g { s with receiver := r, console := console } :=
  { h with
    input := fun hnot => absurd hnot hnew
    fresh := fun hnone => absurd (h.fresh hnone) hr
    shown := hshown
    flag := hflag }

/-- A thread in its loop has been created, and has not cleared the flag. -/
theorem Hears.looping {code : ReceiverProg Bool} (h : Hears argv network closes g s)
    (hr : s.receiver = .looping code) :
    s.receiver ≠ .notCreated ∧ s.receiver ≠ .done ∧
      (s.console.running = false → .stopped ∈ s.log) := by
  have hdone : s.receiver ≠ .done := by
    rw [hr]
    exact ReceiverPc.noConfusion
  refine ⟨?_, hdone, fun hflag => (h.flag hflag).resolve_right hdone⟩
  rw [hr]
  exact ReceiverPc.noConfusion

/-- The receiver thread begins another pass. -/
theorem Hears.again (h : Hears argv network closes g s)
    (hr : s.receiver = .looping (.ret true)) :
    Hears argv network closes g { s with receiver := .looping receiverTurn } := by
  obtain ⟨hcreated, -, hstopped⟩ := h.looping hr
  have hshown := h.shown
  rw [hr] at hshown
  obtain ⟨held, more, hpost, htotal, hwhy⟩ := hshown
  refine h.move hcreated ReceiverPc.noConfusion ?_ fun hflag => .inl (hstopped hflag)
  cases hpost with
  | shown goOn =>
    obtain ⟨-, rfl⟩ := hwhy.resolve_left fun hleft => by cases hleft.1
    exact ⟨.waiting, [], Hearing.safe_receiverTurn, htotal, .inr ⟨Hearing.noConfusion, rfl⟩⟩

/-- The receiver thread leaves its loop. -/
theorem Hears.ended (h : Hears argv network closes g s)
    (hr : s.receiver = .looping (.ret false)) :
    Hears argv network closes g { s with receiver := .stopping } := by
  obtain ⟨hcreated, -, hstopped⟩ := h.looping hr
  have hshown := h.shown
  rw [hr] at hshown
  obtain ⟨held, more, hpost, htotal, hwhy⟩ := hshown
  refine h.move hcreated ReceiverPc.noConfusion ?_ fun hflag => .inl (hstopped hflag)
  cases hpost with
  | shown goOn =>
    obtain ⟨-, rfl⟩ := hwhy.resolve_left fun hleft => by cases hleft.1
    rw [List.append_nil] at htotal
    exact ⟨[], htotal, .inr rfl⟩
  | left =>
    obtain ⟨-, hleft⟩ := hwhy.resolve_right fun hgo => hgo.1 rfl
    refine ⟨more, ?_, .inl hleft⟩
    rw [← htotal]
    exact congrArg (· ++ more) (List.append_nil _).symm

/-- The state of the client follows what the receiver thread shows. -/
theorem Hears.found_hear {o : ReceiverOp} {r : o.Resp} (h : Hears argv network closes g s)
    (hp : s.hear o = some (r, s')) {state : ClientState} (hstate : g.2 = some state) :
    (clientRegister clientInit (argv.headD []) true network).result = .ok state ∧
      g.1 = behindRegister network ∧ s'.state = (shows s'.log).foldl ClientState.showed state := by
  obtain ⟨hresult, hbehind, hnow⟩ := h.found state hstate
  refine ⟨hresult, hbehind, ?_⟩
  cases o with
  | running =>
    cases hp
    exact hnow
  | recvLine =>
    obtain ⟨r, rest, -, hp⟩ := receive_some hp
    cases hp
    show s.state = (shows (s.log ++ [.touched])).foldl ClientState.showed state
    rw [shows_append, show shows [Act.touched] = [] from rfl, List.append_nil, hnow]
  | shows e =>
    cases hp
    show s.state.showed e = (shows (s.log ++ [.showed e])).foldl ClientState.showed state
    rw [shows_append, List.foldl_append, hnow]
    rfl

/-- The receiver thread neither registers nor clears the flag in a pass. -/
theorem hear_log {o : ReceiverOp} {r : o.Resp} (hp : s.hear o = some (r, s')) :
    (∀ state, .registered state ∈ s'.log ↔ .registered state ∈ s.log) ∧
      (Act.stopped ∈ s.log → .stopped ∈ s'.log) := by
  cases o with
  | running =>
    cases hp
    exact ⟨fun _ => Iff.rfl, fun hstopped => hstopped⟩
  | recvLine =>
    obtain ⟨r, rest, -, hp⟩ := receive_some hp
    cases hp
    simp [record]
  | shows e =>
    cases hp
    simp [record]

/-- An operation of the receiver thread. -/
theorem Hears.hear {o : ReceiverOp} {k : o.Resp → ReceiverProg Bool} {r : o.Resp}
    (h : Hears argv network closes g s) (hr : s.receiver = .looping (.call o k))
    (hp : s.hear o = some (r, s')) :
    Hears argv network closes g { s' with receiver := .looping (k r) } := by
  obtain ⟨hcreated, hdone, hstopped⟩ := h.looping hr
  obtain ⟨hconsole, hpc, -, hcloses⟩ := hear_console hp
  obtain ⟨hregistered, hstays⟩ := hear_log hp
  have hshown := h.shown
  rw [hr] at hshown
  obtain ⟨held, more, hsafe, htotal, hwhy⟩ := hshown
  obtain ⟨more', htotal', hwhy'⟩ := h.pending hsafe.1 hp hdone htotal hwhy
  exact {
    reads := by
      show Reads argv network closes g s'.pc
      rw [hpc]
      exact h.reads
    peer := hcloses.trans h.peer
    input := fun hnot => by cases hnot
    registered := fun state => (hregistered state).trans (h.registered state)
    fresh := fun hnone => absurd (h.fresh hnone) hcreated
    found := fun _ => h.found_hear hp
    shown := ⟨_, more', hsafe.2 _ trivial, htotal', hwhy'⟩
    flag := fun hflag => by
      have hflag : s'.console.running = false := hflag
      rw [hconsole] at hflag
      exact .inl (hstays (hstopped hflag)) }

/-- An operation of the input loop. -/
theorem Hears.input_loop {ok : Bool} {o : InputOp} {code : InputProg (Option ClientResult)}
    (h : Hears argv network closes g s) :
    Hears argv network closes g
      { s with
        console := { (s.console.perform ok o).2 with code := code }
        log := s.log ++ (inputAct ok o).toList } := by
  have hentries : shows (inputAct ok o).toList = [] ∧
      ∀ state, Act.registered state ∉ (inputAct ok o).toList := by
    cases o <;> simp [inputAct, shows]
  have hlog := h.log hentries.1 hentries.2
  refine { hlog with flag := fun hflag => ?_ }
  cases o with
  | stop => exact .inl (by simp [inputAct])
  | running | fgets => exact hlog.flag hflag
  | print | send =>
    rw [Console.perform, Console.note_eq] at hflag
    exact hlog.flag hflag

theorem hears_step {held : Holdings} {l : ClientLabel} (hs : Step s l s') (hg : Holds held s)
    (hcourse : OnCourse held s.pc) (h : Hears argv network closes g s) :
    ∃ g', Hears argv network closes g' s' := by
  have hreads := h.reads
  cases hs with
  | failure hpc | loop hpc | exit hpc => exact ⟨g, { h with reads := trivial }⟩
  | noThread hpc => exact ⟨g, { h with reads := reading_clientDisconnect g }⟩
  | start hpc hp | leave hpc hp =>
    rw [hpc] at hreads hcourse
    have hanswers := h.answers hreads.1 hp
    exact ⟨_, h.perform hg hcourse.1 hreads.1 hp (hreads.2 _ hanswers)⟩
  | @returned ok fd r hpc hr =>
    have hlog := @Hears.log _ _ _ _ _ [.returned r] h rfl (by simp)
    exact ⟨g, { hlog with reads := ⟨trivial, fun _ _ => reading_clientDisconnect g⟩ }⟩
  | pass hpc hcode => exact ⟨g, { h with }⟩
  | input hpc hcode => exact ⟨g, h.input_loop⟩
  | again hr => exact ⟨g, h.again hr⟩
  | ended hr => exact ⟨g, h.ended hr⟩
  | hear hr hp => exact ⟨g, h.hear hr hp⟩
  | stop hr =>
    have hshown := h.shown
    rw [hr] at hshown
    refine ⟨g, h.move ?_ ReceiverPc.noConfusion hshown fun _ => .inr rfl⟩
    rw [hr]
    exact ReceiverPc.noConfusion

theorem hears_reach (h : (clientSystem argv stdin eof network closes).Reach s) :
    ∃ g, Hears argv network closes g s := by
  apply System.Reach.invariant (P := fun s => ∃ g, Hears argv network closes g s) _ _ h
  · exact ⟨_, hears_init⟩
  · intro s l s' hreach ⟨g, hs⟩ hstep
    obtain ⟨held, hg, hcourse⟩ := holds_reach hreach
    exact hears_step (step_cases hstep) hg hcourse hs

/-- The receiver thread has begun to show what `receiver_loop` shows. -/
theorem Hears.begun (h : Hears argv network closes g s) :
    shows s.log <+: heardFrom closes (behindRegister network) := by
  have hshown := h.shown
  cases hr : s.receiver with
  | notCreated =>
    rw [hr] at hshown
    rw [show shows s.log = [] from hshown]
    exact List.nil_prefix
  | looping code =>
    rw [hr] at hshown
    obtain ⟨held, more, -, htotal, -⟩ := hshown
    rw [← htotal, List.append_assoc]
    exact List.prefix_append _ _
  | stopping | done =>
    rw [hr] at hshown
    obtain ⟨more, htotal, -⟩ := hshown
    rw [← htotal]
    exact List.prefix_append _ _

/-- A thread that waits in `recv` has shown everything that `receiver_loop` shows. -/
theorem Hears.listening (h : Hears argv network closes g s) (hwaits : s.Listening) :
    shows s.log = heardFrom closes (behindRegister network) := by
  obtain ⟨hat, hnone⟩ := hwaits
  obtain ⟨k, hr⟩ := hat.eq
  have hshown := h.shown
  rw [hr] at hshown
  obtain ⟨held, more, hsafe, htotal, hwhy⟩ := hshown
  have hallowed : Hearing.Allows held .recvLine := hsafe.1
  cases hallowed
  obtain ⟨-, rfl⟩ := hwhy.resolve_left fun hleft => by cases hleft.1
  have hsilent : heardFrom closes s.network = [] := by
    rw [heardFrom_eq, ← h.peer, hnone]
  rw [← htotal, Hearing.pending, hsilent, List.append_nil, List.append_nil]

/-- What the process shows. It registers with what `client_register` finds in its input; behind that
    the receiver thread, whatever runs beside it, shows a part of what `receiver_loop` shows of the
    rest when it is alone, from its start on; it has shown all of it when it waits for more, or when
    it has ended, unless the input loop has cleared the flag; and the state of the client is the
    registered one with the status that was shown last. -/
theorem client_shows (h : (clientSystem argv stdin eof network closes).Reach s)
    {state : ClientState} (hregistered : .registered state ∈ s.log) :
    (clientRegister clientInit (argv.headD []) true network).result = .ok state ∧
      shows s.log <+: heardFrom closes (behindRegister network) ∧
      (s.Listening ∨ s.receiver = .done ∧ .stopped ∉ s.log →
        shows s.log = heardFrom closes (behindRegister network)) ∧
      s.state = (shows s.log).foldl ClientState.showed state := by
  obtain ⟨g, hg⟩ := hears_reach h
  obtain ⟨hresult, -, hstate⟩ := hg.found state ((hg.registered state).1 hregistered)
  refine ⟨hresult, hg.begun, ?_, hstate⟩
  rintro (hwaits | ⟨hdone, hstopped⟩)
  · exact hg.listening hwaits
  · have hshown := hg.shown
    rw [hdone] at hshown
    obtain ⟨more, htotal, hwhy⟩ := hshown
    rw [hwhy.resolve_left hstopped, List.append_nil] at htotal
    exact htotal

theorem client_shows_session :
    ∃ s, session.Reach s ∧ shows s.log = [.statusOk (ascii "OCUPADO")] ∧
      s.state = [UiEvent.statusOk (ascii "OCUPADO")].foldl ClientState.showed
        ⟨ascii "ana", ascii "10.0.0.7", ascii "ACTIVO"⟩ := by
  obtain ⟨s, hs, hp⟩ := System.exists_reach_of_run (S := session) (sessionQuit ++ sessionRest)
    (fun s => decide (shows s.log = [.statusOk (ascii "OCUPADO")] ∧
      Act.registered ⟨ascii "ana", ascii "10.0.0.7", ascii "ACTIVO"⟩ ∈ s.log)) (by decide +kernel)
  obtain ⟨hshows, hregistered⟩ := of_decide_eq_true hp
  obtain ⟨-, -, -, hstate⟩ := client_shows hs hregistered
  rw [hshows] at hstate
  exact ⟨s, hs, hshows, hstate⟩

end Client

end ChatMultithread
