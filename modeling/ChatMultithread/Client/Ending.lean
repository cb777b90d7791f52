import ChatMultithread.Client.Passes
import ChatMultithread.Client.Resources

/-!
# How the client process ends

When `state->running` is clear, either thread has a bounded number of steps left, and `main` waits
for nothing but the other thread: the process ends, in whatever order the steps are taken and
whatever the operating system answers.
-/

namespace ChatMultithread

open Lib

/-! ## The price of a pass -/

theorem within_sendProto (buf : Bytes) : (sendProto buf).Within 2 := by
  intro sent
  cases sent with
  | false => exact fun _ => Prog.within_ret _ _
  | true => exact Prog.within_ret _ _

theorem within_handleCommand (cmd : ParsedCommand) : (handleCommand cmd).Within 3 := by
  have hcomplain : ∀ p, (complain p).Within 3 := fun p _ => Prog.within_ret _ _
  rcases handleCommand_cases cmd with ⟨-, p, -, heq⟩ | ⟨-, heq⟩ | ⟨buf, -, -, heq⟩ | ⟨-, heq⟩
  · rw [heq]
    exact hcomplain p
  · rw [heq]
    exact fun _ => Prog.within_ret _ _
  · rw [heq]
    exact (within_sendProto buf).mono (by decide)
  · rw [heq]
    exact (within_sendProto protoQuit).bind (n := 1) fun _ _ => Prog.within_ret _ _

/-- No pass of the input loop takes more than six operations. -/
theorem within_inputTurn : inputTurn.Within 6 := by
  intro running
  cases running with
  | false => exact Prog.within_ret _ _
  | true =>
    intro line
    cases line with
    | none =>
      refine fun _ => Prog.Within.mono (m := 2) ?_ (by decide)
      exact (within_sendProto protoQuit).bind (n := 0) fun _ => Prog.within_ret _ _
    | some line =>
      intro running
      cases running with
      | false => exact Prog.within_ret _ _
      | true =>
        show (lineTurn line).Within 3
        unfold lineTurn
        split
        · exact fun _ => Prog.within_ret _ _
        · refine (within_handleCommand _).bind (n := 0) fun result => ?_
          split
          · exact Prog.within_ret _ _
          · split <;> exact Prog.within_ret _ _

theorem within_receiverTurn : receiverTurn.Within 4 := by
  have hended : ∀ e, (connectionEnded e).Within 2 := by
    intro e running
    cases running with
    | false => exact Prog.within_ret _ _
    | true => exact fun _ => Prog.within_ret _ _
  intro running
  cases running with
  | false => exact Prog.within_ret _ _
  | true =>
    intro n
    cases n with
    | closed => exact hended _
    | failed => exact hended _
    | line buffer => exact fun _ => Prog.within_ret _ _

theorem within_clientRun : clientRun.Within 2 := by
  intro created
  cases created with
  | false => exact Prog.within_ret _ _
  | true => exact fun _ => Prog.within_ret _ _

theorem within_clientConnect (serverIp : Bytes) (port : Int) :
    (clientConnect serverIp port).Within 5 := by
  have hgiveUp : giveUp.Within 2 := fun _ _ => Prog.within_ret _ _
  intro sockfd
  show Prog.Within 4 (if sockfd < 0 then _ else _)
  split
  · exact Prog.within_ret _ _
  · intro known
    cases known with
    | false => exact hgiveUp.mono (by decide)
    | true =>
      intro connected
      cases connected with
      | false => exact hgiveUp
      | true => exact Prog.within_ret _ _

theorem within_clientRegistration (state : ClientState) (username : Bytes) :
    (clientRegistration state username).Within 3 := by
  intro n
  cases n with
  | closed => exact Prog.within_ret _ _
  | failed => exact Prog.within_ret _ _
  | line buffer =>
    show Prog.Within 2 (if _ then _ else _)
    split
    · exact Prog.within_ret _ _
    · intro sent
      cases sent with
      | false => exact Prog.within_ret _ _
      | true =>
        intro n
        cases n <;> exact Prog.within_ret _ _

/-- `main` comes to `input_loop` within twelve operations. -/
theorem within_clientMain (argv : List Bytes) : (clientMain argv).Within 12 := by
  have hregister : ∀ username, (mainRegister username).Within 6 := by
    intro username
    refine (within_clientRegistration clientInit username).bind (n := 3) fun result => ?_
    cases result with
    | error e => exact fun _ _ => Prog.within_ret _ _
    | ok state => exact fun _ => within_clientRun
  unfold clientMain
  split
  · split
    · exact Prog.within_ret _ _
    · split
      · exact Prog.within_ret _ _
      · intro init
        cases init with
        | false => exact Prog.within_ret _ _
        | true =>
          refine (within_clientConnect _ _).bind (n := 6) fun result => ?_
          split
          · exact fun _ => Prog.within_ret _ _
          · exact hregister _
  · exact Prog.within_ret _ _

theorem within_clientDisconnect : clientDisconnect.Within 5 := by
  intro sockfd
  show Prog.Within 4 (if sockfd < 0 then _ else _)
  split
  · exact Prog.within_ret _ _
  · exact fun _ _ _ _ => Prog.within_ret _ _

namespace Client

variable {argv : List Bytes} {stdin : Bytes} {eof : Bool} {network : List Recv} {closes : Bool}
  {s s' : Client} {g : Holdings}

/-! ## The price of a place in the code -/

/-- The input loop and `main` behind it take at most `n` steps from here when the flag is clear:
    inside of a pass, at its head, and behind the loop. -/
inductive TurnCosts : InputProg (Option ClientResult) → Nat → Prop
  | inside {code : InputProg (Option ClientResult)} {m n : Nat} (h : code.Within m)
      (hn : m + 10 ≤ n) : TurnCosts code n
  | head {n : Nat} (hn : 9 ≤ n) : TurnCosts inputTurn n
  | ended {r : ClientResult} {n : Nat} (hn : 8 ≤ n) : TurnCosts (.ret (some r)) n

/-- `main` takes at most `n` steps from here when the flag is clear. -/
def MainCosts (loop : InputProg (Option ClientResult)) : ClientPc → Nat → Prop
  | .starting code, n => loop = inputLoop ∧ ∃ m, code.Within m ∧ m + 12 ≤ n
  | .looping, n => TurnCosts loop n
  | .leaving code, n => ∃ m, code.Within m ∧ m + 1 ≤ n
  | .exited _, _ => True

/-- A pass of the receiver thread and what is behind it take at most `n` steps from here when the
    flag is clear. -/
inductive PassCosts : ReceiverProg Bool → Nat → Prop
  | inside {code : ReceiverProg Bool} {m n : Nat} (h : code.Within m) (hn : m + 4 ≤ n) :
      PassCosts code n
  | head {n : Nat} (hn : 3 ≤ n) : PassCosts receiverTurn n
  | ended {n : Nat} (hn : 2 ≤ n) : PassCosts (.ret false) n

/-- The receiver thread takes at most `n` steps from here when the flag is clear. -/
def ReceiverCosts : ReceiverPc → Nat → Prop
  | .notCreated, n => 3 ≤ n
  | .looping code, n => PassCosts code n
  | .stopping, n => 1 ≤ n
  | .done, _ => True

/-- Both threads together take at most `n` steps. -/
def Remains (s : Client) (n : Nat) : Prop :=
  ∃ a b, MainCosts s.console.code s.pc a ∧ ReceiverCosts s.receiver b ∧ a + b ≤ n

/-- The thread that `main` creates is the first one. -/
theorem Holds.perform_costs {ok : Bool} {fd : Nat} {o : MainOp} {r : o.Resp} {b : Nat}
    (h : Holds g s) (hallowed : g.Allows o) (hp : s.perform ok fd o = some (r, s'))
    (hb : ReceiverCosts s.receiver b) : ReceiverCosts s'.receiver b := by
  rcases perform_receiver hp with hsame | ⟨rfl, hnew⟩
  · rwa [hsame]
  · rw [h.notCreated hallowed.2.2] at hb
    rw [hnew]
    exact .head hb

/-- One operation of the input loop, which cannot set the flag. -/
theorem console_running {console : Console} {ok : Bool} {o : InputOp}
    (h : console.running = false) : (console.perform ok o).2.running = false := by
  cases o with
  | running | fgets => exact h
  | stop => rfl
  | print | send =>
    rw [Console.perform, Console.note_eq]
    exact h

/-- At the head of a pass the loop finds the flag clear. -/
theorem TurnCosts.call {console : Console} {ok : Bool} {o : InputOp}
    {k : o.Resp → InputProg (Option ClientResult)} {n : Nat} (hstop : console.running = false)
    (h : TurnCosts (.call o k) n) :
    ∃ m, m < n ∧ TurnCosts (k (console.perform ok o).1) m := by
  generalize hcode : Prog.call o k = code at h
  cases h with
  | @inside code m n h hn =>
    rw [← hcode] at h
    obtain ⟨m, rfl, hnext⟩ := h.pos
    exact ⟨m + 10, by omega, .inside (hnext _) (Nat.le_refl _)⟩
  | head hn =>
    cases hcode
    refine ⟨8, by omega, ?_⟩
    show TurnCosts (if (!console.running) = true then _ else _) 8
    rw [hstop]
    exact .ended (Nat.le_refl 8)
  | ended hn => cases hcode

/-- At the head of its pass the receiver thread finds the flag clear. -/
theorem PassCosts.call {o : ReceiverOp} {k : o.Resp → ReceiverProg Bool} {r : o.Resp} {n : Nat}
    (hstop : s.console.running = false) (hp : s.hear o = some (r, s')) (h : PassCosts (.call o k) n) :
    ∃ m, m < n ∧ PassCosts (k r) m := by
  generalize hcode : Prog.call o k = code at h
  cases h with
  | @inside code m n h hn =>
    rw [← hcode] at h
    obtain ⟨m, rfl, hnext⟩ := h.pos
    exact ⟨m + 4, by omega, .inside (hnext _) (Nat.le_refl _)⟩
  | head hn =>
    cases hcode
    cases hp
    refine ⟨2, by omega, ?_⟩
    show PassCosts (if (!s.console.running) = true then _ else _) 2
    rw [hstop]
    exact .ended (Nat.le_refl 2)
  | ended hn => cases hcode

/-- Every step pays, when the flag is clear. -/
theorem remains_step {l : ClientLabel} {n : Nat} (hs : Step s l s')
    (hstop : s.console.running = false)
    (h : Holds g s) (hcourse : OnCourse g s.pc) (hn : Remains s n) :
    s'.console.running = false ∧ ∃ m, m < n ∧ Remains s' m := by
  obtain ⟨a, b, ha, hb, hab⟩ := hn
  cases hs with
  | failure hpc =>
    rw [hpc] at ha
    obtain ⟨-, m, -, hm⟩ := ha
    exact ⟨hstop, b, by omega, 0, b, trivial, hb, by omega⟩
  | loop hpc =>
    rw [hpc] at ha
    obtain ⟨hloop, m, -, hm⟩ := ha
    refine ⟨hstop, 11 + b, by omega, 11, b, ?_, hb, by omega⟩
    show TurnCosts s.console.code 11
    rw [hloop]
    exact .inside (m := 1) (fun _ => Prog.within_ret _ _) (by omega)
  | noThread hpc =>
    rw [hpc] at ha
    obtain ⟨-, m, -, hm⟩ := ha
    exact ⟨hstop, 6 + b, by omega, 6, b, ⟨5, within_clientDisconnect, by omega⟩, hb, by omega⟩
  | start hpc hp =>
    rw [hpc] at ha hcourse
    obtain ⟨hloop, m, hm, hma⟩ := ha
    obtain ⟨m, rfl, hnext⟩ := hm.pos
    have hconsole := (perform_console hp).1
    have hcosts := h.perform_costs hcourse.1 hp hb
    refine ⟨by rw [← hstop, ← hconsole], m + 12 + b, by omega, m + 12, b, ?_, hcosts, by omega⟩
    refine ⟨?_, m, hnext _, by omega⟩
    rw [← hloop, ← hconsole]
  | returned hpc hr =>
    rw [hpc, hr] at ha
    refine ⟨hstop, 7 + b, ?_, 7, b, ⟨6, fun _ => within_clientDisconnect, by omega⟩, hb, by omega⟩
    cases ha with
    | inside h hn => omega
    | ended hn => omega
  | pass hpc hcode =>
    rw [hpc, hcode] at ha
    refine ⟨hstop, 9 + b, ?_, 9, b, ?_, hb, by omega⟩
    · cases ha with
      | inside h hn => omega
    · show MainCosts inputTurn s.pc 9
      rw [hpc]
      exact .head (by omega)
  | @input ok fd o k hpc hcode =>
    rw [hpc, hcode] at ha
    obtain ⟨m, hm, hnext⟩ := @TurnCosts.call s.console ok _ _ _ hstop ha
    refine ⟨console_running hstop, m + b, by omega, m, b, ?_, hb, Nat.le_refl _⟩
    show MainCosts (k (s.console.perform ok o).1) s.pc m
    rw [hpc]
    exact hnext
  | exit hpc =>
    rw [hpc] at ha
    obtain ⟨m, -, hm⟩ := ha
    exact ⟨hstop, b, by omega, 0, b, trivial, hb, by omega⟩
  | leave hpc hp =>
    rw [hpc] at ha hcourse
    obtain ⟨m, hm, hma⟩ := ha
    obtain ⟨m, rfl, hnext⟩ := hm.pos
    have hconsole := (perform_console hp).1
    have hcosts := h.perform_costs hcourse.1 hp hb
    refine ⟨by rw [← hstop, ← hconsole], m + 1 + b, by omega, m + 1, b, ?_, hcosts, by omega⟩
    exact ⟨m, hnext _, by omega⟩
  | again hr =>
    rw [hr] at hb
    refine ⟨hstop, a + 3, ?_, a, 3, ha, .head (Nat.le_refl 3), Nat.le_refl _⟩
    cases hb with
    | inside h hn => omega
  | ended hr =>
    rw [hr] at hb
    refine ⟨hstop, a + 1, ?_, a, 1, ha, Nat.le_refl 1, Nat.le_refl _⟩
    cases hb with
    | inside h hn => omega
    | ended hn => omega
  | @hear t o k r hr hp =>
    rw [hr] at hb
    obtain ⟨m, hm, hnext⟩ := hb.call hstop hp
    obtain ⟨hconsole, hpc, -⟩ := hear_console hp
    refine ⟨by rw [← hstop, ← hconsole], a + m, by omega, a, m, ?_, hnext, Nat.le_refl _⟩
    show MainCosts t.console.code t.pc a
    rw [hconsole, hpc]
    exact ha
  | stop hr =>
    rw [hr] at hb
    have hb : 1 ≤ b := hb
    exact ⟨rfl, a, by omega, a, 0, ha, trivial, Nat.le_refl _⟩

/-! ## The price of every state -/

/-- The code that the two threads stand in is a part of a pass. -/
structure Bounded (s : Client) : Prop where
  main : match s.pc with
    | .starting code => code.Within 12 ∧ s.console.code = inputLoop
    | .looping => s.console.code.Within 6
    | .leaving code => code.Within 6
    | .exited _ => True
  receiver : ∀ code, s.receiver = .looping code → code.Within 4

theorem bounded_init : Bounded (clientSystem argv stdin eof network closes).init where
  main := ⟨within_clientMain argv, rfl⟩
  receiver _ h := nomatch h

theorem perform_bounded {ok : Bool} {fd : Nat} {o : MainOp} {r : o.Resp}
    (hp : s.perform ok fd o = some (r, s'))
    (h : ∀ code, s.receiver = .looping code → code.Within 4) :
    ∀ code, s'.receiver = .looping code → code.Within 4 := by
  intro code hcode
  rcases perform_receiver hp with hsame | ⟨-, hnew⟩
  · exact h code (hsame.symm.trans hcode)
  · rw [hnew] at hcode
    cases hcode
    exact within_receiverTurn

theorem bounded_step {l : ClientLabel} (hs : Step s l s') (h : Bounded s) : Bounded s' := by
  obtain ⟨hmain, hreceiver⟩ := h
  cases hs with
  | failure hpc => exact ⟨trivial, hreceiver⟩
  | loop hpc =>
    rw [hpc] at hmain
    refine ⟨?_, hreceiver⟩
    show s.console.code.Within 6
    rw [hmain.2]
    exact fun _ => Prog.within_ret _ _
  | noThread hpc => exact ⟨within_clientDisconnect.mono (by decide), hreceiver⟩
  | start hpc hp =>
    rw [hpc] at hmain
    have hthread := perform_bounded hp hreceiver
    refine ⟨⟨hmain.1.next _, ?_⟩, hthread⟩
    rw [← hmain.2, ← (perform_console hp).1]
  | returned hpc hr => exact ⟨fun _ => within_clientDisconnect, hreceiver⟩
  | pass hpc hcode =>
    refine ⟨?_, hreceiver⟩
    dsimp only
    rw [hpc]
    exact within_inputTurn
  | @input ok fd o k hpc hcode =>
    rw [hpc] at hmain
    refine ⟨?_, hreceiver⟩
    dsimp only at hmain ⊢
    rw [hpc]
    rw [hcode] at hmain
    exact hmain.next _
  | exit hpc => exact ⟨trivial, hreceiver⟩
  | leave hpc hp =>
    rw [hpc] at hmain
    have hthread := perform_bounded hp hreceiver
    exact ⟨hmain.next _, hthread⟩
  | again hr =>
    refine ⟨hmain, fun code hcode => ?_⟩
    cases hcode
    exact within_receiverTurn
  | ended hr => exact ⟨hmain, fun code hcode => nomatch hcode⟩
  | hear hr hp =>
    obtain ⟨hconsole, hpc, -⟩ := hear_console hp
    refine ⟨?_, fun code hcode => ?_⟩
    · dsimp only
      rw [hconsole, hpc]
      exact hmain
    · cases hcode
      exact (hreceiver _ hr).next _
  | stop hr => exact ⟨hmain, fun code hcode => nomatch hcode⟩

/-- A price for every state. -/
theorem Bounded.remains (h : Bounded s) : Remains s 32 := by
  obtain ⟨hmain, hreceiver⟩ := h
  refine ⟨24, 8, ?_, ?_, Nat.le_refl _⟩
  · cases hpc : s.pc with
    | starting code =>
      rw [hpc] at hmain
      exact ⟨hmain.2, 12, hmain.1, Nat.le_refl _⟩
    | looping =>
      rw [hpc] at hmain
      exact .inside hmain (by omega)
    | leaving code =>
      rw [hpc] at hmain
      exact ⟨6, hmain, by omega⟩
    | exited success => trivial
  · cases hr : s.receiver with
    | notCreated => show 3 ≤ 8; omega
    | looping code => exact .inside (hreceiver code hr) (Nat.le_refl _)
    | stopping => show 1 ≤ 8; omega
    | done => trivial

/-! ## Where a run cannot go on -/

/-- `main` waits in `recv` itself, for what it registers with. -/
def Registering (s : Client) : Prop := s.pc.At .recvLine ∧ receive s.closes s.network = none

/-- The input loop waits in `fgets`, and the receiver thread has ended or waits as well. -/
def Reading (s : Client) : Prop :=
  s.pc = .looping ∧ s.inputWaits = true ∧ (s.receiver = .done ∨ s.Listening)

/-- `main` waits for the receiver thread, which waits in `recv`. -/
def Joining (s : Client) : Prop := s.pc.At .join ∧ s.Listening

instance (s : Client) : Decidable s.Joining := inferInstanceAs (Decidable (_ ∧ _))

/-- The receiver thread takes a step, or it is not there, or it waits. -/
theorem receiver_moves (s : Client) :
    s.receiverStep ≠ none ∨ s.receiver = .notCreated ∨ s.receiver = .done ∨ s.Listening := by
  cases hr : s.receiver with
  | notCreated => exact .inr (.inl rfl)
  | looping code =>
    cases code with
    | ret more =>
      left
      cases more <;> simp [receiverStep, hr]
    | call o k =>
      cases hp : s.hear o with
      | some p => exact .inl (by simp [receiverStep, hr, hp])
      | none =>
        cases o with
        | running | shows => cases hp
        | recvLine =>
          refine .inr (.inr (.inr ⟨?_, Option.map_eq_none_iff.1 hp⟩))
          rw [hr]
          rfl
  | stopping => exact .inl (by simp [receiverStep, hr, Console.step])
  | done => exact .inr (.inr (.inl rfl))

theorem Listening.receiverStep (h : s.Listening) : s.receiverStep = none := by
  obtain ⟨k, hr⟩ := h.1.eq
  simp only [Client.receiverStep, hr, hear, h.2, Option.map_none]

/-- The receiver thread cannot go on. -/
def Idle (s : Client) : Prop := s.receiver = .notCreated ∨ s.receiver = .done ∨ s.Listening

theorem idle_iff : s.Idle ↔ s.receiverStep = none := by
  constructor
  · rintro (hr | hr | hr)
    · simp only [receiverStep, hr]
    · simp only [receiverStep, hr]
    · exact hr.receiverStep
  · intro hnone
    exact (receiver_moves s).resolve_left fun hne => hne hnone

/-- A call of `main` that does not return. -/
theorem perform_none {ok : Bool} {fd : Nat} {o : MainOp} (h : s.perform ok fd o = none) :
    o = .recvLine ∧ receive s.closes s.network = none ∨ o = .join ∧ s.receiver ≠ .done := by
  cases o with
  | recvLine => exact .inl ⟨rfl, Option.map_eq_none_iff.1 h⟩
  | join =>
    refine .inr ⟨rfl, fun hdone => ?_⟩
    simp only [perform, hdone] at h
    cases h
  | socket => cases ok <;> cases h
  | _ => cases h

/-- The input loop takes a step, or it waits. -/
theorem looping_moves {ok : Bool} {fd : Nat} (hpc : s.pc = .looping)
    (h : s.step (.main ok fd) = none) : s.inputWaits = true := by
  simp only [step, mainStep, hpc] at h
  cases hcode : s.console.code with
  | ret r =>
    cases r with
    | none => simpa [Console.result, Console.step, hcode] using h
    | some r => simp [Console.result, hcode] at h
  | call o k => simpa [Console.result, Console.step, hcode] using h

/-- Where `main` is at an operation, the operation is what it waits for. -/
theorem main_none {ok : Bool} {fd : Nat} (h : s.step (.main ok fd) = none) :
    (∃ success, s.pc = .exited success) ∨ s.pc = .looping ∨
      ∃ o, s.pc.At o ∧ s.perform ok fd o = none := by
  cases hpc : s.pc with
  | starting code | leaving code =>
    cases code with
    | ret r =>
      cases r
      all_goals
        simp only [step, mainStep, hpc] at h
        cases h
    | call o k =>
      simp only [step, mainStep, hpc, Option.map_eq_none_iff] at h
      exact .inr (.inr ⟨o, rfl, h⟩)
  | looping => exact .inr (.inl rfl)
  | exited success => exact .inl ⟨success, rfl⟩

theorem main_stuck {ok : Bool} {fd : Nat} {o : MainOp} (hat : s.pc.At o)
    (h : s.perform ok fd o = none) : s.step (.main ok fd) = none := by
  cases hpc : s.pc with
  | starting code | leaving code =>
    rw [hpc] at hat
    cases code with
    | ret r => cases hat
    | call o' k =>
      obtain rfl : o' = o := hat
      simp only [step, mainStep, hpc, h, Option.map_none]
  | looping | exited =>
    rw [hpc] at hat
    cases hat

theorem OnCourse.allows {pc : ClientPc} {o : MainOp} (h : OnCourse g pc) (hat : pc.At o) :
    g.Allows o := by
  cases pc with
  | starting code | leaving code =>
    cases code with
    | ret r => cases hat
    | call o' k =>
      obtain rfl : o' = o := hat
      exact h.1
  | looping | exited => cases hat

/-- A run cannot go on at its end, or where the process waits for what is outside. -/
theorem stuck_iff (h : Holds g s) (hcourse : OnCourse g s.pc) :
    (∀ l, s.step l = none) ↔
      (∃ success, s.pc = .exited success) ∨ s.Registering ∨ s.Reading ∨ s.Joining := by
  constructor
  · intro hstuck
    have hidle : s.Idle := idle_iff.2 (hstuck .receiver)
    have hmain := hstuck (.main true 0)
    rcases main_none hmain with hexit | hpc | ⟨o, hat, hnone⟩
    · exact .inl hexit
    · rw [hpc] at hcourse
      have halive : g = ⟨.alive, .alive, .running, true⟩ := hcourse
      have hcreated := (h.running (by rw [halive])).1
      exact .inr (.inr (.inl ⟨hpc, looping_moves hpc hmain, hidle.resolve_left hcreated⟩))
    · rcases perform_none hnone with ⟨rfl, hrecv⟩ | ⟨rfl, hdone⟩
      · exact .inr (.inl ⟨hat, hrecv⟩)
      · have hcreated := (h.running (hcourse.allows hat)).1
        exact .inr (.inr (.inr ⟨hat, (hidle.resolve_left hcreated).resolve_left hdone⟩))
  · have hboth : (∀ ok fd, s.step (.main ok fd) = none) → s.Idle → ∀ l, s.step l = none := by
      rintro hmain hidle (⟨ok, fd⟩ | -)
      · exact hmain ok fd
      · exact idle_iff.1 hidle
    rintro (⟨success, hpc⟩ | ⟨hat, hrecv⟩ | ⟨hpc, hwaits, hr⟩ | ⟨hat, hr⟩)
    · rw [hpc] at hcourse
      refine hboth (fun ok fd => by simp only [step, mainStep, hpc]) ?_
      cases hthread : g.thread with
      | notCreated => exact .inl (h.notCreated hthread)
      | running => exact absurd hthread hcourse.1.2.2
      | joined => exact .inr (.inl (h.joined hthread))
    · refine hboth (fun ok fd => main_stuck hat ?_) (.inl (h.notCreated (hcourse.allows hat).2))
      simp only [perform, hrecv, Option.map_none]
    · refine hboth (fun ok fd => ?_) (.inr hr)
      have hresult : s.console.result = none := by
        unfold Console.result
        unfold inputWaits at hwaits
        split at hwaits
        · rename_i hcode
          rw [hcode]
        · cases hwaits
      simp only [step, mainStep, hpc, hresult, hwaits, if_true]
    · refine hboth (fun ok fd => main_stuck hat ?_) (.inr (.inr hr))
      obtain ⟨k, hk⟩ := hr.1.eq
      simp only [perform, hk]

/-- The flag is set before there is a receiver thread. -/
theorem running_reach (h : (clientSystem argv stdin eof network closes).Reach s) :
    s.receiver = .notCreated → s.console.running = true := by
  apply System.Reach.invariant (P := fun s => s.receiver = .notCreated → s.console.running = true)
    (fun _ => rfl) _ h
  intro s l s' hreach hs hstep hnone
  have hperform : ∀ {ok fd o r t}, s.perform ok fd o = some (r, t) → t.receiver = .notCreated →
      t.console.running = true := by
    intro ok fd o r t hp hnone
    rcases perform_receiver hp with hsame | ⟨-, hnew⟩
    · rw [(perform_console hp).1]
      exact hs (hsame ▸ hnone)
    · rw [hnew] at hnone
      cases hnone
  cases step_cases hstep with
  | start hpc hp | leave hpc hp =>
    have hset := hperform hp hnone
    exact hset
  | @input ok fd o k hpc hcode =>
    obtain ⟨g, hg, hcourse⟩ := holds_reach hreach
    rw [hpc] at hcourse
    have halive : g = ⟨.alive, .alive, .running, true⟩ := hcourse
    exact absurd hnone (hg.running (by rw [halive])).1
  | again | ended | hear | stop => cases hnone
  | failure | loop | noThread | returned | pass | exit => exact hs hnone

theorem bounded_reach (h : (clientSystem argv stdin eof network closes).Reach s) : Bounded s := by
  apply System.Reach.invariant bounded_init _ h
  intro s l s' _ hs hstep
  exact bounded_step (step_cases hstep) hs

/-- Every step of a run pays, and the flag stays clear. -/
theorem Remains.run {n : Nat} {ls : List ClientLabel} (hn : Remains s n)
    (h : (clientSystem argv stdin eof network closes).Reach s) (hstop : s.console.running = false)
    (hrun : (clientSystem argv stdin eof network closes).run s ls = some s') :
    ls.length ≤ n ∧ s'.console.running = false := by
  induction ls generalizing s n with
  | nil =>
    cases hrun
    exact ⟨Nat.zero_le n, hstop⟩
  | cons l ls ih =>
    rw [System.run] at hrun
    split at hrun
    · cases hrun
    · rename_i s₁ hstep
      obtain ⟨g, hg, hcourse⟩ := holds_reach h
      obtain ⟨hstop₁, m, hm, hrest⟩ := remains_step (step_cases hstep) hstop hg hcourse hn
      obtain ⟨hle, hstop'⟩ := ih hrest (h.step hstep) hstop₁ hrun
      refine ⟨?_, hstop'⟩
      rw [List.length_cons]
      omega

/-- Where the user ends the input and the peer the connection, nobody waits for them. -/
theorem not_waiting (heof : s.eof = true) (hcloses : s.closes = true) :
    ¬ s.Reading ∧ ¬ s.Listening := by
  constructor
  · rintro ⟨-, hwaits, -⟩
    unfold inputWaits at hwaits
    split at hwaits
    · simp [heof] at hwaits
    · cases hwaits
  · rintro ⟨-, hnone⟩
    unfold receive at hnone
    rw [hcloses] at hnone
    split at hnone
    all_goals cases hnone

/-- A user who leaves a server that does not answer her any more. -/
def silentSession : System Client ClientLabel :=
  clientSystem [ascii "ana", ascii "10.0.0.1", ascii "5000"] (ascii "/quit\n") false
    (bytesIn (ascii "WELCOME|CHAT/1.0\nREGISTER_OK|ana|10.0.0.7|ACTIVO\n")) false

/-- Her session up to the moment in which the flag is cleared. -/
def silentQuit : List ClientLabel :=
  List.replicate 12 (.main true 3) ++ .receiver :: List.replicate 6 (.main true 3)

end Client

end ChatMultithread
