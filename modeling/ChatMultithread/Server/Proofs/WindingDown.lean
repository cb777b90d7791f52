import Mathlib.Algebra.BigOperators.Group.Finset.Piecewise
import ChatMultithread.Server.Proofs.Shutdown
import ChatMultithread.Server.Proofs.Ticks

/-!
# Winding down

When `g_server_running` is clear, nobody but the environment keeps a thread of the server going: a
client is listened to once more at most, one connection more is taken in at most, and the number
of all the steps that are left is bounded by the threads there are.

A line costs a bounded number of operations, whatever they answer; so every place in the code of a
thread has a price, which is the number of steps to the end of the thread, and every step pays.
-/

namespace ChatMultithread

open Lib

/-! ## The price of a line -/

theorem within_sendIgnored (fd : Int) (buf : Bytes) : (sendIgnored fd buf).Within 1 :=
  fun _ => Prog.within_ret _ _

theorem within_handlerOf (msg : ParsedMessage) : (handlerOf msg).Within 6 := by
  have hreply : ∀ (n : Nat) (fd : Int) (buf : Bytes), (sendIgnored fd buf).Within (n + 1) :=
    fun n fd buf => (within_sendIgnored fd buf).mono (Nat.succ_le_succ (Nat.zero_le n))
  unfold handlerOf
  split
  · rw [handleRegister_eq]
    intro fd
    split
    · exact hreply _ _ _
    · intro exists_
      dsimp only
      split
      · exact hreply _ _ _
      · exact fun _ addr => hreply _ _ _
  · rw [handleList_eq]
    exact fun users fd => hreply _ _ _
  · rw [handleInfo_eq]
    intro fd exists_
    dsimp only
    split
    · exact hreply _ _ _
    · intro info
      dsimp only
      split <;> exact hreply _ _ _
  · rw [handleStatus_eq]
    intro fd
    split
    · exact hreply _ _ _
    · exact fun _ _ _ _ _ => Prog.within_ret _ _
  · rw [handleMsg_eq]
    intro fd dstFd
    dsimp only
    split
    · exact hreply _ _ _
    · exact fun _ _ => hreply _ _ _
  · rw [handleBroadcast_eq]
    exact fun fd username _ => hreply _ _ _
  · rw [handleQuit_eq]
    exact fun fd => hreply _ _ _
  · exact fun fd => hreply _ _ _

theorem within_lineBody (fd : Int) (line : Bytes) : (lineBody fd line).Within 6 := by
  unfold lineBody
  split
  · exact fun _ => Prog.within_ret _ _
  split
  · exact fun _ => Prog.within_ret _ _
  split
  · exact fun r => r.elim
  split
  · exact fun _ => Prog.within_ret _ _
  · exact (within_handlerOf _).bind (n := 0) fun _ => Prog.within_ret _ _

/-- No line takes more than eight operations. -/
theorem within_clientLine (fd : Int) {line : Bytes} (hlen : line.length < maxMsg) :
    (clientLine fd line).Within 8 := by
  have hactivity : (updateSessionActivity fd).Within 2 := by
    rw [updateSessionActivity_eq]
    intro session
    cases session with
    | none => exact Prog.within_ret _ _
    | some slot => exact fun _ => Prog.within_ret _ _
  rw [clientLine_eq fd hlen]
  exact hactivity.bind (n := 6) fun _ => within_lineBody fd line

namespace Server

/-! ## The price of a place in the code -/

/-- A thread at this place takes at most `n` steps more when the server is to stop. -/
def Costs : ThreadPc → Nat → Prop
  | .done, _ => True
  | .closing _, n => 1 ≤ n
  | .removing, n => 2 ≤ n
  | .loop, n => 3 ≤ n
  | .handling code, n => ∃ m, code.Within m ∧ m + 4 ≤ n
  | .welcome, n => 4 ≤ n
  | .start, n => 5 ≤ n
  | .receiving, n => 13 ≤ n

/-- And so many the accept loop, with those of a thread that it has still to start. -/
def acceptCost : AcceptPc → Nat
  | .done => 0
  | .top => 1
  | .closing _ _ | .rejecting _ _ | .storing _ _ => 2
  | .slotMissing _ _ | .createFailed _ _ _ => 3
  | .creating _ _ _ => 8
  | .finding _ _ _ => 9
  | .adding _ _ _ => 10
  | .accepting => 11

def monitorCost : MonitorPc → Nat
  | .done => 0
  | .tick => 1
  | .sending pending => pending.length + 2

/-- The connection that the accept loop works on. -/
def inHand : AcceptPc → Option Conn
  | .top | .accepting | .storing _ _ | .done => none
  | .adding _ c _ | .rejecting _ c | .finding _ c _ | .slotMissing _ c | .creating _ c _
  | .createFailed _ c _ | .closing _ c => some c

/-- All connections that somebody works on have their numbers, and nobody has more in hand than a
    line takes, or a table. -/
structure Numbered (s : Server) : Prop where
  threads : ∀ c t, s.threads c = some t → c < s.nextConn
  inHand : ∀ c, inHand s.accept = some c → c < s.nextConn
  within : ∀ c t code, s.threads c = some t → t.pc = .handling code → code.Within 8
  pending : ∀ ns, s.monitor = .sending ns → ns.length ≤ maxClients

/-- The steps that are left: each thread has its share, and at most `n` there are altogether. -/
def Remains (s : Server) (n : Nat) : Prop :=
  ∃ share : Conn → Nat, (∀ c t, s.threads c = some t → Costs t.pc (share c)) ∧
    (∑ c ∈ Finset.range s.nextConn, share c) + acceptCost s.accept + monitorCost s.monitor ≤ n

variable {x : Externs} {s s' : Server} {l : Label}

/-! ## Steps of the client threads -/

/-- The thread of `c` has moved, and nobody else. -/
structure Moves (s : Server) (c : Conn) (t t' : Thread) (s' : Server) : Prop where
  thread : s.threads c = some t
  threads : s'.threads = Function.update s.threads c (some t')
  nextConn : s'.nextConn = s.nextConn
  accept : s'.accept = s.accept
  monitor : s'.monitor = s.monitor
  running : s'.running = s.running
  within : (∀ code, t.pc = .handling code → code.Within 8) →
    ∀ code, t'.pc = .handling code → code.Within 8
  pays : s.running = false → ∀ n, Costs t.pc n → ∃ m < n, Costs t'.pc m

/-- A step that besides the thread touches the table, the descriptors and the log at most. -/
theorem moves_setThread {c : Conn} {t t' : Thread} {s₁ : Server} (ht : s.threads c = some t)
    (hframe : s₁ = { s with sessions := s₁.sessions, fds := s₁.fds, log := s₁.log })
    (hwithin : (∀ code, t.pc = .handling code → code.Within 8) →
      ∀ code, t'.pc = .handling code → code.Within 8)
    (hpays : s.running = false → ∀ n, Costs t.pc n → ∃ m < n, Costs t'.pc m) :
    Moves s c t t' (s₁.setThread c t') := by
  rw [hframe]
  exact ⟨ht, rfl, rfl, rfl, rfl, rfl, hwithin, hpays⟩

/-- A thread that goes where it handles no line, and pays a fixed price there. -/
theorem moves_to {c : Conn} {t t' : Thread} {s₁ : Server} (ht : s.threads c = some t)
    (hframe : s₁ = { s with sessions := s₁.sessions, fds := s₁.fds, log := s₁.log })
    (hpc : ∀ code, t'.pc ≠ .handling code) (m : Nat) (hcosts : Costs t'.pc m)
    (hpays : s.running = false → ∀ n, Costs t.pc n → m < n) :
    Moves s c t t' (s₁.setThread c t') := by
  refine moves_setThread ht hframe (fun _ code hcode => absurd hcode (hpc code)) ?_
  exact fun hstop n hn => ⟨m, hpays hstop n hn, hcosts⟩

theorem moves_line {c : Conn} {t : Thread} {raw : Bytes} (ht : s.threads c = some t)
    (hpc : t.pc = .receiving) (hraw : IsFrame msgTerminatorChar (maxLineLen - 1) raw) :
    Moves s c t { t with pc := .handling (clientLine t.sockfd (cstr raw)) }
      ({ s with log := .received c (cstr raw) :: s.log }.setThread c
        { t with pc := .handling (clientLine t.sockfd (cstr raw)) }) := by
  have hwithin : (clientLine t.sockfd (cstr raw)).Within 8 :=
    within_clientLine _ (length_cstr_frame hraw)
  refine moves_setThread ht rfl (fun _ code hcode => ?_) fun _ n hn => ?_
  · cases hcode
    exact hwithin
  · rw [hpc] at hn
    exact ⟨12, hn, 8, hwithin, Nat.le_refl 12⟩

theorem moves_perform {c : Conn} {t : Thread} {now : Int} {sent : Bool} {o : Op}
    {k : o.Resp → ServerProg LoopExit} {r : o.Resp} {s₁ : Server}
    {target : Option (Int × Option Conn)} (ht : s.threads c = some t)
    (hpc : t.pc = .handling (.call o k)) (hop : s.perform x c t now sent o = some (r, s₁, target)) :
    Moves s c t { t with pc := .handling (k r), target := target }
      (s₁.setThread c { t with pc := .handling (k r), target := target }) := by
  have hframe := perform_frame hop
  refine moves_setThread ht (by rw [hframe]) (fun hwithin code hcode => ?_) fun _ n hn => ?_
  · cases hcode
    obtain ⟨m, hm, hk⟩ := (hwithin _ hpc).pos
    exact (hk r).mono (by omega)
  · rw [hpc] at hn
    obtain ⟨m, hm, hle⟩ := hn
    obtain ⟨m, rfl, hk⟩ := hm.pos
    exact ⟨m + 4, by omega, m, hk r, Nat.le_refl _⟩

theorem moves_of_step {c : Conn} {choice : ClientChoice} (hs : Step x s (.client c choice) s') :
    ∃ t t', Moves s c t t' s' := by
  cases hs with
  | line ht hpc hraw => exact ⟨_, _, moves_line ht hpc hraw⟩
  | perform ht hpc hop => exact ⟨_, _, moves_perform ht hpc hop⟩
  | start ht hpc =>
    refine ⟨_, _, moves_to ht rfl (by simp) 4 (Nat.le_refl 4) fun _ n hn => ?_⟩
    rw [hpc] at hn
    exact hn
  | @welcome _ t now ht hpc =>
    obtain ⟨log, hlog⟩ := s.deliver_eq (.client c) (some c) t.sockfd (ascii "WELCOME|CHAT/1.0\n")
    refine ⟨_, _, moves_to ht (by rw [hlog]) (by simp) 3 (Nat.le_refl 3) fun _ n hn => ?_⟩
    rw [hpc] at hn
    exact hn
  | welcomeFailed ht hpc =>
    refine ⟨_, _, moves_to ht rfl (by simp) 2 (Nat.le_refl 2) fun _ n hn => ?_⟩
    rw [hpc] at hn
    exact Nat.lt_of_succ_lt hn
  | turn ht hpc hto =>
    rcases hto with ⟨hrun, rfl⟩ | ⟨-, rfl⟩
    · -- the loop goes on only while the server runs
      refine ⟨_, _, moves_to ht rfl (by simp) 13 (Nat.le_refl 13) fun hstop _ _ => ?_⟩
      rw [hstop] at hrun
      cases hrun
    · refine ⟨_, _, moves_to ht rfl (by simp) 2 (Nat.le_refl 2) fun _ n hn => ?_⟩
      rw [hpc] at hn
      exact hn
  | hangup ht hpc =>
    refine ⟨_, _, moves_to ht rfl (by simp) 2 (Nat.le_refl 2) fun _ n hn => ?_⟩
    rw [hpc] at hn
    exact Nat.lt_of_lt_of_le (by decide) hn
  | continue_ ht hpc =>
    refine ⟨_, _, moves_to ht rfl (by simp) 3 (Nat.le_refl 3) fun _ n hn => ?_⟩
    rw [hpc] at hn
    obtain ⟨m, -, hle⟩ := hn
    omega
  | break_ ht hpc =>
    refine ⟨_, _, moves_to ht rfl (by simp) 2 (Nat.le_refl 2) fun _ n hn => ?_⟩
    rw [hpc] at hn
    obtain ⟨m, -, hle⟩ := hn
    omega
  | remove ht hpc =>
    refine ⟨_, _, moves_to ht rfl (by simp) 1 (Nat.le_refl 1) fun _ n hn => ?_⟩
    rw [hpc] at hn
    exact hn
  | removeInvalid ht hpc | removeMissing ht hpc =>
    refine ⟨_, _, moves_to ht rfl (by simp) 0 trivial fun _ n hn => ?_⟩
    rw [hpc] at hn
    exact Nat.lt_of_succ_lt hn
  | close ht hpc =>
    refine ⟨_, _, moves_to ht rfl (by simp) 0 trivial fun _ n hn => ?_⟩
    rw [hpc] at hn
    exact hn

theorem Moves.numbered {c : Conn} {t t' : Thread} (h : Moves s c t t' s') (hnum : Numbered s) :
    Numbered s' where
  threads d u hu := by
    rw [h.threads, Function.update_apply] at hu
    rw [h.nextConn]
    split at hu
    · rename_i hd
      rw [hd]
      exact hnum.threads c t h.thread
    · exact hnum.threads d u hu
  inHand d hd := by
    rw [h.accept] at hd
    rw [h.nextConn]
    exact hnum.inHand d hd
  within d u code hu hcode := by
    rw [h.threads, Function.update_apply] at hu
    split at hu
    · cases hu
      exact h.within (fun code => hnum.within c t code h.thread) code hcode
    · exact hnum.within d u code hu hcode
  pending ns hns := by
    rw [h.monitor] at hns
    exact hnum.pending ns hns

theorem sum_update {n : Nat} {f : Conn → Nat} {c : Conn} (hc : c < n) (m : Nat) :
    (∑ d ∈ Finset.range n, Function.update f c m d) + f c = (∑ d ∈ Finset.range n, f d) + m := by
  have hmem := Finset.mem_range.2 hc
  rw [Finset.sum_update_of_mem hmem, Finset.sum_eq_add_sum_sdiff_singleton_of_mem hmem f]
  omega

theorem Moves.remains {c : Conn} {t t' : Thread} (h : Moves s c t t' s') (hnum : Numbered s)
    (hstop : s.running = false) {n : Nat} (hn : Remains s n) : ∃ m < n, Remains s' m := by
  obtain ⟨share, hshare, hsum⟩ := hn
  obtain ⟨m, hm, hcosts⟩ := h.pays hstop _ (hshare c t h.thread)
  have hupdate := sum_update (f := share) (hnum.threads c t h.thread) m
  refine ⟨(∑ d ∈ Finset.range s.nextConn, Function.update share c m d) + acceptCost s.accept +
    monitorCost s.monitor, by omega, Function.update share c m, fun d u hu => ?_, ?_⟩
  · rw [h.threads, Function.update_apply] at hu
    rw [Function.update_apply]
    split at hu
    · rename_i hd
      cases hu
      rw [if_pos hd]
      exact hcosts
    · rename_i hd
      rw [if_neg hd]
      exact hshare d u hu
  · rw [h.nextConn, h.accept, h.monitor]

/-! ## Steps of the accept loop and of the monitor -/

/-- A step of somebody else leaves the threads alone. -/
theorem Numbered.move (h : Numbered s) (hthreads : s'.threads = s.threads)
    (hnext : s'.nextConn = s.nextConn)
    (hinHand : ∀ c, Server.inHand s'.accept = some c → Server.inHand s.accept = some c)
    (hpending : ∀ ns, s'.monitor = .sending ns → ns.length ≤ maxClients) : Numbered s' where
  threads c t ht := by
    rw [hthreads] at ht
    rw [hnext]
    exact h.threads c t ht
  inHand c hc := by
    rw [hnext]
    exact h.inHand c (hinHand c hc)
  within c t code ht := by
    rw [hthreads] at ht
    exact h.within c t code ht
  pending := hpending

/-- A thread is started for a connection that has a number. -/
theorem Numbered.create (h : Numbered s) {fd : Int} {c : Conn} {i : Slot}
    (hpc : s.accept = .creating fd c i) :
    Numbered { s.setThread c ⟨i, 0, .start, none⟩ with accept := .storing i c } where
  threads d t ht := by
    by_cases hd : d = c
    · subst hd
      exact h.inHand d (by rw [hpc]; rfl)
    · simp only [setThread, Function.update_of_ne hd] at ht
      exact h.threads d t ht
  inHand d hd := by cases hd
  within d t code ht hcode := by
    by_cases hd : d = c
    · subst hd
      simp only [setThread, Function.update_self, Option.some.injEq] at ht
      subst ht
      cases hcode
    · simp only [setThread, Function.update_of_ne hd] at ht
      exact h.within d t code ht hcode
  pending := h.pending

theorem numbered_step (h : Numbered s) (hs : Step x s l s') : Numbered s' := by
  cases l with
  | client c choice =>
    obtain ⟨t, t', hmoves⟩ := moves_of_step hs
    exact hmoves.numbered h
  | acceptor choice =>
    cases hs with
    | acceptMove hfrom hto =>
      refine h.move rfl rfl (fun c hc => ?_) h.pending
      rcases hto with rfl | rfl | rfl <;> cases hc
    | connection hpc hfd hfree =>
      exact {
        threads := fun c t ht => Nat.lt_succ_of_lt (h.threads c t ht)
        inHand := fun c hc => by
          cases hc
          exact Nat.lt_succ_self _
        within := h.within
        pending := h.pending }
    | create hpc => exact h.create hpc
    | addFull hpc | add hpc hfree | findNone hpc hfind | find hpc hfind | createFailed hpc =>
      refine h.move rfl rfl (fun c hc => ?_) h.pending
      rw [hpc]
      exact hc
    | undo hpc hfind hfd =>
      refine h.move rfl rfl (fun c hc => ?_) h.pending
      rcases hpc with hpc | ⟨i, hpc⟩ <;> rw [hpc] <;> exact hc
    | reject hpc | undoMissing hpc hfind | undoInvalid hpc hfind hfd | undoClose hpc | store hpc =>
      exact h.move rfl rfl (fun c hc => by cases hc) h.pending
  | monitor now sent =>
    cases hs with
    | tick hpc hrun hmark =>
      refine h.move rfl rfl (fun c hc => hc) fun ns hns => ?_
      cases hns
      rw [markLoop_finRange] at hmark
      cases hmark
      exact Nat.le_trans (List.length_filterMap_le _ _) (Nat.le_of_eq List.length_finRange)
    | monitorMove hmove =>
      refine h.move rfl rfl (fun c hc => hc) fun ns hns => ?_
      rcases hmove with ⟨-, -, rfl⟩ | ⟨-, rfl⟩ | ⟨n, rest, hpc, rfl⟩
      · cases hns
      · cases hns
      · cases hns
        exact Nat.le_of_succ_le (h.pending _ hpc)
    | notify hpc hfd =>
      refine h.move (by simp) (by simp) (fun c hc => by simpa using hc) fun ns hns => ?_
      cases hns
      exact Nat.le_of_succ_le (h.pending _ hpc)
  | signal =>
    cases hs
    exact h.move rfl rfl (fun c hc => hc) h.pending

theorem numbered_reach {timeout : Int} (h : (serverSystem x timeout).Reach s) : Numbered s := by
  refine System.Reach.invariant ?_ ?_ h
  · exact {
      threads := fun c t ht => by cases ht
      inHand := fun c hc => by cases hc
      within := fun c t code ht => by cases ht
      pending := fun ns hns => by cases hns }
  · intro s l s' _ hnum hs
    exact numbered_step hnum (step_cases hs)

theorem acceptCost_le (pc : AcceptPc) : acceptCost pc ≤ 11 := by
  cases pc <;> simp [acceptCost]

/-- Nothing that a thread has to do costs more than to receive a line. -/
theorem Numbered.costs (h : Numbered s) {c : Conn} {t : Thread} (ht : s.threads c = some t) :
    Costs t.pc 13 := by
  cases hpc : t.pc with
  | handling code => exact ⟨8, h.within c t code ht hpc, Nat.le_succ 12⟩
  | done => trivial
  | start | welcome | loop | receiving | removing | closing _ => simp [Costs]

/-- In numbers: thirteen steps for every connection, and a hundred and some for the others. -/
theorem Numbered.remains (h : Numbered s) :
    Remains s (13 * s.nextConn + maxClients + 13) := by
  refine ⟨fun _ => 13, fun c t ht => h.costs ht, ?_⟩
  · have haccept := acceptCost_le s.accept
    have hmonitor : monitorCost s.monitor ≤ maxClients + 2 := by
      cases hpc : s.monitor with
      | tick | done => simp [monitorCost]
      | sending ns => exact Nat.add_le_add_right (h.pending ns hpc) 2
    rw [Finset.sum_const_nat (m := 13) fun _ _ => rfl, Finset.card_range]
    omega

/-- A step of the accept loop or of the monitor is taken out of their shares. -/
theorem Remains.move {n : Nat} (h : Remains s n) (hthreads : s'.threads = s.threads)
    (hnext : s'.nextConn = s.nextConn)
    (hpays : acceptCost s'.accept + monitorCost s'.monitor <
      acceptCost s.accept + monitorCost s.monitor) : ∃ m < n, Remains s' m := by
  obtain ⟨share, hshare, hsum⟩ := h
  refine ⟨(∑ c ∈ Finset.range s.nextConn, share c) + acceptCost s'.accept + monitorCost s'.monitor,
    by omega, share, fun c t ht => ?_, ?_⟩
  · rw [hthreads] at ht
    exact hshare c t ht
  · rw [hnext]

/-- A new connection has no thread yet. -/
theorem Remains.connection {n : Nat} (h : Remains s n) (hnum : Numbered s)
    (hthreads : s'.threads = s.threads) (hnext : s'.nextConn = s.nextConn + 1)
    (hmonitor : s'.monitor = s.monitor) (hpays : acceptCost s'.accept < acceptCost s.accept) :
    ∃ m < n, Remains s' m := by
  obtain ⟨share, hshare, hsum⟩ := h
  refine ⟨(∑ c ∈ Finset.range s.nextConn, share c) + acceptCost s'.accept + monitorCost s'.monitor,
    by rw [hmonitor]; omega, Function.update share s.nextConn 0, fun c t ht => ?_, ?_⟩
  · rw [hthreads] at ht
    rw [Function.update_of_ne (Nat.ne_of_lt (hnum.threads c t ht))]
    exact hshare c t ht
  · have hold : ∑ c ∈ Finset.range s.nextConn, Function.update share s.nextConn 0 c =
        ∑ c ∈ Finset.range s.nextConn, share c := by
      apply Finset.sum_congr rfl
      intro c hc
      rw [Function.update_of_ne (Nat.ne_of_lt (Finset.mem_range.1 hc))]
    rw [hnext, Finset.sum_range_succ, Function.update_self, hold, Nat.add_zero]

/-- A new thread has been paid for by the accept loop. -/
theorem Remains.create {n : Nat} (h : Remains s n) (hnum : Numbered s) {fd : Int} {c : Conn}
    {i : Slot} (hpc : s.accept = .creating fd c i) :
    ∃ m < n, Remains { s.setThread c ⟨i, 0, .start, none⟩ with accept := .storing i c } m := by
  obtain ⟨share, hshare, hsum⟩ := h
  have hupdate := sum_update (f := share) (hnum.inHand c (by rw [hpc]; rfl)) 5
  have hcost : acceptCost s.accept = 8 := by rw [hpc]; rfl
  refine ⟨(∑ d ∈ Finset.range s.nextConn, Function.update share c 5 d) + 2 + monitorCost s.monitor,
    by omega, Function.update share c 5, fun d t ht => ?_, Nat.le_refl _⟩
  by_cases hd : d = c
  · subst hd
    simp only [setThread, Function.update_self, Option.some.injEq] at ht
    subst ht
    rw [Function.update_self]
    exact Nat.le_refl 5
  · simp only [setThread, Function.update_of_ne hd] at ht
    rw [Function.update_of_ne hd]
    exact hshare d t ht

/-- At the top of its loop and behind `accept` the accept loop finds that it is to stop. -/
theorem accept_stops {choice : AcceptChoice} (hstop : s.running = false)
    (hfrom : s.accept = .top ∨ s.accept = .accepting)
    (hstep : s.step x (.acceptor choice) = some s') (hnext : s'.nextConn = s.nextConn) :
    s'.accept = .done := by
  rcases hfrom with hpc | hpc
  · cases choice with
    | go =>
      simp only [Server.step, hpc, acceptorStep, hstop, Bool.false_eq_true, if_false,
        Option.some.injEq] at hstep
      rw [← hstep]
    | connection fd addr now | error =>
      simp only [Server.step, hpc, acceptorStep] at hstep
      cases hstep
  · cases choice with
    | connection fd addr now =>
      simp only [Server.step, hpc, acceptorStep] at hstep
      split at hstep
      · cases hstep
        exact absurd hnext (Nat.succ_ne_self _)
      · cases hstep
    | error =>
      simp only [Server.step, hpc, acceptorStep, hstop, Bool.false_eq_true, if_false,
        Option.some.injEq] at hstep
      rw [← hstep]
    | go =>
      simp only [Server.step, hpc, acceptorStep] at hstep
      cases hstep

theorem monitor_frame {now : Int} {sent : Bool} (hs : Step x s (.monitor now sent) s') :
    s'.threads = s.threads ∧ s'.nextConn = s.nextConn ∧ s'.accept = s.accept := by
  cases hs with
  | tick | monitorMove => exact ⟨rfl, rfl, rfl⟩
  | notify => exact ⟨by simp, by simp, by simp⟩

/-- The monitor finishes its round and ends. -/
theorem monitor_pays {now : Int} {sent : Bool} (hstop : s.running = false)
    (hstep : s.step x (.monitor now sent) = some s') :
    monitorCost s'.monitor < monitorCost s.monitor := by
  simp only [Server.step] at hstep
  cases hpc : s.monitor with
  | tick =>
    simp only [hpc, monitorStep, hstop, Bool.false_eq_true, if_false, Option.some.injEq] at hstep
    rw [← hstep]
    exact Nat.zero_lt_one
  | done =>
    simp only [hpc, monitorStep] at hstep
    cases hstep
  | sending ns =>
    cases ns with
    | nil =>
      simp only [hpc, monitorStep, Option.some.injEq] at hstep
      rw [← hstep]
      exact Nat.lt_succ_self 1
    | cons n rest =>
      simp only [hpc, monitorStep] at hstep
      split at hstep
      · cases hstep
        exact Nat.lt_succ_self _
      · cases hstep
        exact Nat.lt_succ_self _

/-- Whoever takes a step has one less to take. -/
theorem Remains.step {n : Nat} (h : Remains s n) (hnum : Numbered s) (hstop : s.running = false)
    (hstep : s.step x l = some s') (hl : l ≠ .signal) : ∃ m < n, Remains s' m := by
  have hs := step_cases hstep
  cases l with
  | client c choice =>
    obtain ⟨t, t', hmoves⟩ := moves_of_step hs
    exact hmoves.remains hnum hstop h
  | acceptor choice =>
    cases hs with
    | acceptMove hfrom hto =>
      have hdone := accept_stops hstop hfrom hstep rfl
      refine h.move rfl rfl (Nat.add_lt_add_right ?_ _)
      rw [hdone]
      rcases hfrom with hpc | hpc <;> rw [hpc] <;> simp [acceptCost]
    | connection hpc hfd hfree =>
      refine h.connection hnum rfl rfl rfl ?_
      rw [hpc]
      exact Nat.lt_succ_self 10
    | create hpc => exact h.create hnum hpc
    | addFull hpc | add hpc hfree | findNone hpc hfind | find hpc hfind | createFailed hpc
    | reject hpc | undoClose hpc | store hpc =>
      refine h.move rfl rfl (Nat.add_lt_add_right ?_ _)
      rw [hpc]
      simp [acceptCost]
    | undo hpc hfind hfd | undoMissing hpc hfind | undoInvalid hpc hfind hfd =>
      refine h.move rfl rfl (Nat.add_lt_add_right ?_ _)
      rcases hpc with hpc | ⟨i, hpc⟩ <;> rw [hpc] <;> simp [acceptCost]
  | monitor now sent =>
    obtain ⟨hthreads, hnext, haccept⟩ := monitor_frame hs
    refine h.move hthreads hnext ?_
    rw [haccept]
    exact Nat.add_lt_add_left (monitor_pays hstop hstep) _
  | signal => exact absurd rfl hl

/-! ## Whole runs -/

/-- The flag stays clear. -/
theorem stopped_step (hstop : s.running = false) (hstep : s.step x l = some s') :
    s'.running = false := by
  by_cases hl : l = .signal
  · subst hl
    cases hstep
    rfl
  · rw [(step_globals hstep hl).1, hstop]

theorem Remains.run {timeout : Int} {n : Nat} {ls : List Label} (h : Remains s n)
    (hnum : Numbered s) (hstop : s.running = false)
    (hrun : (serverSystem x timeout).run s ls = some s') : ls.countP (· ≠ .signal) ≤ n := by
  induction ls generalizing s n with
  | nil => exact Nat.zero_le n
  | cons l ls ih =>
    rw [System.run] at hrun
    split at hrun
    · cases hrun
    · rename_i s₁ hsystem
      have hstep : s.step x l = some s₁ := hsystem
      have hnum₁ := numbered_step hnum (step_cases hstep)
      have hstop₁ := stopped_step hstop hstep
      by_cases hl : l = .signal
      · subst hl
        cases hstep
        have h₁ : Remains { s with running := false, serverSockfd := -1 } n := h
        rw [List.countP_cons_of_neg (by simp)]
        exact ih h₁ hnum₁ hstop₁ hrun
      · obtain ⟨m, hm, h₁⟩ := h.step hnum hstop hstep hl
        have hrest := ih h₁ hnum₁ hstop₁ hrun
        rw [List.countP_cons_of_pos (by simpa using hl)]
        omega

/-- The client is listened to. -/
def hears (c : Conn) : Label → Bool
  | .client d (.line _) => d == c
  | _ => false

/-- A connection is taken in. -/
def takesIn : Label → Bool
  | .acceptor (.connection _ _ _) => true
  | _ => false

/-- The thread of the client is at `recv_line`. -/
def Listening (c : Conn) (s : Server) : Prop := ∃ t, s.threads c = some t ∧ t.pc = .receiving

/-- No thread comes to `recv_line` any more: that would cost more than anything else. -/
theorem listening_step {c : Conn} (hnum : Numbered s) (hstop : s.running = false)
    (hs : Step x s l s') (h : Listening c s') : Listening c s ∧ hears c l = false := by
  obtain ⟨t', ht', hpc'⟩ := h
  cases l with
  | client d choice =>
    obtain ⟨t, t₁, hmoves⟩ := moves_of_step hs
    rw [hmoves.threads, Function.update_apply] at ht'
    split at ht'
    · cases ht'
      obtain ⟨m, hm, hcosts⟩ := hmoves.pays hstop 13 (hnum.costs hmoves.thread)
      rw [hpc'] at hcosts
      exact absurd hm (Nat.not_lt.2 hcosts)
    · rename_i hc
      refine ⟨⟨t', ht', hpc'⟩, ?_⟩
      cases choice <;> simp [hears, Ne.symm hc]
  | acceptor choice =>
    refine ⟨?_, rfl⟩
    cases hs with
    | @create fd d i hpc =>
      by_cases hc : c = d
      · subst hc
        simp only [setThread, Function.update_self, Option.some.injEq] at ht'
        subst ht'
        cases hpc'
      · simp only [setThread, Function.update_of_ne hc] at ht'
        exact ⟨t', ht', hpc'⟩
    | _ => exact ⟨t', ht', hpc'⟩
  | monitor now sent =>
    obtain ⟨hthreads, -⟩ := monitor_frame hs
    rw [hthreads] at ht'
    exact ⟨⟨t', ht', hpc'⟩, rfl⟩
  | signal =>
    cases hs
    exact ⟨⟨t', ht', hpc'⟩, rfl⟩

/-- Nor does the accept loop come to `accept`. -/
theorem accepting_step (hstop : s.running = false) (hstep : s.step x l = some s')
    (h : s'.accept = .accepting) : s.accept = .accepting ∧ takesIn l = false := by
  have hs := step_cases hstep
  cases l with
  | client c choice =>
    obtain ⟨t, t', hmoves⟩ := moves_of_step hs
    rw [hmoves.accept] at h
    exact ⟨h, rfl⟩
  | acceptor choice =>
    cases hs with
    | acceptMove hfrom hto =>
      rw [accept_stops hstop hfrom hstep rfl] at h
      cases h
    | _ => cases h
  | monitor now sent =>
    obtain ⟨-, -, haccept⟩ := monitor_frame hs
    rw [haccept] at h
    exact ⟨h, rfl⟩
  | signal =>
    cases hs
    exact ⟨h, rfl⟩

/-- Winding down: behind a signal every client is listened to once more at most, one connection more
    is taken in at most, and the steps of all threads together are bounded, in whatever order they
    are taken and whatever the clients and the sockets answer. -/
theorem winds_down (x : Externs) (timeout : Int) {ls : List Label}
    (h : (serverSystem x timeout).Reach s) (hstop : s.running = false)
    (hrun : (serverSystem x timeout).run s ls = some s') :
    (∀ c, ls.countP (hears c) ≤ 1) ∧ ls.countP takesIn ≤ 1 ∧
      ls.countP (· ≠ .signal) ≤ 13 * s.nextConn + maxClients + 13 := by
  have hnum := numbered_reach h
  have hkept : ∀ s l s', s.running = false ∧ Numbered s →
      (serverSystem x timeout).step s l = some s' → s'.running = false ∧ Numbered s' :=
    fun s l s' h hstep => ⟨stopped_step h.1 hstep, numbered_step h.2 (step_cases hstep)⟩
  refine ⟨fun c => ?_, ?_, hnum.remains.run hnum hstop hrun⟩
  · refine (System.countP_run_le_one (P := Listening c) hkept ?_ ?_ ⟨hstop, hnum⟩ hrun).1
    · intro s l s' _ hstep hl
      have hs : Step x s l s' := step_cases hstep
      unfold hears at hl
      split at hl
      · obtain rfl := beq_iff_eq.1 hl
        cases hs with
        | line ht hpc hraw => exact ⟨_, ht, hpc⟩
      · cases hl
    · intro s l s' h hstep
      exact listening_step h.2 h.1 (step_cases hstep)
  · refine (System.countP_run_le_one (P := fun s => s.accept = .accepting) hkept ?_ ?_
      ⟨hstop, hnum⟩ hrun).1
    · intro s l s' _ hstep hl
      have hs : Step x s l s' := step_cases hstep
      unfold takesIn at hl
      split at hl
      · cases hs with
        | connection hpc hfd hfree => exact hpc
        | acceptMove hfrom hto =>
          rcases hfrom with hpc | hpc
          · simp only [serverSystem, Server.step, hpc, acceptorStep] at hstep
            cases hstep
          · exact hpc
      · cases hl
    · intro s l s' h hstep
      exact accepting_step h.1 hstep

/-- A client whose thread was waiting for a line when the signal came gets its answer, and is
    closed: eight steps of the bound. -/
theorem winds_down_ping : ∃ s s', (serverSystem managerExterns 60).Reach s ∧ s.running = false ∧
    (serverSystem managerExterns 60).run s (writes 0 "PING\n" 7) = some s' ∧
      (∀ c, (writes 0 "PING\n" 7).countP (hears c) ≤ 1) ∧
      (writes 0 "PING\n" 7).countP takesIn ≤ 1 ∧
      (writes 0 "PING\n" 7).countP (· ≠ .signal) ≤ 13 * s.nextConn + maxClients + 13 := by
  obtain ⟨s, hs, htest⟩ := System.exists_reach_of_run (S := serverSystem managerExterns 60)
    (connects 4 ++ turns 0 3 ++ [.signal])
    (fun s => decide (s.running = false) &&
      ((serverSystem managerExterns 60).run s (writes 0 "PING\n" 7)).isSome) (by decide +kernel)
  obtain ⟨hstop, hrun⟩ := Bool.and_eq_true_iff.1 htest
  obtain ⟨s', hrun⟩ := Option.isSome_iff_exists.1 hrun
  have hstop := of_decide_eq_true hstop
  exact ⟨s, s', hs, hstop, hrun, winds_down managerExterns 60 hs hstop hrun⟩

end Server

end ChatMultithread
