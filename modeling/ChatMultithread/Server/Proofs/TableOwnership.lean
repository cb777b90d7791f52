import ChatMultithread.Server.Proofs.Ownership

/-!
# The session table as its threads see it

What the simulation says about a reachable state, in the terms of the server: which slot a
thread holds, that no other thread takes it away, and that descriptors are closed once.
-/

namespace ChatMultithread

open Lib Lib.HandleTable

namespace Server

/-- The thread has not executed the critical section of `sessions_remove_by_sockfd` yet. -/
def Holding (t : Thread) : Prop :=
  match t.pc with
  | .start | .welcome | .loop | .receiving | .handling _ | .removing => True
  | .closing _ | .done => False

instance (t : Thread) : Decidable (Holding t) :=
  match h : t.pc with
  | .start | .welcome | .loop | .receiving | .handling _ | .removing =>
      isTrue (by simp [Holding, h])
  | .closing _ | .done => isFalse (by simp [Holding, h])

/-- The connection has a session in the table. -/
def Live (s : Server) (c : Conn) : Prop :=
  ∃ i, (s.sessions i).isActive = true ∧ s.fds (s.sessions i).sockfd = some c

variable {x : Externs} {s s' : Server} {a : Lives} {c : Conn} {t : Thread}

namespace Tracks

/-- A thread that holds its slot is the owner of the descriptor in it. -/
theorem placed (h : Tracks s a) (ht : s.threads c = some t) (hold : Holding t) :
    a.stage c = .placed (s.sessions t.slot).sockfd t.slot := by
  have hst := h.thread c t ht
  cases hpc : t.pc <;> simp only [ThreadStage, Holding, hpc] at hst hold
  case start =>
    obtain ⟨fd, hst⟩ := hst
    rw [(h.sockfd_placed hst).2, hst]
  all_goals rw [(h.sockfd_placed hst).2, hst]

/-- Its local `sockfd` is that descriptor, once it has read it. -/
theorem sockfd_eq (h : Tracks s a) (ht : s.threads c = some t) (hold : Holding t)
    (hpc : t.pc ≠ .start) : (s.sessions t.slot).sockfd = t.sockfd := by
  have hst := h.thread c t ht
  cases hp : t.pc <;> simp only [ThreadStage, Holding, hp] at hst hold
  case start => exact absurd hp hpc
  all_goals exact (h.sockfd_placed hst).2

theorem placed_sockfd (h : Tracks s a) (ht : s.threads c = some t) (hold : Holding t)
    (hpc : t.pc ≠ .start) : a.stage c = .placed t.sockfd t.slot := by
  rw [← h.sockfd_eq ht hold hpc]
  exact h.placed ht hold

/-- Every live session is that of a connection that holds its slot. -/
theorem active_placed (h : Tracks s a) {i : Slot} (hi : (s.sessions i).isActive = true) :
    ∃ c, a.stage c = .placed (s.sessions i).sockfd i := by
  rw [← h.inv.slots_iff, h.slots, key_eq_some]
  exact ⟨hi, rfl⟩

end Tracks

/-- A step moves at most the thread its label names. -/
theorem threads_of_step (h : Tracks s a) {l : Label} (hs : Step x s l s')
    (ht : s.threads c = some t) (hl : ∀ choice, l ≠ .client c choice) :
    s'.threads c = some t := by
  cases hs with
  | create hpc =>
    rename_i fd d i
    obtain ⟨-, hnone⟩ := h.accept d (.placed fd i) (by rw [hpc]; rfl)
    have hcd : c ≠ d := by
      rintro rfl
      rw [ht] at hnone
      cases hnone
    exact (setThread_threads_ne _ _ _ hcd).trans ht
  | perform _ _ hop =>
    rename_i d _ _ _ _ _ _ s₁ _ _ _
    have hcd : c ≠ d := by
      rintro rfl
      exact hl _ rfl
    rw [setThread_threads_ne _ _ _ hcd, perform_frame hop]
    exact ht
  | start | welcomeFailed | turn | line | hangup | continue_ | break_ | remove | removeInvalid
  | removeMissing | close =>
    rw [setThread_threads_ne _ _ _ (by rintro rfl; exact hl _ rfl)]
    exact ht
  | welcome =>
    rw [setThread_threads_ne _ _ _ (by rintro rfl; exact hl _ rfl), deliver_threads]
    exact ht
  | notify =>
    rw [deliver_threads]
    exact ht
  | acceptMove | connection | addFull | add | reject | findNone | find | createFailed
  | undoMissing | undo | undoInvalid | undoClose | store | tick | monitorMove | signal => exact ht

/-- Its own steps leave a thread at its slot, and only the removal lets go of it. -/
theorem own_step {choice : ClientChoice} (hs : Step x s (.client c choice) s')
    (ht : s.threads c = some t) :
    ∃ t', s'.threads c = some t' ∧ t'.slot = t.slot ∧
      (Holding t → t.pc ≠ .removing → Holding t') := by
  cases hs with
  | start ht' hpc | welcome ht' hpc | welcomeFailed ht' hpc | line ht' hpc | hangup ht' hpc
  | perform ht' hpc | continue_ ht' hpc | break_ ht' hpc =>
    obtain rfl := Option.some.inj (ht.symm.trans ht')
    exact ⟨_, setThread_threads_self _ _ _, rfl, fun _ _ => trivial⟩
  | turn ht' hpc hto =>
    obtain rfl := Option.some.inj (ht.symm.trans ht')
    refine ⟨_, setThread_threads_self _ _ _, rfl, fun _ _ => ?_⟩
    rcases hto with ⟨-, rfl⟩ | ⟨-, rfl⟩ <;> trivial
  | remove ht' hpc | removeInvalid ht' hpc | removeMissing ht' hpc =>
    obtain rfl := Option.some.inj (ht.symm.trans ht')
    exact ⟨_, setThread_threads_self _ _ _, rfl, fun _ hne => absurd hpc hne⟩
  | close ht' hpc =>
    obtain rfl := Option.some.inj (ht.symm.trans ht')
    refine ⟨_, setThread_threads_self _ _ _, rfl, fun hold _ => ?_⟩
    simp [Holding, hpc] at hold

/-- While a thread holds its slot, a step leaves the descriptor of its session as it is. -/
theorem sockfd_of_step (hx : x.KeepsSlots) (h : Tracks s a) {l : Label} (hs : Step x s l s')
    {t' : Thread} (ht : s.threads c = some t) (hold : Holding t) (ht' : s'.threads c = some t')
    (hold' : Holding t') (hslot : t'.slot = t.slot) :
    (s'.sessions t.slot).isActive = true ∧
      (s'.sessions t.slot).sockfd = (s.sessions t.slot).sockfd := by
  obtain ⟨a', hsteps, h'⟩ := tracks_step hx h hs
  have hplaced := h.placed ht hold
  have hplaced' := h'.placed ht' hold'
  have hkeep := placed_steps hsteps hplaced
  rw [hplaced', hslot] at hkeep
  have heq := hkeep.resolve_right (by simp)
  exact ⟨(h'.sockfd_placed (hslot ▸ hplaced')).1, (Stage.placed.inj heq).1⟩

/-! ## Live connections -/

/-- The live connections are those in their slots. -/
theorem live_iff (ha : Tracks s a) : Live s c ↔ ∃ fd i, a.stage c = .placed fd i := by
  constructor
  · rintro ⟨i, hi, hc⟩
    obtain ⟨d, hd⟩ := ha.active_placed hi
    obtain rfl : d = c := Option.some.inj ((ha.fds_placed hd).symm.trans hc)
    exact ⟨_, i, hd⟩
  · rintro ⟨fd, i, hc⟩
    obtain ⟨hi, rfl⟩ := ha.sockfd_placed hc
    exact ⟨i, hi, ha.fds_placed hc⟩

/-- A thread that has let go of its slot has none. -/
theorem gone_of_thread (ha : Tracks s a) (ht : s.threads c = some t) (hold : ¬ Holding t) :
    ∃ old, a.stage c = .cleared old ∨ a.stage c = .closed := by
  have hst := ha.thread c t ht
  cases hpc : t.pc <;> simp only [ThreadStage, Holding, hpc, not_true_eq_false] at hst hold
  · exact ⟨_, .inl hst⟩
  · exact ⟨0, .inr hst⟩

theorem not_live_of_thread (ha : Tracks s a) (ht : s.threads c = some t) (hold : ¬ Holding t) :
    ¬ Live s c := by
  intro hlive
  obtain ⟨fd, i, hc⟩ := (live_iff ha).1 hlive
  obtain ⟨old, h | h⟩ := gone_of_thread ha ht hold <;> rw [hc] at h <;> cases h

/-- A connection with a thread is live only if it was before. -/
theorem live_of_step (hx : x.KeepsSlots) (ha : Tracks s a) {l : Label} (hs : Step x s l s')
    (ht : s.threads c = some t) (hlive : Live s' c) : Live s c := by
  obtain ⟨a', hsteps, ha'⟩ := tracks_step hx ha hs
  obtain ⟨fd, i, hc'⟩ := (live_iff ha').1 hlive
  by_cases hold : Holding t
  · exact (live_iff ha).2 ⟨_, _, ha.placed ht hold⟩
  · obtain ⟨old, hgone⟩ := gone_of_thread ha ht hold
    rcases gone_steps hsteps hgone with h | h <;> rw [hc'] at h <;> cases h

/-- The session table belongs to the threads that use it. In every reachable state: live
    sessions have distinct descriptors, none of them negative; a thread that has not removed its
    session finds it live in its slot, with the descriptor that is its connection's, and no step
    but its own removal clears the slot or puts another session there; the accept loop finds
    the session it has added in the slot it filled and never misses it; and a descriptor is
    closed at most once for the connection it was accepted for, while it is that connection's. -/
theorem table_owned (hx : x.KeepsSlots) {timeout : Int}
    (hs : (serverSystem x timeout).Reach s) :
    ((∀ i, (s.sessions i).isActive = true → 0 ≤ (s.sessions i).sockfd) ∧
      ∀ i j, (s.sessions i).isActive = true → (s.sessions j).isActive = true →
        (s.sessions i).sockfd = (s.sessions j).sockfd → i = j) ∧
    (∀ c t, s.threads c = some t → Holding t →
      (s.sessions t.slot).isActive = true ∧ s.fds (s.sessions t.slot).sockfd = some c ∧
      (t.pc ≠ .start → (s.sessions t.slot).sockfd = t.sockfd) ∧
      ∀ l s', s.step x l = some s' → (t.pc ≠ .removing ∨ ∀ choice, l ≠ .client c choice) →
        (s'.sessions t.slot).isActive = true ∧
          (s'.sessions t.slot).sockfd = (s.sessions t.slot).sockfd) ∧
    ((∀ fd c filled, s.accept = .finding fd c filled →
        sessionsFindBySockfd s.sessions fd = some filled) ∧
      ∀ fd c, s.accept ≠ .slotMissing fd c) ∧
    ∀ c, (closesOf c s.log).length ≤ 1 ∧ ∀ owner ∈ closesOf c s.log, owner = some c := by
  obtain ⟨a, h⟩ := tracks_reach hx hs
  refine ⟨⟨fun i hi => ?_, fun i j hi hj hij => ?_⟩, fun c t ht hold => ?_, ⟨?_, h.reached⟩,
    fun c => ?_⟩
  · obtain ⟨c, hc⟩ := h.active_placed hi
    exact h.nonneg _ c (h.fds_placed hc)
  · obtain ⟨c, hc⟩ := h.active_placed hi
    exact ((h.onlyAt hc j).1 ⟨hj, hij.symm⟩).symm
  · have hc := h.placed ht hold
    refine ⟨(h.sockfd_placed hc).1, h.fds_placed hc, h.sockfd_eq ht hold, fun l s' hl hkeep => ?_⟩
    have hstep := step_cases hl
    by_cases hown : ∃ choice, l = .client c choice
    · obtain ⟨choice, rfl⟩ := hown
      obtain ⟨t', ht', hslot, hhold⟩ := own_step hstep ht
      have hpc := hkeep.resolve_right fun hne => hne choice rfl
      exact sockfd_of_step hx h hstep ht hold ht' (hhold hold hpc) hslot
    · have hne : ∀ choice, l ≠ .client c choice := fun choice e => hown ⟨choice, e⟩
      exact sockfd_of_step hx h hstep ht hold (threads_of_step h hstep ht hne) hold rfl
  · intro fd c filled hpc
    obtain ⟨hst, -⟩ := h.accept c (.placed fd filled) (by rw [hpc]; rfl)
    exact h.find_placed hst
  · rw [h.closes c]
    cases a.stage c <;> simp [closesIn]

/-- Two clients come, the first one leaves, and the third one gets its descriptor and its slot, up
    to the lookup of the slot. -/
def slotFilledAgain : List Label :=
  connects 4 ++ turns 0 3 ++ connects 5 ++ turns 1 3 ++ [.client 0 .hangup] ++ turns 0 2 ++
  (connects 4).take 3

theorem table_owned_slotFilledAgain :
    ∃ s t, (serverSystem managerExterns 60).Reach s ∧ s.accept = .finding 4 2 0 ∧
      sessionsFindBySockfd s.sessions 4 = some 0 ∧
      (s.threads 1 = some t ∧ t.slot = 1 ∧ (s.sessions t.slot).isActive = true ∧
        s.fds (s.sessions t.slot).sockfd = some 1) ∧
      closesOf 0 s.log ≠ [] ∧ (closesOf 0 s.log).length ≤ 1 := by
  obtain ⟨s, hs, hp⟩ := System.exists_reach_of_run (S := serverSystem managerExterns 60)
    slotFilledAgain
    (fun s => decide (s.accept = .finding 4 2 0 ∧ closesOf 0 s.log ≠ [] ∧
      ∃ t ∈ s.threads 1, t.slot = 1 ∧ Holding t))
    (by decide +kernel)
  obtain ⟨hpc, hclosed, t, ht, hslot, hold⟩ := of_decide_eq_true hp
  obtain ⟨-, hthreads, ⟨hfinding, -⟩, hcloses⟩ := table_owned managerExterns_keepsSlots hs
  obtain ⟨hactive, howner, -, -⟩ := hthreads 1 t ht hold
  exact ⟨s, t, hs, hpc, hfinding 4 2 0 hpc, ⟨ht, hslot, hactive, howner⟩, hclosed, (hcloses 0).1⟩

end Server

end ChatMultithread
