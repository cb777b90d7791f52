import ChatMultithread.Server.Proofs.Log

/-!
# Nothing is left behind

Who owns an open descriptor or a filled slot is known from the table's ownership; here it is shown
that the owner is still there to give it back. A connection that has been accepted is in the hands
of the accept loop, or its thread is on its way to the `close`, or the `close` has been called. So
a server whose threads have ended holds nothing, and a connection is turned away for want of a slot
only when every slot is that of a client being served.
-/

namespace ChatMultithread

open Lib Lib.HandleTable

namespace Server

variable {x : Externs} {s s' : Server} {a a' : Lives} {c d : Conn} {t : Thread} {fd : Int}

/-- Somebody is still at work for the connection. -/
def Attended (s : Server) (c : Conn) : Prop :=
  (∃ stage, acceptStage s.accept = some (c, stage)) ∨ ∃ t, s.threads c = some t ∧ t.pc ≠ .done

theorem closesOf_append (c : Conn) (new past : List Event) :
    closesOf c (new ++ past) = closesOf c new ++ closesOf c past :=
  List.filterMap_append

/-- One `close` is all there is. -/
theorem Tracks.closed_of_ne (h : Tracks s a) (hc : closesOf c s.log ≠ []) :
    closesOf c s.log = [some c] := by
  rw [h.closes] at hc ⊢
  cases hst : a.stage c with
  | closed => rfl
  | fresh | opened _ | placed _ _ | cleared _ =>
    rw [hst] at hc
    exact absurd rfl hc

/-- What has been closed stays so. -/
theorem closed_of_step (h' : Tracks s' a') {l : Label} (hs : Step x s l s')
    (hc : closesOf c s.log = [some c]) : closesOf c s'.log = [some c] := by
  obtain ⟨new, hlog, -⟩ := log_of_step hs
  apply h'.closed_of_ne
  rw [hlog, closesOf_append, hc]
  simp

/-- The accept loop lets go of its connection by closing it or by handing it to its thread. -/
theorem attended_of_accept (h : Tracks s a) (h' : Tracks s' a') {l : Label} (hs : Step x s l s')
    {stage : Stage Slot Int} (hc : acceptStage s.accept = some (c, stage)) :
    closesOf c s'.log = [some c] ∨ Attended s' c := by
  have hkeep : s'.accept = s.accept → closesOf c s'.log = [some c] ∨ Attended s' c := by
    intro haccept
    exact .inr (.inl ⟨stage, by rw [haccept, hc]⟩)
  have hclosed : ∀ owner, .closed c owner ∈ s'.log → closesOf c s'.log = [some c] := by
    intro owner hmem
    apply h'.closed_of_ne
    apply List.ne_nil_of_mem (a := owner)
    exact List.mem_filterMap.2 ⟨_, hmem, by simp⟩
  cases hs with
  | reject hpc | undoClose hpc =>
    rw [hpc] at hc
    cases hc
    exact .inl (hclosed _ List.mem_cons_self)
  | create hpc =>
    rw [hpc] at hc
    cases hc
    exact .inr (.inr ⟨_, setThread_threads_self _ _ _, by simp⟩)
  | addFull hpc | add hpc | find hpc | createFailed hpc =>
    rw [hpc] at hc
    cases hc
    exact .inr (.inl ⟨_, rfl⟩)
  | undo hpc =>
    obtain ⟨j, hpc⟩ := hpc.resolve_left (h.reached _ _)
    rw [hpc] at hc
    cases hc
    exact .inr (.inl ⟨_, rfl⟩)
  | acceptMove hfrom =>
    rcases hfrom with hpc | hpc <;> rw [hpc] at hc <;> cases hc
  | connection hpc | store hpc =>
    rw [hpc] at hc
    cases hc
  | findNone hpc hfind =>
    obtain ⟨hst, -⟩ := h.accept _ (.placed _ _) (by rw [hpc]; rfl)
    rw [h.find_placed hst] at hfind
    cases hfind
  | undoMissing hpc hfind =>
    obtain ⟨i, hpc⟩ := hpc.resolve_left (h.reached _ _)
    obtain ⟨hst, -⟩ := h.accept _ (.placed _ i) (by rw [hpc]; rfl)
    rw [h.find_placed hst] at hfind
    cases hfind
  | undoInvalid hpc hfind hfd =>
    obtain ⟨j, hpc⟩ := hpc.resolve_left (h.reached _ _)
    obtain ⟨hst, -⟩ := h.accept _ (.placed _ j) (by rw [hpc]; rfl)
    obtain rfl := Option.some.inj ((h.find_placed hst).symm.trans hfind)
    exact absurd hfd (h.not_neg_placed hst)
  | perform ht hpc hop =>
    apply hkeep
    rw [setThread_accept, perform_frame hop]
  | welcome | notify => exact hkeep (by simp)
  | start | welcomeFailed | turn | line | hangup | continue_ | break_ | remove | removeInvalid
  | removeMissing | close | tick | monitorMove | signal => exact hkeep rfl

/-- A thread ends by closing its connection. -/
theorem attended_of_thread (h : Tracks s a) (h' : Tracks s' a') {l : Label} (hs : Step x s l s')
    (ht : s.threads c = some t) (hpc : t.pc ≠ .done) :
    closesOf c s'.log = [some c] ∨ Attended s' c := by
  by_cases hown : ∃ choice, l = .client c choice
  · obtain ⟨choice, rfl⟩ := hown
    cases hs with
    | start ht' hpc' | welcome ht' hpc' | welcomeFailed ht' hpc' | line ht' hpc' | hangup ht' hpc'
    | perform ht' hpc' | continue_ ht' hpc' | break_ ht' hpc' | remove ht' hpc' =>
      exact .inr (.inr ⟨_, setThread_threads_self _ _ _, by simp⟩)
    | turn ht' hpc' hto =>
      refine .inr (.inr ⟨_, setThread_threads_self _ _ _, ?_⟩)
      rcases hto with ⟨-, rfl⟩ | ⟨-, rfl⟩ <;> simp
    | removeInvalid ht' hpc' hfind hfd =>
      have hst := h.placed_removing ht' hpc'
      obtain rfl := Option.some.inj ((h.find_placed hst).symm.trans hfind)
      exact absurd hfd (h.not_neg_placed hst)
    | removeMissing ht' hpc' hfind =>
      rw [h.find_placed (h.placed_removing ht' hpc')] at hfind
      cases hfind
    | close ht' hpc' =>
      refine .inl (h'.closed_of_ne ?_)
      simp
  · have hkeep := threads_of_step h hs ht fun choice e => hown ⟨choice, e⟩
    exact .inr (.inr ⟨t, hkeep, hpc⟩)

/-- Every accepted connection is attended or closed. -/
theorem attended_step (h : Tracks s a) (h' : Tracks s' a') {l : Label} (hs : Step x s l s')
    (hall : ∀ c < s.nextConn, closesOf c s.log = [some c] ∨ Attended s c) :
    ∀ c < s'.nextConn, closesOf c s'.log = [some c] ∨ Attended s' c := by
  intro c hc
  by_cases hold : c < s.nextConn
  · rcases hall c hold with hclosed | ⟨stage, haccept⟩ | ⟨t, ht, hpc⟩
    · exact .inl (closed_of_step h' hs hclosed)
    · exact attended_of_accept h h' hs haccept
    · exact attended_of_thread h h' hs ht hpc
  · have hnext : s'.nextConn = s.nextConn ∨ ∃ fd session, s'.nextConn = s.nextConn + 1 ∧
        s'.accept = .adding fd s.nextConn session := by
      cases hs with
      | connection => exact .inr ⟨_, _, rfl, rfl⟩
      | perform ht hpc hop => exact .inl (by rw [setThread_nextConn, perform_frame hop])
      | welcome | notify => exact .inl (by simp)
      | start | welcomeFailed | turn | line | hangup | continue_ | break_ | remove | removeInvalid
      | removeMissing | close | acceptMove | addFull | add | reject | findNone | find | create
      | createFailed | undoMissing | undo | undoInvalid | undoClose | store | tick | monitorMove
      | signal => exact .inl rfl
    rcases hnext with hnext | ⟨fd, session, hnext, haccept⟩
    · rw [hnext] at hc
      exact absurd hc hold
    · rw [hnext] at hc
      obtain rfl : c = s.nextConn := Nat.le_antisymm (Nat.le_of_lt_succ hc) (Nat.le_of_not_lt hold)
      exact .inr (.inl ⟨.opened fd, by rw [haccept]; rfl⟩)

theorem attended_reach (hx : x.KeepsSlots) {timeout : Int}
    (hs : (serverSystem x timeout).Reach s) :
    ∃ a, Tracks s a ∧ ∀ c < s.nextConn, closesOf c s.log = [some c] ∨ Attended s c := by
  refine hs.invariant (P := fun s => ∃ a, Tracks s a ∧
    ∀ c < s.nextConn, closesOf c s.log = [some c] ∨ Attended s c) ?_ ?_
  · exact ⟨_, tracks_init timeout, fun c hc => absurd hc (Nat.not_lt_zero c)⟩
  · rintro s l s' - ⟨a, ha, hall⟩ hl
    obtain ⟨a', -, ha'⟩ := tracks_step hx ha (step_cases hl)
    exact ⟨a', ha', attended_step ha ha' (step_cases hl) hall⟩

/-- An open descriptor is that of an attended connection. -/
theorem attended_of_open (ha : Tracks s a)
    (hall : ∀ c < s.nextConn, closesOf c s.log = [some c] ∨ Attended s c)
    (hfd : s.fds fd = some c) : Attended s c := by
  rw [← ha.owner, ha.inv.owner_iff] at hfd
  have hlt : c < s.nextConn := by
    by_contra hge
    rw [ha.fresh c (Nat.le_of_not_lt hge)] at hfd
    cases hfd
  refine (hall c hlt).resolve_left fun hclosed => ?_
  rw [ha.closes] at hclosed
  cases hst : a.stage c with
  | fresh | closed =>
    rw [hst] at hfd
    cases hfd
  | opened _ | placed _ _ | cleared _ =>
    rw [hst] at hclosed
    cases hclosed

/-- A live session is that of a thread that holds it, or of the connection that the accept loop has
    in hand. -/
theorem attended_slot (ha : Tracks s a)
    (hall : ∀ c < s.nextConn, closesOf c s.log = [some c] ∨ Attended s c) {i : Slot}
    (hi : (s.sessions i).isActive = true) :
    (∃ c, acceptStage s.accept = some (c, .placed (s.sessions i).sockfd i)) ∨
      ∃ c t, s.threads c = some t ∧ Holding t ∧ t.slot = i := by
  obtain ⟨c, hc⟩ := ha.active_placed hi
  rcases attended_of_open ha hall (ha.fds_placed hc) with ⟨stage, haccept⟩ | ⟨t, ht, hpc⟩
  · obtain ⟨hst, -⟩ := ha.accept c stage haccept
    rw [hc] at hst
    subst hst
    exact .inl ⟨c, haccept⟩
  · have hst := ha.thread c t ht
    rw [hc] at hst
    refine .inr ⟨c, t, ht, ?_⟩
    cases hp : t.pc <;> simp only [ThreadStage, Holding, hp] at hst ⊢
    case start =>
      obtain ⟨fd, hst⟩ := hst
      cases hst
      exact ⟨trivial, rfl⟩
    case closing | done => cases hst
    all_goals exact ⟨trivial, (Stage.placed.inj hst).2.symm⟩

/-- Nothing is left behind. In every reachable state a connection that has been accepted is closed,
    once, or the accept loop has it in hand, or its thread has not ended; only connections that are
    attended in this way hold open descriptors and slots. So when the accept loop has none in hand
    and all threads have ended, nothing is open and the table is empty. -/
theorem nothing_leaks (hx : x.KeepsSlots) {timeout : Int}
    (hs : (serverSystem x timeout).Reach s) :
    (∀ c < s.nextConn, closesOf c s.log = [some c] ∨ Attended s c) ∧
    (∀ fd c, s.fds fd = some c → Attended s c) ∧
    (∀ i, (s.sessions i).isActive = true →
      (∃ c fd, acceptStage s.accept = some (c, .placed fd i)) ∨
        ∃ c t, s.threads c = some t ∧ Holding t ∧ t.slot = i) ∧
    (acceptStage s.accept = none → (∀ c t, s.threads c = some t → t.pc = .done) →
      (∀ fd, s.fds fd = none) ∧ (∀ i, (s.sessions i).isActive = false) ∧
        ∀ c < s.nextConn, closesOf c s.log = [some c]) := by
  obtain ⟨a, ha, hall⟩ := attended_reach hx hs
  refine ⟨hall, fun fd c => attended_of_open ha hall, fun i hi => ?_, fun hidle hended => ?_⟩
  · rcases attended_slot ha hall hi with ⟨c, hc⟩ | h
    · exact .inl ⟨c, _, hc⟩
    · exact .inr h
  · have hnobody : ∀ c, ¬ Attended s c := by
      rintro c (⟨stage, haccept⟩ | ⟨t, ht, hpc⟩)
      · rw [hidle] at haccept
        cases haccept
      · exact hpc (hended c t ht)
    refine ⟨fun fd => ?_, fun i => ?_, fun c hc => (hall c hc).resolve_right (hnobody c)⟩
    · cases hfd : s.fds fd with
      | none => rfl
      | some c => exact absurd (attended_of_open ha hall hfd) (hnobody c)
    · by_contra hi
      obtain ⟨c, hc⟩ := ha.active_placed (Bool.eq_true_of_not_eq_false hi)
      exact hnobody c (attended_of_open ha hall (ha.fds_placed hc))

/-- A client comes and goes. -/
theorem nothing_leaks_visit :
    ∃ s, (serverSystem managerExterns 60).run (serverInit 60)
        (connects 4 ++ turns 0 3 ++ writes 0 "QUIT\n" 6) = some s ∧
      ∀ c < s.nextConn, closesOf c s.log = [some c] ∨ Attended s c := by
  have hrun : ((serverSystem managerExterns 60).run (serverInit 60)
      (connects 4 ++ turns 0 3 ++ writes 0 "QUIT\n" 6)).isSome = true := by decide +kernel
  obtain ⟨s, hs⟩ := Option.isSome_iff_exists.1 hrun
  exact ⟨s, hs, (nothing_leaks managerExterns_keepsSlots (System.Reach.init.run hs)).1⟩

/-- A client is turned away exactly when every slot is that of another client's thread, which has
    not removed its session yet. -/
theorem turned_away_iff (hx : x.KeepsSlots) {timeout : Int}
    (hs : (serverSystem x timeout).Reach s) {session : ClientSession}
    (hpc : s.accept = .adding fd c session) (hstep : s.step x (.acceptor .go) = some s') :
    s'.accept = .rejecting fd c ↔
      ∀ i : Slot, ∃ d t, d ≠ c ∧ s.threads d = some t ∧ Holding t ∧ t.slot = i := by
  obtain ⟨a, ha, hall⟩ := attended_reach hx hs
  obtain ⟨-, hnone⟩ := ha.accept c (.opened fd) (by rw [hpc]; rfl)
  have hfull : s'.accept = .rejecting fd c ↔ ∀ i, (s.sessions i).isActive = true := by
    simp only [Server.step, hpc, acceptorStep] at hstep
    cases hadd : sessionsAdd s.sessions session with
    | none =>
      rw [hadd] at hstep
      cases hstep
      have hactive := firstSlot_eq_none.1 (Option.map_eq_none_iff.1 hadd)
      exact iff_of_true rfl fun i => by simpa using hactive i
    | some p =>
      rw [hadd] at hstep
      cases hstep
      obtain ⟨i, hi, rfl⟩ := Option.map_eq_some_iff.1 hadd
      refine iff_of_false (by simp) fun hall => ?_
      have hfree := firstSlot_eq_some hi
      simp [hall i] at hfree
  rw [hfull]
  apply forall_congr'
  intro i
  constructor
  · intro hi
    rcases attended_slot ha hall hi with ⟨d, haccept⟩ | ⟨d, t, ht, hold, hslot⟩
    · rw [hpc] at haccept
      cases haccept
    · refine ⟨d, t, ?_, ht, hold, hslot⟩
      rintro rfl
      rw [hnone] at ht
      cases ht
  · rintro ⟨d, t, -, ht, hold, rfl⟩
    exact (ha.sockfd_placed (ha.placed ht hold)).1

/-- As many clients as the table has slots, and one more. -/
def oneTooMany : List Label :=
  (List.range maxClients).flatMap (fun n => connects (n + 4)) ++ (connects 200).take 2

/-- All slots are found to be taken, and the last client is turned away. -/
theorem turned_away_last :
    ∃ s s', (serverSystem managerExterns 60).Reach s ∧
      s.step managerExterns (.acceptor .go) = some s' ∧ s'.accept = .rejecting 200 64 ∧
      ∀ i : Slot, ∃ d t, d ≠ 64 ∧ s.threads d = some t ∧ Holding t ∧ t.slot = i := by
  obtain ⟨s, hs, hp⟩ := System.exists_reach_of_run (S := serverSystem managerExterns 60) oneTooMany
    (fun s => decide (s.accept = .adding 200 64 (newSession 200 ⟨127, 0, 0, 1⟩ 0) ∧
      (s.step managerExterns (.acceptor .go)).map Server.accept = some (.rejecting 200 64)))
    (by decide +kernel)
  obtain ⟨hpc, hrejects⟩ := of_decide_eq_true hp
  obtain ⟨s', hstep, hrejecting⟩ := Option.map_eq_some_iff.1 hrejects
  exact ⟨s, s', hs, hstep, hrejecting,
    (turned_away_iff managerExterns_keepsSlots hs hpc hstep).1 hrejecting⟩

end Server

end ChatMultithread
