import ChatMultithread.Server.Proofs.Status

/-!
# Idle periods

What the received lines and the ticks of the monitor do to one session that stays active and sends
no `STATUS`. The clock is whatever the events bring along; it may stand still or step back. What the
session remembers of its ticks is one bit, its status, and that is enough to notify it once.
-/

namespace ChatMultithread

open Lib

namespace Server

/-- What happens to a session: `update_session_activity` for a line of its own, and the ticks of the
    monitor. -/
inductive Beat where
  | line (now : Int)
  | tick (now : Int)
  deriving DecidableEq, Repr

/-- The times of the ticks since the last line, the newest in front. -/
def ticksSince : List Beat → List Int
  | [] => []
  | .line _ :: _ => []
  | .tick now :: past => now :: ticksSince past

/-- `Timeline timeout i beats sent t`: the session in slot `i`, which was not idle when it was
    accepted, has seen `beats`, the newest in front, was sent the notices `sent` since its last line,
    and stands in the table `t`. Between two events everything else in the table may change, and of
    the session itself what has nothing to do with its idleness. -/
inductive Timeline (timeout : Int) (i : Slot) : List Beat → List Notification → Sessions → Prop
  | accept {t : Sessions} (hactive : (t i).isActive = true) (hstatus : (t i).status ≠ .inactivo) :
      Timeline timeout i [] [] t
  | line {beats : List Beat} {sent : List Notification} {t : Sessions}
      (h : Timeline timeout i beats sent t) (now : Int) :
      Timeline timeout i (.line now :: beats) [] (Function.update t i (touched (t i) now))
  | tick {beats : List Beat} {sent : List Notification} {t : Sessions}
      (h : Timeline timeout i beats sent t) (now : Int) (fds : Int → Option Conn) :
      Timeline timeout i (.tick now :: beats)
        (sent ++ ((sessionMarkInactiveIfNeeded (t i) now timeout).map (noticeOf fds)).toList)
        (markLoop fds now timeout (List.finRange maxClients) t []).1
  | other {beats : List Beat} {sent : List Notification} {t t' : Sessions}
      (h : Timeline timeout i beats sent t) (hactive : (t' i).isActive = (t i).isActive)
      (hstatus : (t' i).status = (t i).status)
      (hactivity : (t' i).lastActivity = (t i).lastActivity) : Timeline timeout i beats sent t'

variable {fds : Int → Option Conn} {now timeout : Int} {session : ClientSession}

/-! ## One session -/

/-- A session is marked when it is active, not idle yet, and overdue. -/
theorem mark_isSome_iff : (sessionMarkInactiveIfNeeded session now timeout).isSome = true ↔
    session.isActive = true ∧ session.status ≠ .inactivo ∧
      timeout ≤ now - session.lastActivity := by
  constructor
  · intro h
    obtain ⟨marked, hmarked⟩ := Option.isSome_iff_exists.1 h
    exact (mark_eq_some hmarked).2
  · rintro ⟨hactive, hstatus, hidle⟩
    rw [sessionMarkInactiveIfNeeded, hactive, Bool.not_true, if_neg Bool.false_ne_true,
      if_neg hstatus, if_neg (Int.not_lt.2 hidle), Option.isSome_some]

/-- A tick changes a session exactly when it marks it. -/
theorem ticked_ne_iff : ticked session now timeout ≠ session ↔
    (sessionMarkInactiveIfNeeded session now timeout).isSome = true := by
  unfold ticked
  cases hmark : sessionMarkInactiveIfNeeded session now timeout with
  | none => simp
  | some marked =>
    obtain ⟨rfl, -, hstatus, -⟩ := mark_eq_some hmark
    refine iff_of_true ?_ rfl
    intro hsame
    rw [Option.getD_some] at hsame
    exact hstatus (congrArg ClientSession.status hsame).symm

/-- A tick writes nothing but the status. -/
theorem ticked_frame : (ticked session now timeout).isActive = session.isActive ∧
    (ticked session now timeout).lastActivity = session.lastActivity := by
  unfold ticked
  cases hmark : sessionMarkInactiveIfNeeded session now timeout with
  | none => exact ⟨rfl, rfl⟩
  | some marked =>
    obtain ⟨rfl, -⟩ := mark_eq_some hmark
    exact ⟨rfl, rfl⟩

/-- Behind a tick an active session is idle if it was so before or is overdue. -/
theorem ticked_status_iff (hactive : session.isActive = true) :
    (ticked session now timeout).status = .inactivo ↔
      session.status = .inactivo ∨ timeout ≤ now - session.lastActivity := by
  by_cases hmark : (sessionMarkInactiveIfNeeded session now timeout).isSome = true
  · have hidle := (mark_isSome_iff.1 hmark).2.2
    obtain ⟨marked, hmarked⟩ := Option.isSome_iff_exists.1 hmark
    refine iff_of_true ?_ (.inr hidle)
    rw [ticked, hmarked, Option.getD_some, (mark_eq_some hmarked).1]
  · have hnone := not_not.1 (mt ticked_ne_iff.1 hmark)
    rw [hnone]
    refine ⟨.inl, fun h => ?_⟩
    by_contra hstatus
    exact hmark (mark_isSome_iff.2 ⟨hactive, hstatus, h.resolve_left hstatus⟩)

/-- A line wakes a session up. -/
theorem touched_awake (hactive : session.isActive = true) :
    (touched session now).isActive = true ∧ (touched session now).status ≠ .inactivo := by
  unfold touched
  rw [if_pos hactive]
  refine ⟨hactive, ?_⟩
  dsimp only
  split
  · exact nofun
  · assumption

/-! ## A whole timeline -/

/-- What holds behind every event: the status remembers the ticks, and a notice has been sent exactly
    if the session is idle. -/
structure Remembers (timeout : Int) (session : ClientSession) (beats : List Beat)
    (sent : List Notification) : Prop where
  active : session.isActive = true
  idle : session.status = .inactivo ↔
    ∃ now ∈ ticksSince beats, timeout ≤ now - session.lastActivity
  noticed : sent.length = if session.status = .inactivo then 1 else 0

theorem Remembers.tick {beats : List Beat} {sent : List Notification}
    (h : Remembers timeout session beats sent) (now : Int) (fds : Int → Option Conn) :
    Remembers timeout (ticked session now timeout) (.tick now :: beats)
      (sent ++ ((sessionMarkInactiveIfNeeded session now timeout).map (noticeOf fds)).toList) := by
  obtain ⟨hactive, hactivity⟩ := @ticked_frame now timeout session
  have hstatus := @ticked_status_iff now timeout session h.active
  refine ⟨hactive.trans h.active, ?_, ?_⟩
  · rw [hstatus, hactivity, ticksSince, h.idle]
    simp only [List.exists_mem_cons_iff]
    exact or_comm
  · rw [List.length_append, h.noticed]
    cases hmark : sessionMarkInactiveIfNeeded session now timeout with
    | none =>
      rw [ticked, hmark]
      rfl
    | some marked =>
      obtain ⟨hmarked, -, hawake, -⟩ := mark_eq_some hmark
      rw [ticked, hmark, hmarked]
      simp [hawake]

theorem Timeline.remembers {i : Slot} {beats : List Beat} {sent : List Notification} {t : Sessions}
    (h : Timeline timeout i beats sent t) : Remembers timeout (t i) beats sent := by
  induction h with
  | accept hactive hstatus =>
    refine ⟨hactive, iff_of_false hstatus ?_, ?_⟩
    · rintro ⟨now, hnow, -⟩
      cases hnow
    · rw [if_neg hstatus]
      rfl
  | line h now ih =>
    obtain ⟨hactive, hawake⟩ := @touched_awake now _ ih.active
    rw [Function.update_self]
    refine ⟨hactive, iff_of_false hawake ?_, ?_⟩
    · rintro ⟨u, hu, -⟩
      cases hu
    · rw [if_neg hawake]
      rfl
  | tick h now fds ih =>
    rw [markLoop_finRange]
    exact ih.tick now fds
  | other h hactive hstatus hactivity ih =>
    refine ⟨hactive.trans ih.active, ?_, ?_⟩
    · rw [hstatus, hactivity]
      exact ih.idle
    · rw [hstatus]
      exact ih.noticed

/-! ## The server -/

variable {x : Externs} {s s' : Server} {a : Lives} {i : Slot}

/-- The session in the slot stays active over the step, and no status is written under its name. -/
structure Quiet (x : Externs) (i : Slot) (s : Server) (l : Label) : Prop where
  stays : ∀ s', s.step x l = some s' → (s'.sessions i).isActive = true
  status : ∀ c now sent user status, l = .client c (.go now sent) →
    s.nextOp c = some (.setUserStatus user status) → ¬ Named s.sessions i user

/-- What an observer of one session has noted: its beats, the newest in front, and the notices that
    the monitor has prepared for it since its last line. -/
structure Watched where
  beats : List Beat
  notices : List Notification

/-- What the observer notes of an operation of a client thread. -/
def watchOp (i : Slot) (now : Int) (w : Watched) : Op → Watched
  | .touchActivity j => if i = j then { beats := .line now :: w.beats, notices := [] } else w
  | _ => w

/-- What the observer notes of a step. -/
def watch (i : Slot) (s : Server) (l : Label) (w : Watched) : Watched :=
  match l with
  | .client c (.go now _) =>
      match s.nextOp c with
      | some o => watchOp i now w o
      | none => w
  | .monitor now _ =>
      if s.monitor = .tick ∧ s.running = true then
        { beats := .tick now :: w.beats
          notices := w.notices ++ ((sessionMarkInactiveIfNeeded (s.sessions i) now
            s.inactivityTimeoutSeconds).map (noticeOf s.fds)).toList }
      else w
  | .client _ (.line _) | .client _ .hangup | .acceptor _ | .signal => w

/-- The rest of a run from `s` with an observer of the session in slot `i` beside it. -/
def watchedSystem (x : Externs) (timeout : Int) (i : Slot) (s : Server) :
    System (Server × Watched) Label :=
  ((serverSystem x timeout).startingAt s).observed { beats := [], notices := [] } (watch i)

variable {w : Watched}

theorem watch_of_op {c : Conn} {now : Int} {sent : Bool} {o : Op} (h : s.nextOp c = some o) :
    watch i s (.client c (.go now sent)) w = watchOp i now w o := by
  simp only [watch, h]

theorem watch_of_pc {c : Conn} {t : Thread} {choice : ClientChoice} (ht : s.threads c = some t)
    (hpc : ∀ o k, t.pc ≠ .handling (.call o k)) : watch i s (.client c choice) w = w := by
  cases choice with
  | line _ | hangup => rfl
  | go now sent => simp only [watch, nextOp_of_pc ht hpc]

theorem watch_of_tick {now : Int} {sent : Bool} (hpc : s.monitor = .tick) (hrun : s.running = true) :
    watch i s (.monitor now sent) w =
      { beats := .tick now :: w.beats
        notices := w.notices ++ ((sessionMarkInactiveIfNeeded (s.sessions i) now
          s.inactivityTimeoutSeconds).map (noticeOf s.fds)).toList } :=
  if_pos ⟨hpc, hrun⟩

theorem watch_of_no_tick {now : Int} {sent : Bool} (h : ¬ (s.monitor = .tick ∧ s.running = true)) :
    watch i s (.monitor now sent) w = w :=
  if_neg h

/-- What the observer has noted is a timeline of the session. -/
def Watched.Sound (w : Watched) (i : Slot) (s : Server) : Prop :=
  Timeline s.inactivityTimeoutSeconds i w.beats w.notices s.sessions

/-- A change of the table that leaves alone what idleness depends on is no event. -/
theorem Watched.Sound.other (h : w.Sound i s)
    (htimeout : s'.inactivityTimeoutSeconds = s.inactivityTimeoutSeconds)
    (hactive : (s'.sessions i).isActive = (s.sessions i).isActive)
    (hstatus : (s'.sessions i).status = (s.sessions i).status)
    (hactivity : (s'.sessions i).lastActivity = (s.sessions i).lastActivity) : w.Sound i s' := by
  unfold Watched.Sound
  rw [htimeout]
  exact Timeline.other h hactive hstatus hactivity

/-- So is a change of other sessions. -/
theorem Watched.Sound.elsewhere (h : w.Sound i s)
    (htimeout : s'.inactivityTimeoutSeconds = s.inactivityTimeoutSeconds)
    (hsame : s'.sessions i = s.sessions i) : w.Sound i s' :=
  h.other htimeout (congrArg _ hsame) (congrArg _ hsame) (congrArg _ hsame)

/-- An operation of a client thread is a line of the session in the slot or nothing to its
    idleness. -/
theorem Watched.Sound.perform (hr : x.Registry) (hw : x.WritesStatus) (ha : Tracks s a)
    (hspeaks : Speaks x s) {c : Conn} {t : Thread} (ht : s.threads c = some t) {now : Int}
    {sent : Bool} {o : Op} {k : o.Resp → ServerProg LoopExit} {r : o.Resp}
    {target : Option (Int × Option Conn)} (hpc : t.pc = .handling (.call o k))
    (hop : s.perform x c t now sent o = some (r, s', target))
    (hquiet : ∀ user status, o = .setUserStatus user status → ¬ Named s.sessions i user)
    (h : w.Sound i s) : (watchOp i now w o).Sound i s' := by
  cases o
  case undefinedBehaviour => cases hop
  case touchActivity j =>
    cases hop
    by_cases hij : i = j
    · subst hij
      rw [watchOp, if_pos rfl]
      exact Timeline.line h now
    · rw [watchOp, if_neg hij]
      exact h.elsewhere rfl (Function.update_of_ne hij _ _)
  case addSession user fd =>
    cases hop
    obtain ⟨line, g, -, ⟨hallow, -⟩, -⟩ := hspeaks.handling c t _ ht hpc
    obtain ⟨rfl, -⟩ := hallow
    have hplaced := ha.placed_sockfd ht (by simp [Holding, hpc]) (by simp [hpc])
    have heq := hr.addSession_eq s.sessions user t.sockfd t.slot (ha.onlyAt hplaced)
    refine h.other rfl ?_ ?_ ?_
    · dsimp only
      rw [heq]
      exact field_update (·.isActive) (by rfl) i
    · dsimp only
      rw [heq]
      exact field_update (·.status) (by rfl) i
    · dsimp only
      rw [heq]
      exact field_update (·.lastActivity) (by rfl) i
  case setUserStatus user status =>
    cases hop
    exact h.elsewhere rfl (hw.setUserStatus_unnamed _ _ _ _ (hquiet user status rfl))
  case broadcastAll msg =>
    cases hop
    rw [deliverAll_eq]
    exact h
  case broadcastExcept msg fd =>
    cases hop
    rw [deliverAll_eq]
    exact h
  case send fd buf =>
    cases hop
    refine h.elsewhere ?_ ?_
    · split <;> simp
    · split <;> simp
  all_goals
    cases hop
    exact h

/-- A step of the server is an event of the session's timeline or nothing to its idleness. -/
theorem Watched.Sound.step (hr : x.Registry) (hw : x.WritesStatus) (ha : Tracks s a)
    (hspeaks : Speaks x s) {l : Label} (hs : s.step x l = some s') (hquiet : Quiet x i s l)
    (h : w.Sound i s) : (watch i s l w).Sound i s' := by
  have hi : (s.sessions i).isActive = true := (Timeline.remembers h).active
  have hi' := hquiet.stays s' hs
  -- an active slot is not one that has just been emptied
  have hremoved : ∀ j session, session.isActive = false →
      (Function.update s.sessions j session i).isActive = true →
      Function.update s.sessions j session i = s.sessions i := by
    intro j session hgone hactive
    refine Function.update_of_ne ?_ _ _
    rintro rfl
    rw [Function.update_self, hgone] at hactive
    cases hactive
  cases step_cases hs with
  | @perform c t now sent o k r s₁ target ht hpc hop =>
    have hnext : s.nextOp c = some o := nextOp_eq_some.2 ⟨t, k, ht, hpc⟩
    rw [watch_of_op hnext]
    have h' := h.perform hr hw ha hspeaks ht hpc hop fun user status ho =>
      hquiet.status c now sent user status rfl (ho ▸ hnext)
    exact h'.elsewhere rfl rfl
  | @tick now sent sessions pending hpc hrun hmark =>
    rw [watch_of_tick hpc hrun]
    have h' := Timeline.tick h now s.fds
    rw [hmark] at h'
    exact h'
  | monitorMove hmove =>
    have hno : ¬ (s.monitor = .tick ∧ s.running = true) := by
      rintro ⟨htick, hrun⟩
      simp [htick, hrun] at hmove
    rw [watch_of_no_tick hno]
    exact h
  | notify hpc hfd =>
    rw [watch_of_no_tick (by simp [hpc])]
    exact h.elsewhere (deliver_inactivityTimeoutSeconds ..) (congrFun (deliver_sessions ..) i)
  | remove ht hpc | removeInvalid ht hpc =>
    rw [watch_of_pc ht (by simp [hpc])]
    exact h.elsewhere rfl (hremoved _ _ rfl hi')
  | undo | undoInvalid => exact h.elsewhere rfl (hremoved _ _ rfl hi')
  | @add fd c session j hpc hfree =>
    have hij : i ≠ j := by
      rintro rfl
      rw [hi] at hfree
      cases hfree
    exact h.elsewhere rfl (Function.update_of_ne hij _ _)
  | store =>
    refine h.other rfl ?_ ?_ ?_
    · exact field_update (·.isActive) (by rfl) i
    · exact field_update (·.status) (by rfl) i
    · exact field_update (·.lastActivity) (by rfl) i
  | welcome ht hpc =>
    rw [watch_of_pc ht (by simp [hpc])]
    exact h.elsewhere (deliver_inactivityTimeoutSeconds ..) (congrFun (deliver_sessions ..) i)
  | start ht hpc | welcomeFailed ht hpc | turn ht hpc | line ht hpc | hangup ht hpc
  | continue_ ht hpc | break_ ht hpc | removeMissing ht hpc | close ht hpc =>
    rw [watch_of_pc ht (by simp [hpc])]
    exact h
  | acceptMove | connection | addFull | reject | findNone | find | create | createFailed
  | undoMissing | undoClose | signal => exact h

/-- While a session stays active and no status is written under its name, what an observer notes of
    its lines, of the ticks and of the notices prepared for it is a timeline of the session. -/
theorem timeline_of_run (hx : x.KeepsSlots) (hr : x.Registry) (hw : x.WritesStatus) {t₀ : Int}
    (hs : (serverSystem x t₀).Reach s) (hactive : (s.sessions i).isActive = true)
    (hstatus : (s.sessions i).status ≠ .inactivo) {p : Server × Watched}
    (hrun : (watchedSystem x t₀ i s).ReachUnder (fun p l => Quiet x i p.1 l) p) :
    Timeline p.1.inactivityTimeoutSeconds i p.2.beats p.2.notices p.1.sessions := by
  refine hrun.invariant (P := fun p => p.2.Sound i p.1) (.accept hactive hstatus) ?_
  rintro ⟨s₁, w⟩ l ⟨s₂, w'⟩ hreach h hquiet hl
  obtain ⟨hl, hwatch⟩ := System.observed_step hl
  obtain rfl : w' = watch i s₁ l w := hwatch
  obtain ⟨a, ha, hspeaks⟩ := speaks_reach hx (hs.trans hreach.of_observed)
  exact h.step hr hw ha hspeaks hl hquiet

/-! ## A whole table -/

/-- The slots whose sessions a tick changes. -/
def changedSlots (t t' : Sessions) : List Slot :=
  (List.finRange maxClients).filter fun j => t' j ≠ t j

/-- The notices of a tick are those of the sessions it has changed, in slot order. -/
theorem markLoop_notices (t : Sessions) :
    (markLoop fds now timeout (List.finRange maxClients) t []).2 =
      (changedSlots t (markLoop fds now timeout (List.finRange maxClients) t []).1).map
        fun j => noticeOf fds ((markLoop fds now timeout (List.finRange maxClients) t []).1 j) := by
  rw [markLoop_finRange]
  unfold changedSlots
  generalize List.finRange maxClients = slots
  induction slots with
  | nil => rfl
  | cons j slots ih =>
    dsimp only at ih ⊢
    rw [List.filterMap_cons]
    by_cases hmark : (sessionMarkInactiveIfNeeded (t j) now timeout).isSome = true
    · obtain ⟨marked, hmarked⟩ := Option.isSome_iff_exists.1 hmark
      have hticked : ticked (t j) now timeout = marked := by rw [ticked, hmarked, Option.getD_some]
      rw [List.filter_cons_of_pos (by simpa using ticked_ne_iff.2 hmark), List.map_cons, hmarked,
        hticked, Option.map_some]
      exact congrArg _ ih
    · have hnone := Option.not_isSome_iff_eq_none.1 hmark
      rw [List.filter_cons_of_neg (by simpa using mt ticked_ne_iff.1 hmark), hnone, Option.map_none]
      exact ih

/-- An idle period is detected at the first tick that finds the session overdue, and once; and a tick
    prepares one notice for each session that it changes, with its own socket. -/
theorem idle_once (timeout : Int) (i : Slot) :
    (∀ beats sent t, Timeline timeout i beats sent t →
      ((t i).status = .inactivo ↔
        ∃ now ∈ ticksSince beats, timeout ≤ now - (t i).lastActivity) ∧
      sent.length ≤ 1 ∧
      ∀ now, (sessionMarkInactiveIfNeeded (t i) now timeout).isSome = true ↔
        timeout ≤ now - (t i).lastActivity ∧
          ∀ u ∈ ticksSince beats, ¬ timeout ≤ u - (t i).lastActivity) ∧
    ∀ fds now t t' pending,
      markLoop fds now timeout (List.finRange maxClients) t [] = (t', pending) →
      pending.length = (changedSlots t t').length ∧ pending.length ≤ maxClients ∧
        pending = (changedSlots t t').map fun j => noticeOf fds (t' j) := by
  refine ⟨?_, ?_⟩
  · intro beats sent t h
    have hsession := h.remembers
    refine ⟨hsession.idle, ?_, fun now => ?_⟩
    · rw [hsession.noticed]
      split <;> decide
    · have hawake : (t i).status ≠ .inactivo ↔
          ∀ u ∈ ticksSince beats, ¬ timeout ≤ u - (t i).lastActivity := by
        rw [ne_eq, hsession.idle]
        simp only [not_exists, not_and]
      rw [mark_isSome_iff, and_iff_right hsession.active, hawake]
      exact and_comm
  · intro fds now t t' pending htick
    have hnotices := @markLoop_notices fds now timeout t
    rw [htick] at hnotices
    have hlength := congrArg List.length hnotices
    rw [List.length_map] at hlength
    refine ⟨hlength, ?_, hnotices⟩
    rw [hlength]
    exact Nat.le_trans (List.length_filter_le _ _) (Nat.le_of_eq List.length_finRange)

/-- A user whose last line came at 10 is awake at the tick at 69, is found idle at 70, and is not
    notified again at 90. -/
theorem idle_once_boundary :
    ∃ sent t, Timeline 60 0 [.tick 90, .tick 70, .tick 69, .line 10] sent t ∧
      (t 0).status = .inactivo ∧ sent = [⟨4, some 0, inactivityNotice (ascii "ana")⟩] := by
  let session : ClientSession :=
    { newSession 4 ⟨127, 0, 0, 1⟩ 0 with username := ascii "ana", isRegistered := true }
  let fds : Int → Option Conn := Function.update (fun _ => none) 4 (some 0)
  have haccept : Timeline 60 0 [] [] (Function.update sessionsInit 0 session) := .accept rfl (by decide)
  have hticks := (((haccept.line 10).tick 69 fds).tick 70 fds).tick 90 fds
  obtain ⟨hidle, -, -⟩ := (idle_once 60 0).1 _ _ _ hticks
  refine ⟨_, _, hticks, hidle.2 ⟨70, by decide, by decide +kernel⟩, by decide +kernel⟩

end Server

end ChatMultithread
