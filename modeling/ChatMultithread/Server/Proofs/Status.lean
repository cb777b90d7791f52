import ChatMultithread.Server.Proofs.Events
import ChatMultithread.Server.Proofs.Ticks

/-!
# Who writes the status of a session

Three places write the status field of a registered session: the second critical section of
`update_session_activity`, `set_user_status` and the monitor's tick. Only behind the second one
anybody else is told, by the thread that called it; `statusMonitor` follows a thread from the one
to the other.
-/

namespace ChatMultithread

open Lib Lib.HandleTable

/-- `STATUS_CHANGED|u|v`. -/
def statusLine (u : Bytes) (v : UserStatus) : Bytes :=
  buildStatusChanged maxMsg u (statusToString v)

/-- The status that a string says the user `u` has. -/
def statusTold (u buf : Bytes) : Option UserStatus :=
  [.activo, .ocupado, .inactivo].find? fun v => buf == statusLine u v

/-- The status of the user `u` that was written to `d` last. -/
def lastTold (d : Conn) (u : Bytes) : List Event → Option UserStatus
  | [] => none
  | .delivered _ _ dst buf :: past =>
      if dst = d then (statusTold u buf).or (lastTold d u past) else lastTold d u past
  | .received _ _ :: past | .named _ _ :: past | .closed _ _ :: past => lastTold d u past

/-- The operations of a thread between its `set_user_status` and its `broadcast_except`: while the
    thread `owes` the broadcast it writes no status and no name. -/
def statusMonitor (plain : Prop) (slot : Slot) (fd : Int) (line : Bytes) :
    Monitor Op Op.Resp Bool where
  allows owes
    | .setUserStatus _ _ => owes = false ∧ InBounds line
    | .undefinedBehaviour => owes = false ∧ ¬ InBounds line
    | .touchActivity _ | .addSession _ _ => owes = false
    | .broadcastExcept _ _ => owes = true
    | _ => True
  answers _ := (lineMonitor plain slot fd line).answers ⟨[], none, none⟩
  next owes
    | .setUserStatus _ _, _ => true
    | .broadcastExcept _ _, _ => false
    | _, _ => owes

/-- The rest of a line, at whose end nothing is owed. -/
def Owing (plain : Prop) (slot : Slot) (fd : Int) (line : Bytes) (owes : Bool)
    {α : Type} (code : ServerProg α) : Prop :=
  (statusMonitor plain slot fd line).Safe (fun owes _ => owes = false) owes code

/-! ## The loop body -/

section Line

variable {plain : Prop} {slot : Slot} {fd : Int} {line : Bytes}

theorem handleStatus_owing (hin : InBounds line) :
    Owing plain slot fd line false (handleStatus (lineMessage line)) := by
  rw [handleStatus_eq]
  refine ⟨trivial, fun fd' _ => ?_⟩
  dsimp only
  split
  · exact ⟨trivial, fun _ _ => rfl⟩
  · exact ⟨trivial, fun username _ => ⟨⟨rfl, hin⟩, fun _ _ => ⟨trivial, fun _ _ => ⟨trivial,
      fun username' _ => ⟨rfl, fun _ _ => rfl⟩⟩⟩⟩⟩

theorem handlerOf_owing (hin : InBounds line) :
    Owing plain slot fd line false (handlerOf (lineMessage line)) := by
  by_cases hcmd : lineCommand line = .status
  · have hhandler : handlerOf (lineMessage line) = handleStatus (lineMessage line) := by
      rw [handlerOf, lineMessage_type, hcmd]
    rw [hhandler]
    exact handleStatus_owing hin
  · -- No other handler writes a status or says so.
    have hsafe : (lineMonitor plain slot fd line).Safe (fun _ _ => True) ⟨[], none, none⟩
        (handlerOf (lineMessage line)) := handlerOf_safe
    refine hsafe.transfer (fun _ owes => owes = false) ?_ ?_ ?_ ?_ rfl
    · rintro g owes o rfl hallow
      cases o
      case broadcastExcept msg fd' => exact absurd hallow.2.1 hcmd
      case setUserStatus user status => exact absurd hallow.1 hcmd
      case undefinedBehaviour => exact ⟨rfl, hallow⟩
      all_goals first | rfl | trivial
    · rintro g owes o r rfl hans
      exact hans
    · rintro g owes o r rfl hallow
      cases o
      case setUserStatus user status => exact absurd hallow.1 hcmd
      all_goals rfl
    · rintro g owes a rfl -
      rfl

theorem lineBody_owing : Owing plain slot fd line false (lineBody fd line) := by
  apply safe_lineBody
  · exact fun _ => ⟨trivial, fun _ _ => rfl⟩
  · exact fun _ => ⟨trivial, fun _ _ => rfl⟩
  · exact fun hout => ⟨rfl, hout⟩
  · exact fun _ _ _ => ⟨trivial, fun _ _ => rfl⟩
  · intro _ hin _
    have hhandler : Owing plain slot fd line false (handlerOf (lineMessage line)) :=
      handlerOf_owing hin
    exact hhandler.mono fun _ _ howes => howes

/-- A line is handled with nothing owed at its end. -/
theorem clientLine_owing (hlen : line.length < maxMsg) :
    Owing plain slot fd line false (clientLine fd line) := by
  apply safe_clientLine hlen
  · exact trivial
  · exact fun _ => lineBody_owing
  · exact fun _ _ => ⟨rfl, fun _ _ => lineBody_owing⟩

end Line

/-! ## What a string says -/

/-- A line about the status of a user is not cut. -/
theorem statusLine_eq {u : Bytes} (hu : u = [] ∨ isValidUsername u = true) (v : UserStatus) :
    statusLine u v =
      srvStatusChanged ++ fieldSepChar :: (u ++ fieldSepChar :: (statusToString v ++
        [msgTerminatorChar])) := by
  have hlen := Server.length_of_named hu
  have hstatus : (statusToString v).length ≤ 8 := by cases v <;> decide
  have hword : srvStatusChanged.length = 14 := rfl
  have hline : lineOf srvStatusChanged [u, statusToString v] =
      srvStatusChanged ++ fieldSepChar :: (u ++ fieldSepChar :: (statusToString v ++
        [msgTerminatorChar])) := by simp [lineOf]
  have hfit : (lineOf srvStatusChanged [u, statusToString v]).length < maxMsg := by
    rw [hline]
    simp only [List.length_append, List.length_cons, List.length_nil, maxMsg, maxLineLen]
    omega
  rw [statusLine, buildStatusChanged, ← hline]
  exact snprintf_of_lt hfit

theorem statusToString_injective {v v' : UserStatus} (h : statusToString v = statusToString v') :
    v = v' := by
  cases v <;> cases v' <;> first | rfl | cases h

/-- It says the status of one user. -/
theorem statusLine_inj {u u' : Bytes} (hu : u = [] ∨ isValidUsername u = true)
    (hu' : u' = [] ∨ isValidUsername u' = true) {v v' : UserStatus}
    (h : statusLine u v = statusLine u' v') : u = u' ∧ v = v' := by
  have hsep : ∀ {u : Bytes}, u = [] ∨ isValidUsername u = true → fieldSepChar ∉ u := by
    rintro u (rfl | hvalid)
    · exact List.not_mem_nil
    · exact not_mem_of_isValidUsername hvalid (by decide) (by decide)
  rw [statusLine_eq hu, statusLine_eq hu'] at h
  have hfields := (List.cons.inj (List.append_cancel_left h)).2
  have hsplit := congrArg (strchr fieldSepChar) hfields
  rw [strchr_append (hsep hu), strchr_append (hsep hu')] at hsplit
  obtain ⟨rfl, hstatus⟩ := Prod.mk.inj (Option.some.inj hsplit)
  exact ⟨rfl, statusToString_injective (List.append_cancel_right hstatus)⟩

theorem statusLine_of_statusTold {u buf : Bytes} {v : UserStatus} (h : statusTold u buf = some v) :
    buf = statusLine u v := by
  have := List.find?_some h
  simpa using this

theorem statusTold_statusLine {u : Bytes} (hu : u = [] ∨ isValidUsername u = true)
    (v : UserStatus) : statusTold u (statusLine u v) = some v := by
  cases hfind : statusTold u (statusLine u v) with
  | none =>
    have hnone := List.find?_eq_none.1 hfind v (by cases v <;> simp)
    simp at hnone
  | some v' =>
    obtain ⟨-, rfl⟩ := statusLine_inj hu hu (statusLine_of_statusTold hfind)
    rfl

section Told

variable {d : Conn} {u : Bytes} {new past : List Event} {v : UserStatus}

theorem lastTold_append :
    lastTold d u (new ++ past) = (lastTold d u new).or (lastTold d u past) := by
  induction new with
  | nil => rfl
  | cons e new ih =>
    cases e with
    | delivered src aim dst buf =>
      simp only [List.cons_append, lastTold, ih]
      split
      · rw [Option.or_assoc]
      · rfl
    | received _ _ | named _ _ | closed _ _ => exact ih

/-- What was written last was written. -/
theorem delivered_of_lastTold (h : lastTold d u past = some v) :
    ∃ src aim, .delivered src aim d (statusLine u v) ∈ past := by
  induction past with
  | nil => cases h
  | cons e past ih =>
    have hrest : lastTold d u past = some v →
        ∃ src aim, .delivered src aim d (statusLine u v) ∈ e :: past := by
      intro h
      obtain ⟨src, aim, hmem⟩ := ih h
      exact ⟨src, aim, List.mem_cons_of_mem _ hmem⟩
    cases e with
    | delivered src aim dst buf =>
      rw [lastTold] at h
      split at h
      · rename_i hdst
        subst hdst
        cases htold : statusTold u buf with
        | none =>
          rw [htold, Option.none_or] at h
          exact hrest h
        | some v' =>
          rw [htold, Option.some_or] at h
          cases h
          rw [statusLine_of_statusTold htold]
          exact ⟨src, aim, List.mem_cons_self⟩
      · exact hrest h
    | received _ _ | named _ _ | closed _ _ => exact hrest h

theorem lastTold_isSome (hu : u = [] ∨ isValidUsername u = true) {src : Source}
    {aim : Option Conn} (h : .delivered src aim d (statusLine u v) ∈ past) :
    ∃ w, lastTold d u past = some w := by
  obtain ⟨post, past, rfl⟩ := List.append_of_mem h
  have hhead : lastTold d u (.delivered src aim d (statusLine u v) :: past) = some v := by
    rw [lastTold, if_pos rfl, statusTold_statusLine hu, Option.some_or]
  rw [lastTold_append, hhead]
  cases lastTold d u post with
  | none => exact ⟨v, rfl⟩
  | some w => exact ⟨w, rfl⟩

end Told

namespace Server

variable {x : Externs} {s s' : Server} {a : Lives} {c d : Conn} {t : Thread} {i : Slot}

/-! ## The steps that write a status -/

/-- A step that can change the status of the session in a slot. -/
inductive Writes (s : Server) (i : Slot) : Label → Prop
  | touch {c : Conn} {t : Thread} {now : Int} {sent : Bool} {k : Unit → ServerProg LoopExit}
      (ht : s.threads c = some t) (hpc : t.pc = .handling (.call (.touchActivity i) k))
      (hwas : (s.sessions i).status = .inactivo) : Writes s i (.client c (.go now sent))
  | set {c : Conn} {t : Thread} {now : Int} {sent : Bool} {user status : Bytes}
      {k : Unit → ServerProg LoopExit} (ht : s.threads c = some t)
      (hpc : t.pc = .handling (.call (.setUserStatus user status) k))
      (hnamed : Named s.sessions i user) : Writes s i (.client c (.go now sent))
  | mark {now : Int} {sent : Bool} (hpc : s.monitor = .tick)
      (hdue : sessionMarkInactiveIfNeeded (s.sessions i) now s.inactivityTimeoutSeconds ≠ none) :
      Writes s i (.monitor now sent)

theorem status_touched (session : ClientSession) (now : Int) :
    (touched session now).status = session.status ∨ session.status = .inactivo := by
  unfold touched
  split
  · dsimp only
    split
    · rename_i h
      exact .inr h
    · exact .inl rfl
  · exact .inl rfl

/-- The operations that write a status. -/
theorem writes_perform (hr : x.Registry) (hw : x.WritesStatus) (ha : Tracks s a)
    (hspeaks : Speaks x s) (ht : s.threads c = some t) {now : Int} {sent : Bool} {o : Op}
    {k : o.Resp → ServerProg LoopExit} {r : o.Resp} {target : Option (Int × Option Conn)}
    (hpc : t.pc = .handling (.call o k))
    (hop : s.perform x c t now sent o = some (r, s', target))
    (hne : (s'.sessions i).status ≠ (s.sessions i).status) :
    Writes s i (.client c (.go now sent)) := by
  cases o
  case undefinedBehaviour => cases hop
  case touchActivity j =>
    cases hop
    dsimp only at hne
    by_cases hij : i = j
    · subst hij
      rw [Function.update_self] at hne
      exact .touch ht hpc ((status_touched _ _).resolve_left hne)
    · rw [Function.update_of_ne hij] at hne
      exact absurd rfl hne
  case addSession user fd =>
    cases hop
    obtain ⟨line, g, -, ⟨hallow, -⟩, -⟩ := hspeaks.handling c t _ ht hpc
    obtain ⟨rfl, -⟩ := hallow
    have hplaced := ha.placed_sockfd ht (by simp [Holding, hpc]) (by simp [hpc])
    have heq := hr.addSession_eq s.sessions user t.sockfd t.slot (ha.onlyAt hplaced)
    refine absurd ?_ hne
    dsimp only
    rw [heq]
    exact field_update (·.status) (by rfl) i
  case setUserStatus user status =>
    cases hop
    by_cases hnamed : Named s.sessions i user
    · exact .set ht hpc hnamed
    · exact absurd (congrArg _ (hw.setUserStatus_unnamed _ _ _ _ hnamed)) hne
  case broadcastAll msg =>
    cases hop
    rw [deliverAll_eq] at hne
    exact absurd rfl hne
  case broadcastExcept msg fd =>
    cases hop
    rw [deliverAll_eq] at hne
    exact absurd rfl hne
  case send fd buf =>
    cases hop
    split at hne
    · rw [deliver_sessions] at hne
      exact absurd rfl hne
    · exact absurd rfl hne
  all_goals
    cases hop
    exact absurd rfl hne

/-- The steps that write the status of a session that stays. -/
theorem writes_of_step (hr : x.Registry) (hw : x.WritesStatus) (ha : Tracks s a)
    (hspeaks : Speaks x s) {l : Label} (hs : Step x s l s') (hi : (s.sessions i).isActive = true)
    (hi' : (s'.sessions i).isActive = true)
    (hne : (s'.sessions i).status ≠ (s.sessions i).status) : Writes s i l := by
  have hremoved : ∀ j, (Function.update s.sessions j (removedSession (s.sessions j)) i).isActive =
      true → (Function.update s.sessions j (removedSession (s.sessions j)) i).status =
        (s.sessions i).status := by
    intro j hactive
    by_cases hij : i = j
    · subst hij
      rw [Function.update_self] at hactive
      cases hactive
    · rw [Function.update_of_ne hij]
  cases hs with
  | perform ht hpc hop => exact writes_perform hr hw ha hspeaks ht hpc hop hne
  | @tick now sent sessions pending hpc hrun hmark =>
    rw [markLoop_finRange] at hmark
    obtain ⟨rfl, -⟩ := Prod.mk.inj hmark
    refine .mark hpc fun hnone => hne ?_
    dsimp only
    rw [ticked, hnone, Option.getD_none]
  | remove | removeInvalid | undo | undoInvalid => exact absurd (hremoved _ hi') hne
  | @add fd c session j hpc hfree =>
    have hij : i ≠ j := by
      rintro rfl
      rw [hi] at hfree
      cases hfree
    exact absurd (by simp [hij]) hne
  | store => exact absurd (field_update (·.status) (by rfl) i) hne
  | welcome | notify => exact absurd (by simp) hne
  | start | welcomeFailed | turn | line | hangup | continue_ | break_ | removeMissing | close
  | acceptMove | connection | addFull | reject | findNone | find | create | createFailed
  | undoMissing | undoClose | monitorMove | signal => exact absurd rfl hne

/-! ## Registered sessions -/

/-- A connection has one slot. -/
theorem slot_unique (ha : Tracks s a) {j : Slot} (hi : (s.sessions i).isActive = true)
    (hic : s.fds (s.sessions i).sockfd = some c) (hj : (s.sessions j).isActive = true)
    (hjc : s.fds (s.sessions j).sockfd = some c) : i = j := by
  obtain ⟨c', hi'⟩ := ha.active_placed hi
  obtain ⟨c'', hj'⟩ := ha.active_placed hj
  obtain rfl : c' = c := Option.some.inj ((ha.fds_placed hi').symm.trans hic)
  obtain rfl : c'' = c' := Option.some.inj ((ha.fds_placed hj').symm.trans hjc)
  exact (Stage.placed.inj (hi'.symm.trans hj')).2

/-- The slot that a thread holds is its connection's. -/
theorem slot_of_thread (ha : Tracks s a) (ht : s.threads c = some t) (hold : Holding t) :
    (s.sessions t.slot).isActive = true ∧ s.fds (s.sessions t.slot).sockfd = some c := by
  have hplaced := ha.placed ht hold
  exact ⟨(ha.sockfd_placed hplaced).1, ha.fds_placed hplaced⟩

/-- The session of a thread that is live behind a step was in the same slot before. -/
theorem live_slot_of_step (hx : x.KeepsSlots) (ha : Tracks s a) {l : Label} (hs : Step x s l s')
    (ht : s.threads c = some t) (hi' : (s'.sessions i).isActive = true)
    (hc' : s'.fds (s'.sessions i).sockfd = some c) :
    (s.sessions i).isActive = true ∧ s.fds (s.sessions i).sockfd = some c := by
  obtain ⟨j, hj, hjc⟩ := live_of_step hx ha hs ht ⟨i, hi', hc'⟩
  obtain ⟨a', hsteps, htracks⟩ := tracks_step hx ha hs
  obtain ⟨d, hd⟩ := ha.active_placed hj
  obtain rfl : d = c := Option.some.inj ((ha.fds_placed hd).symm.trans hjc)
  obtain ⟨e, he⟩ := htracks.active_placed hi'
  obtain rfl : e = d := Option.some.inj ((htracks.fds_placed he).symm.trans hc')
  have hji : j = i := by
    rcases placed_steps hsteps hd with h | h | h
    · exact (Stage.placed.inj (h.symm.trans he)).2
    · cases he.symm.trans h
    · cases he.symm.trans h
  subst hji
  exact ⟨hj, hjc⟩

/-- A session that is registered behind a step was so before, under the same name, or the step has
    just named it. -/
theorem registered_of_step (hx : x.KeepsSlots) (hr : x.Registry) (ha : Tracks s a)
    (hspeaks : Speaks x s) (hspeaks' : Speaks x s') {l : Label}
    (hs : Step x s l s') (hi' : Registered s'.sessions i)
    (hc' : s'.fds (s'.sessions i).sockfd = some c) :
    (s.sessions i).isActive = true ∧ s.fds (s.sessions i).sockfd = some c ∧
      (Registered s.sessions i ∧ (s.sessions i).username = (s'.sessions i).username ∨
        ∃ now sent fd, l = .client c (.go now sent) ∧
          s.nextOp c = some (.addSession (s'.sessions i).username fd)) := by
  obtain ⟨hname', hreg'⟩ := hspeaks'.names hr i c hi'.1 hc'
  have hne' := hreg'.1 hi'.2
  have hnamed := nameOf_of_step (d := c) hs
  have hthread : ∃ t, s.threads c = some t := by
    rcases hnamed with hsame | ⟨now, sent, user, fd, -, hop, -⟩
    · cases ht : s.threads c with
      | some t => exact ⟨t, rfl⟩
      | none =>
        rw [hsame] at hne'
        exact absurd (hspeaks.unnamed c ht) hne'
    · obtain ⟨t, -, ht, -⟩ := nextOp_eq_some.1 hop
      exact ⟨t, ht⟩
  obtain ⟨t, ht⟩ := hthread
  obtain ⟨hi, hc⟩ := live_slot_of_step hx ha hs ht hi'.1 hc'
  obtain ⟨hname, hreg⟩ := hspeaks.names hr i c hi hc
  refine ⟨hi, hc, ?_⟩
  rcases hnamed with hsame | ⟨now, sent, user, fd, hl, hop, huser⟩
  · refine .inl ⟨⟨hi, hreg.2 (by rw [← hsame]; exact hne')⟩, ?_⟩
    rw [hname, hname', hsame]
  · refine .inr ⟨now, sent, fd, hl, ?_⟩
    rw [hname', huser]
    exact hop

end Server

end ChatMultithread
