import ChatMultithread.Server.Proofs.Gate
import ChatMultithread.Server.Proofs.Owing
import ChatMultithread.Server.Proofs.Replies

/-!
# How long a chosen status lasts

The status field is the user's choice and the idle flag at once. `update_session_activity` takes
every `INACTIVO` for the flag and sets it back to `ACTIVO`, also one that its user has asked for.
An observer keeps the choices that the server has confirmed, until the next one or until the
monitor finds the session idle; as long as no line follows a chosen `INACTIVO`, they are what the
table holds.
-/

namespace ChatMultithread

open Lib Lib.HandleTable

/-- The status that a string confirms. -/
def statusConfirmed (buf : Bytes) : Option UserStatus :=
  [.activo, .ocupado, .inactivo].find? fun v => buf == buildStatusOk maxMsg (statusToString v)

/-- The status that an operation confirms. -/
def confirmedBy : Op → Option UserStatus
  | .send _ buf => statusConfirmed buf
  | _ => none

namespace Server

/-- The statuses that the users have chosen and that are still in force. -/
abbrev Choices := Conn → Option UserStatus

instance (s : Server) (c : Conn) : Decidable (Known s c) :=
  inferInstanceAs (Decidable (∃ _, _ ∧ _))

/-- The step is a tick of the monitor that finds the session in the slot idle for the timeout. -/
def Overdue (s : Server) (i : Slot) : Label → Prop
  | .monitor now _ => s.monitor = .tick ∧ s.running = true ∧ (s.sessions i).isActive = true ∧
      s.inactivityTimeoutSeconds ≤ now - (s.sessions i).lastActivity
  | .acceptor _ | .client _ _ | .signal => False

instance (s : Server) (i : Slot) (l : Label) : Decidable (Overdue s i l) :=
  match l with
  | .monitor _ _ => inferInstanceAs (Decidable (_ ∧ _ ∧ _ ∧ _))
  | .acceptor _ | .client _ _ | .signal => isFalse id

/-- What the observer notes of an operation of the thread of `c`: the confirmation of a status to a
    registered session, and the next accepted `STATUS`. -/
def noteOp (s : Server) (c : Conn) (sent : Bool) (choices : Choices) : Op → Choices
  | .setUserStatus _ _ => Function.update choices c none
  | .send fd buf =>
      match statusConfirmed buf with
      | some v =>
          if sent = true ∧ s.fds fd = some c ∧ Known s c then Function.update choices c (some v)
          else choices
      | none => choices
  | _ => choices

/-- What the observer notes of a step. -/
def note (s : Server) (l : Label) (choices : Choices) : Choices :=
  match l with
  | .client c (.go _ sent) =>
      match s.nextOp c with
      | some o => noteOp s c sent choices o
      | none => choices
  | .monitor _ _ => fun c =>
      if ∃ i, Overdue s i l ∧ s.fds (s.sessions i).sockfd = some c then none else choices c
  | .client _ (.line _) | .client _ .hangup | .acceptor _ | .signal => choices

/-- The server under observation. -/
def chosenSystem (x : Externs) (timeout : Int) : System (Server × Choices) Label :=
  (serverSystem x timeout).observed (fun _ => none) note

/-- A choice that is in force is what the table holds. -/
def Persists (p : Server × Choices) : Prop :=
  ∀ c v, p.2 c = some v → ∀ i, (p.1.sessions i).isActive = true →
    p.1.fds (p.1.sessions i).sockfd = some c → (p.1.sessions i).status = v

/-- The operation takes back no choice: no line is received behind a chosen `INACTIVO`, and a status
    is written under a name that one session has. -/
def LastingOp (s : Server) (choice : Option UserStatus) : Op → Prop
  | .touchActivity _ => choice ≠ some .inactivo
  | .setUserStatus user _ => ∀ i j, Named s.sessions i user → Named s.sessions j user → i = j
  | _ => True

/-- The step takes back no choice: nor does a tick find a session idle whose status is about to be
    confirmed. -/
def Lasting (p : Server × Choices) : Label → Prop
  | .client c (.go _ _) => ∀ o ∈ p.1.nextOp c, LastingOp p.1 (p.2 c) o
  | .monitor now sent => ∀ i, Overdue p.1 i (.monitor now sent) →
      ∀ c ∈ p.1.fds (p.1.sessions i).sockfd, ∀ o ∈ p.1.nextOp c, ∀ v ∈ confirmedBy o, v = .inactivo
  | .client _ (.line _) | .client _ .hangup | .acceptor _ | .signal => True

instance (t : Sessions) (i : Slot) (u : Bytes) : Decidable (Named t i u) :=
  inferInstanceAs (Decidable (_ ∧ _))

instance (s : Server) (choice : Option UserStatus) (o : Op) : Decidable (LastingOp s choice o) :=
  match o with
  | .touchActivity _ => inferInstanceAs (Decidable (_ ≠ _))
  | .setUserStatus _ _ => inferInstanceAs (Decidable (∀ _ _, _ → _ → _))
  | .sessionsFindBySockfd _ | .readSockfd | .readAddr | .readUsername | .usernameExists _
  | .addSession _ _ | .findUserFd _ | .broadcastAll _ | .broadcastExcept _ _ | .getAllUsers _
  | .getUserInfo _ | .send _ _ | .undefinedBehaviour => isTrue trivial

instance (p : Server × Choices) (l : Label) : Decidable (Lasting p l) :=
  match l with
  | .client _ (.go _ _) => inferInstanceAs (Decidable (∀ o ∈ p.1.nextOp _, _))
  | .monitor _ _ => inferInstanceAs (Decidable (∀ i, _ → ∀ c ∈ p.1.fds (p.1.sessions i).sockfd, _))
  | .client _ (.line _) | .client _ .hangup | .acceptor _ | .signal => isTrue trivial

/-! ## The handlers -/

/-- The operations of a thread, by the status that it has just written: the next one confirms it, and
    nothing else confirms a status. -/
def statingMonitor : Monitor Op Op.Resp (Option UserStatus) where
  allows just o := confirmedBy o = just
  answers _ _ _ := True
  next _
    | .setUserStatus _ status, _ => statusOfString status
    | _, _ => none

/-- The rest of a line, at whose end every status that was written has been confirmed. -/
def Stating {α : Type} (just : Option UserStatus) (code : ServerProg α) : Prop :=
  statingMonitor.Safe (fun just _ => just = none) just code

theorem statusConfirmed_eq_some {buf : Bytes} {v : UserStatus} (h : statusConfirmed buf = some v) :
    buf = buildStatusOk maxMsg (statusToString v) := by
  have hfound := List.find?_some h
  simpa using hfound

theorem statusConfirmed_of_type {buf : Bytes} (h : (protoParseType (cstr buf)).1 ≠ srvStatusOk) :
    statusConfirmed buf = none := by
  rw [Option.eq_none_iff_forall_not_mem]
  intro v hv
  rw [statusConfirmed_eq_some hv] at h
  exact h (protoParseType_lineOf (by decide) _)

/-- `STATUS_OK` confirms the status it names. -/
theorem statusConfirmed_statusOk {status : Bytes} (h : isValidStatus status = true) :
    statusConfirmed (buildStatusOk maxMsg status) = statusOfString status := by
  obtain ⟨v, rfl, hv⟩ := status_of_isValidStatus h
  rw [hv]
  cases v <;> decide +kernel

theorem statusConfirmed_event {buf : Bytes} (h : IsEvent buf) : statusConfirmed buf = none := by
  apply statusConfirmed_of_type
  have hdisjoint : ∀ word ∈ eventWords, word ≠ srvStatusOk := by decide
  exact hdisjoint _ h

/-- Only the reply of a `STATUS` confirms a status. -/
theorem RepliesTo.statusConfirmed {line buf : Bytes} (h : RepliesTo line buf)
    (hcmd : lineCommand line ≠ .status) : statusConfirmed buf = none := by
  have hword : replyWordsOf .status = some (cmdStatus, srvStatusOk) := rfl
  exact statusConfirmed_of_type (h.type_ne hword hcmd)

section Line

variable {line : Bytes} {fd : Int}

theorem handleStatus_stating : Stating none (handleStatus (lineMessage line)) := by
  rw [handleStatus_eq]
  refine ⟨rfl, fun fd _ => ?_⟩
  dsimp only
  split
  · refine ⟨?_, fun _ _ => rfl⟩
    apply statusConfirmed_of_type
    rw [buildError, protoParseType_lineOf (by decide)]
    decide
  · rename_i hvalid
    have hstatus : isValidStatus (lineMessage line).arg1 = true := by simpa using hvalid
    refine ⟨rfl, fun username _ => ⟨rfl, fun _ _ => ⟨?_, fun _ _ => ?_⟩⟩⟩
    · exact statusConfirmed_statusOk hstatus
    · exact ⟨rfl, fun username' _ => ⟨rfl, fun _ _ => rfl⟩⟩

theorem handlerOf_stating (hcmd : lineCommand line ≠ .invalid) :
    Stating none (handlerOf (lineMessage line)) := by
  by_cases hstatus : lineCommand line = .status
  · have hhandler : handlerOf (lineMessage line) = handleStatus (lineMessage line) := by
      rw [handlerOf, lineMessage_type, hstatus]
    rw [hhandler]
    exact handleStatus_stating
  · -- no other handler writes a status or confirms one
    have hwording : Wording line (handlerOf (lineMessage line)) := handlerOf_wording hcmd
    refine hwording.transfer (fun _ just => just = none) ?_ ?_ ?_ ?_ rfl
    · intro _ just o hjust hallow
      rw [hjust]
      cases o
      case send fd buf =>
        rcases hallow with hreply | ⟨name, hevent⟩
        · exact hreply.statusConfirmed hstatus
        · exact statusConfirmed_event hevent.type
      all_goals rfl
    · intro _ _ _ _ _ _
      trivial
    · intro _ just o r hjust hallow
      cases o
      case setUserStatus user status => exact absurd hallow hstatus
      all_goals rfl
    · intro _ just _ hjust _
      exact hjust

theorem lineBody_stating : Stating none (lineBody fd line) := by
  have hnone : ∀ buf ∈ [ascii "PONG\n", ascii "BYE\n", protoPending], statusConfirmed buf = none := by
    decide +kernel
  apply safe_lineBody
  · exact fun _ => ⟨hnone _ (by simp), fun _ _ => rfl⟩
  · exact fun _ => ⟨hnone _ (by simp), fun _ _ => rfl⟩
  · exact fun _ => rfl
  · exact fun _ _ _ => ⟨hnone _ (by simp), fun _ _ => rfl⟩
  · intro _ _ hcmd
    have hhandler : Stating none (handlerOf (lineMessage line)) := handlerOf_stating hcmd
    exact hhandler.mono fun _ _ hjust => hjust

/-- A thread confirms a status right behind its `set_user_status`. -/
theorem clientLine_stating (hlen : line.length < maxMsg) : Stating none (clientLine fd line) := by
  apply safe_clientLine hlen
  · exact rfl
  · exact fun _ => lineBody_stating
  · exact fun _ _ => ⟨rfl, fun _ _ => lineBody_stating⟩

end Line

/-! ## Every run -/

variable {x : Externs} {s s' : Server} {a : Lives} {c : Conn} {t : Thread} {i : Slot}
  {choices : Choices}

/-- The invariant: what is in force is what the table holds, and so is what a thread is about to
    confirm. -/
structure Chosen (p : Server × Choices) : Prop where
  persists : Persists p
  named : ∀ c v, p.2 c = some v → nameOf c p.1.log ≠ []
  handling : ∀ c t code, p.1.threads c = some t → t.pc = .handling code →
    ∃ just, Stating just code
  pending : ∀ c o v, p.1.nextOp c = some o → confirmedBy o = some v → nameOf c p.1.log ≠ [] →
    ∀ i, (p.1.sessions i).isActive = true → p.1.fds (p.1.sessions i).sockfd = some c →
      (p.1.sessions i).status = v

/-- Under the condition the status of a registered session changes by its own thread's operations,
    or because a tick finds it idle. -/
theorem writer_of_step (hr : x.Registry) (hw : x.WritesStatus) (ha : Tracks s a)
    (hspeaks : Speaks x s) {l : Label} (hok : Lasting (s, choices) l) (hs : Step x s l s')
    (hnamed : nameOf c s.log ≠ []) (hi : (s.sessions i).isActive = true)
    (hic : s.fds (s.sessions i).sockfd = some c) (hi' : (s'.sessions i).isActive = true)
    (hne : (s'.sessions i).status ≠ (s.sessions i).status) :
    (∃ now sent o, l = .client c (.go now sent) ∧ s.nextOp c = some o ∧
      (o = .touchActivity i ∧ (s.sessions i).status = .inactivo ∨
        ∃ user status, o = .setUserStatus user status)) ∨
      Overdue s i l ∧ (s'.sessions i).status = .inactivo := by
  cases writes_of_step hr hw ha hspeaks hs hi hi' hne with
  | @touch e t now sent k ht hpc hwas =>
    obtain ⟨line, g, -, ⟨hslot, -⟩, -⟩ := hspeaks.handling e t _ ht hpc
    obtain ⟨-, hfds⟩ := slot_of_thread ha ht (by simp [Holding, hpc])
    have hi : i = t.slot := hslot
    rw [← hi, hic] at hfds
    obtain rfl := Option.some.inj hfds
    exact .inl ⟨now, sent, _, rfl, nextOp_eq_some.2 ⟨t, k, ht, hpc⟩, .inl ⟨rfl, hwas⟩⟩
  | @set e t now sent user status k ht hpc hset =>
    have hop : s.nextOp e = some (.setUserStatus user status) := nextOp_eq_some.2 ⟨t, k, ht, hpc⟩
    by_cases hec : e = c
    · subst hec
      exact .inl ⟨now, sent, _, rfl, hop, .inr ⟨user, status, rfl⟩⟩
    · -- the other session has the name too
      obtain ⟨line, g, -, ⟨⟨-, huser, -⟩, -⟩, -, hname⟩ := hspeaks.handling e t _ ht hpc
      obtain ⟨hactive, hfds⟩ := slot_of_thread ha ht (by simp [Holding, hpc])
      obtain ⟨hslot, hreg⟩ := hspeaks.names hr t.slot e hactive hfds
      have hnameOf : nameOf e s.log = user := by rw [← hname hr, ← huser]
      obtain ⟨hown, hne'⟩ := hspeaks.nameOf_registered hr hset.1 hic
      have huserne : nameOf e s.log ≠ [] := by
        rw [hnameOf, ← hset.2, hown]
        exact hne'
      have hother : Named s.sessions t.slot user :=
        ⟨⟨hactive, hreg.2 huserne⟩, hslot.trans hnameOf⟩
      have hsame := hok _ hop t.slot i hother hset
      rw [hsame, hic] at hfds
      exact absurd (Option.some.inj hfds).symm hec
  | @mark now sent hpc hdue =>
    cases hs with
    | @tick _ _ sessions pending hpc hrun hmark =>
      rw [markLoop_finRange] at hmark
      obtain ⟨rfl, -⟩ := Prod.mk.inj hmark
      obtain ⟨marked, hmarked⟩ := Option.ne_none_iff_exists'.1 hdue
      obtain ⟨rfl, -, -, hidle⟩ := mark_eq_some hmarked
      refine .inr ⟨⟨hpc, hrun, hi, hidle⟩, ?_⟩
      dsimp only
      rw [ticked, hmarked, Option.getD_some]
    | monitorMove => exact absurd rfl hne
    | notify => exact absurd (by simp) hne

/-- A choice that is in force behind an operation was so before, and the operation was not its
    owner's next `STATUS`, or the operation has confirmed it. -/
theorem noteOp_eq_some {sent : Bool} {o : Op} {v : UserStatus}
    (h : noteOp s d sent choices o c = some v) :
    (choices c = some v ∧ (d = c → ∀ user status, o ≠ .setUserStatus user status)) ∨
      d = c ∧ Known s d ∧ ∃ fd buf, o = .send fd buf ∧ statusConfirmed buf = some v := by
  -- the operations that the observer does not note
  have hplain : noteOp s d sent choices o = choices →
      (∀ user status, o ≠ .setUserStatus user status) →
      choices c = some v ∧ (d = c → ∀ user status, o ≠ .setUserStatus user status) := by
    intro hsame ho
    rw [hsame] at h
    exact ⟨h, fun _ => ho⟩
  cases o
  case setUserStatus user status =>
    have hcd : c ≠ d := by
      rintro rfl
      simp [noteOp] at h
    simp only [noteOp, Function.update_of_ne hcd] at h
    exact .inl ⟨h, fun hdc => absurd hdc.symm hcd⟩
  case send fd buf =>
    cases hconfirmed : statusConfirmed buf with
    | none => exact .inl (hplain (by simp only [noteOp, hconfirmed]) nofun)
    | some w =>
      by_cases hsent : sent = true ∧ s.fds fd = some d ∧ Known s d
      · simp only [noteOp, hconfirmed, if_pos hsent] at h
        by_cases hcd : c = d
        · subst hcd
          rw [Function.update_self] at h
          cases h
          exact .inr ⟨rfl, hsent.2.2, fd, buf, rfl, hconfirmed⟩
        · rw [Function.update_of_ne hcd] at h
          exact .inl ⟨h, fun hdc => absurd hdc.symm hcd⟩
      · exact .inl (hplain (by simp only [noteOp, hconfirmed, if_neg hsent]) nofun)
  all_goals exact .inl (hplain rfl nofun)

/-- A choice that is in force behind a step was so before, and the step has not ended it, or the step
    has confirmed it. -/
theorem note_eq_some {l : Label} {v : UserStatus} (h : note s l choices c = some v) :
    (choices c = some v ∧
      (∀ now sent user status, l = .client c (.go now sent) →
        s.nextOp c ≠ some (.setUserStatus user status)) ∧
      ∀ i, Overdue s i l → s.fds (s.sessions i).sockfd ≠ some c) ∨
    ∃ now sent fd buf, l = .client c (.go now sent) ∧ s.nextOp c = some (.send fd buf) ∧
      statusConfirmed buf = some v ∧ Known s c := by
  cases l with
  | monitor now sent =>
    simp only [note] at h
    split at h
    · cases h
    · rename_i hnone
      refine .inl ⟨h, nofun, ?_⟩
      intro i hi hic
      exact hnone ⟨i, hi, hic⟩
  | acceptor _ | signal => exact .inl ⟨h, nofun, nofun⟩
  | client d choice =>
    cases choice with
    | line _ | hangup => exact .inl ⟨h, nofun, nofun⟩
    | go now sent =>
      simp only [note] at h
      cases hop : s.nextOp d with
      | none =>
        rw [hop] at h
        refine .inl ⟨h, ?_, nofun⟩
        intro _ _ user status hl
        cases hl
        rw [hop]
        exact nofun
      | some o =>
        rw [hop] at h
        rcases noteOp_eq_some h with ⟨hold, hset⟩ | ⟨rfl, hknown, fd, buf, rfl, hconfirmed⟩
        · refine .inl ⟨hold, ?_, nofun⟩
          intro _ _ user status hl
          cases hl
          rw [hop]
          exact fun heq => hset rfl user status (Option.some.inj heq)
        · exact .inr ⟨now, sent, fd, buf, rfl, hop, hconfirmed, hknown⟩

/-- Whoever has a choice in force, or confirms one, has a name. -/
theorem Chosen.named_of_note (h : Chosen (s, choices)) (hr : x.Registry) (hspeaks : Speaks x s)
    {l : Label} {v : UserStatus} (hv : note s l choices c = some v) : nameOf c s.log ≠ [] := by
  rcases note_eq_some hv with ⟨hold, -⟩ | ⟨_, _, _, _, -, -, -, i, hi, hic⟩
  · exact h.named c v hold
  · exact (hspeaks.nameOf_registered hr hi hic).2

theorem thread_of_named (hspeaks : Speaks x s) (hnamed : nameOf c s.log ≠ []) :
    ∃ t, s.threads c = some t := by
  cases ht : s.threads c with
  | some t => exact ⟨t, rfl⟩
  | none => exact absurd (hspeaks.unnamed c ht) hnamed

/-- What is in force stays what the table holds. -/
theorem Chosen.persists_step (h : Chosen (s, choices)) (hx : x.KeepsSlots) (hr : x.Registry)
    (hw : x.WritesStatus) (ha : Tracks s a) (hspeaks : Speaks x s) {l : Label}
    (hok : Lasting (s, choices) l) (hs : Step x s l s') : Persists (s', note s l choices) := by
  intro c v hv i hi' hic'
  have hnamed := h.named_of_note hr hspeaks hv
  obtain ⟨t, ht⟩ := thread_of_named hspeaks hnamed
  obtain ⟨hi, hic⟩ := live_slot_of_step hx ha hs ht hi' hic'
  by_contra hne
  rcases note_eq_some hv with ⟨hold, hset, hidle⟩ | ⟨_, _, fd, buf, rfl, hop, hconfirmed, -⟩
  · have hstatus : (s.sessions i).status = v := h.persists c v hold i hi hic
    rw [← hstatus] at hne
    rcases writer_of_step hr hw ha hspeaks hok hs hnamed hi hic hi' hne with
      ⟨now, sent, o, rfl, hop, ⟨rfl, hwas⟩ | ⟨user, status, rfl⟩⟩ | ⟨hdue, -⟩
    · have htouch : choices c ≠ some .inactivo := hok _ hop
      rw [hwas] at hstatus
      rw [hstatus] at htouch
      exact htouch hold
    · exact hset now sent user status rfl hop
    · exact hidle i hdue hic
  · have hstatus : (s.sessions i).status = v := h.pending c _ v hop hconfirmed hnamed i hi hic
    rw [← hstatus] at hne
    rcases writer_of_step hr hw ha hspeaks hok hs hnamed hi hic hi' hne with
      ⟨_, _, o, -, hop', ⟨rfl, -⟩ | ⟨user, status, rfl⟩⟩ | ⟨hdue, -⟩
    · cases hop.symm.trans hop'
    · cases hop.symm.trans hop'
    · cases hdue

/-- A thread that steps stays within its monitor. -/
theorem stating_step (ha : Tracks s a)
    (h : ∀ c t code, s.threads c = some t → t.pc = .handling code → ∃ just, Stating just code)
    {l : Label} (hs : Step x s l s') {t' : Thread} (ht' : s'.threads c = some t')
    {code : ServerProg LoopExit} (hcode : t'.pc = .handling code) :
    ∃ just, Stating just code := by
  by_cases hown : ∃ choice, l = .client c choice
  · obtain ⟨choice, rfl⟩ := hown
    cases handling_cases hs ht' hcode with
    | line ht hpc hlen hline =>
      rw [← hline]
      exact ⟨none, clientLine_stating hlen⟩
    | perform ht hpc hop hnext =>
      obtain ⟨just, -, hsafe⟩ := h c _ _ ht hpc
      rw [← hnext]
      exact ⟨_, hsafe _ trivial⟩
  · rcases thread_of_other ha hs (fun choice e => hown ⟨choice, e⟩) ht' with ht | ⟨-, hstart, -⟩
    · exact h c t' code ht hcode
    · rw [hstart] at hcode
      cases hcode

/-- What a thread is about to confirm it has just written. -/
theorem Chosen.written (h : Chosen (s, choices)) {choice : ClientChoice}
    (hs : Step x s (.client c choice) s') {o : Op} {v : UserStatus} (hop' : s'.nextOp c = some o)
    (hconfirmed : confirmedBy o = some v) :
    ∃ user status, s.nextOp c = some (.setUserStatus user status) ∧
      statusOfString status = some v ∧ s'.log = s.log ∧ s'.fds = s.fds ∧
      s'.sessions = x.setUserStatus s.sessions user status := by
  obtain ⟨t', k', ht', hpc'⟩ := nextOp_eq_some.1 hop'
  cases handling_cases hs ht' hpc' with
  | @line t raw ht hpc hlen hline =>
    have hstating : Stating none (clientLine t.sockfd (cstr raw)) := clientLine_stating hlen
    rw [hline] at hstating
    cases hconfirmed.symm.trans hstating.1
  | @perform t now sent o₀ k r s₁ target ht hpc hop hnext =>
    obtain ⟨just, -, hsafe⟩ := h.handling c t _ ht hpc
    have hstating := hsafe r trivial
    rw [hnext] at hstating
    have hjust := hconfirmed.symm.trans hstating.1
    cases o₀
    case setUserStatus user status =>
      cases hop
      exact ⟨user, status, nextOp_eq_some.2 ⟨t, k, ht, hpc⟩, hjust.symm, rfl, rfl, rfl⟩
    all_goals cases hjust

/-- What is about to be confirmed is what the table holds. -/
theorem Chosen.pending_step (h : Chosen (s, choices)) (hx : x.KeepsSlots) (hr : x.Registry)
    (hw : x.WritesStatus) (ha : Tracks s a) (hspeaks : Speaks x s) {l : Label}
    (hok : Lasting (s, choices) l) (hs : Step x s l s') {o : Op} {v : UserStatus}
    (hop' : s'.nextOp c = some o) (hconfirmed : confirmedBy o = some v)
    (hnamed' : nameOf c s'.log ≠ []) (hi' : (s'.sessions i).isActive = true)
    (hic' : s'.fds (s'.sessions i).sockfd = some c) : (s'.sessions i).status = v := by
  by_cases hown : ∃ choice, l = .client c choice
  · obtain ⟨choice, rfl⟩ := hown
    obtain ⟨user, status, hop, hv, hlog, hfds, hsessions⟩ := h.written hs hop' hconfirmed
    rw [hlog] at hnamed'
    rw [hsessions] at hi' hic' ⊢
    rw [hfds, hx.setUserStatus_sockfd] at hic'
    rw [hx.setUserStatus_isActive] at hi'
    obtain ⟨t, k, ht, hpc⟩ := nextOp_eq_some.1 hop
    obtain ⟨line, g, -, ⟨⟨-, huser, -⟩, -⟩, -, hname⟩ := hspeaks.handling c t _ ht hpc
    have hnameOf : nameOf c s.log = user := by rw [← hname hr, ← huser]
    obtain ⟨hslot, hreg⟩ := hspeaks.names hr i c hi' hic'
    have hset : Named s.sessions i user := ⟨⟨hi', hreg.2 hnamed'⟩, hslot.trans hnameOf⟩
    rw [hnameOf] at hnamed'
    refine hw.setUserStatus_named s.sessions user status i v hnamed' hset ?_ hv
    have hunique : LastingOp s (choices c) (.setUserStatus user status) := by
      cases choice with
      | go now sent => exact hok _ hop
      | line raw =>
        cases hs with
        | line ht' hpc' =>
          obtain rfl := Option.some.inj (ht.symm.trans ht')
          cases hpc.symm.trans hpc'
      | hangup =>
        cases hs with
        | hangup ht' hpc' =>
          obtain rfl := Option.some.inj (ht.symm.trans ht')
          cases hpc.symm.trans hpc'
    exact fun j hj => hunique j i hj hset
  · have hl : ∀ choice, l ≠ .client c choice := fun choice e => hown ⟨choice, e⟩
    obtain ⟨t', k', ht', hpc'⟩ := nextOp_eq_some.1 hop'
    rcases thread_of_other ha hs hl ht' with ht | ⟨-, hstart, -⟩
    · have hop : s.nextOp c = some o := nextOp_eq_some.2 ⟨t', k', ht, hpc'⟩
      rw [(memory_of_step hs hl).1] at hnamed'
      obtain ⟨hi, hic⟩ := live_slot_of_step hx ha hs ht hi' hic'
      have hstatus : (s.sessions i).status = v := h.pending c o v hop hconfirmed hnamed' i hi hic
      by_cases hsame : (s'.sessions i).status = (s.sessions i).status
      · exact hsame.trans hstatus
      · rcases writer_of_step hr hw ha hspeaks hok hs hnamed' hi hic hi' hsame with
          ⟨now, sent, _, rfl, -⟩ | ⟨hdue, hidle⟩
        · exact absurd rfl (hl _)
        · cases l with
          | monitor now sent =>
            have hinactive : v = .inactivo := hok i hdue c hic o hop v hconfirmed
            rw [hidle, hinactive]
          | acceptor _ | client _ _ | signal => cases hdue
    · rw [hstart] at hpc'
      cases hpc'

theorem chosen_init (timeout : Int) : Chosen (serverInit timeout, fun _ => none) where
  persists _ _ hv := by cases hv
  named _ _ hv := by cases hv
  handling _ _ _ ht := by cases ht
  pending _ _ _ hop := by cases hop

theorem chosen_reach (hx : x.KeepsSlots) (hr : x.Registry) (hw : x.WritesStatus) {timeout : Int}
    {p : Server × Choices} (hp : (chosenSystem x timeout).ReachUnder Lasting p) : Chosen p := by
  refine hp.invariant (P := Chosen) (chosen_init timeout) ?_
  rintro ⟨s, choices⟩ l ⟨s', choices'⟩ hreach h hok hl
  obtain ⟨hl, hnote⟩ := System.observed_step hl
  obtain rfl : choices' = note s l choices := hnote
  have hstep : Step x s l s' := step_cases hl
  have hrun : (serverSystem x timeout).Reach s := hreach.of_observed
  obtain ⟨a, ha, hspeaks⟩ := speaks_reach hx hrun
  have hspeaks' := speaks_step hx hspeaks ha hstep
  refine ⟨h.persists_step hx hr hw ha hspeaks hok hstep, ?_, ?_, ?_⟩
  · intro c v hv
    exact (gate_mono hspeaks' hstep).1 (h.named_of_note hr hspeaks hv)
  · intro c t code ht hcode
    exact stating_step ha h.handling hstep ht hcode
  · intro c o v hop hconfirmed hnamed i hi hic
    exact h.pending_step hx hr hw ha hspeaks hok hstep hop hconfirmed hnamed hi hic

/-- In a run in which no line is received behind a chosen `INACTIVO`, statuses are written under
    names that one session has, and no tick finds a session idle whose status is about to be
    confirmed, every status that was confirmed stays until the next one is accepted or a tick finds
    the session idle. -/
theorem persists_of_lasting (hx : x.KeepsSlots) (hr : x.Registry) (hw : x.WritesStatus)
    {timeout : Int} {p : Server × Choices}
    (hp : (chosenSystem x timeout).ReachUnder Lasting p) : Persists p :=
  (chosen_reach hx hr hw hp).persists

/-- A user is busy, and goes on sending lines. -/
theorem persists_busyAna :
    ∃ p, (chosenSystem managerExterns 60).runIf (fun p l => decide (Lasting p l))
        (serverInit 60, fun _ => none) (connects 4 ++ turns 0 3 ++ writes 0 "REGISTER|ana\n" 9 ++
          writes 0 "STATUS|OCUPADO\n" 10 ++ writes 0 "PING\n" 5) = some p ∧ Persists p := by
  have hrun : ((chosenSystem managerExterns 60).runIf (fun p l => decide (Lasting p l))
      (serverInit 60, fun _ => none) (connects 4 ++ turns 0 3 ++ writes 0 "REGISTER|ana\n" 9 ++
        writes 0 "STATUS|OCUPADO\n" 10 ++ writes 0 "PING\n" 5)).isSome = true := by
    decide +kernel
  obtain ⟨p, hp⟩ := Option.isSome_iff_exists.1 hrun
  refine ⟨p, hp, persists_of_lasting managerExterns_keepsSlots managerExterns_registry
    managerExterns_writesStatus (System.ReachUnder.init.runIf ?_ hp)⟩
  exact fun _ _ _ h => of_decide_eq_true h

/-- A user asks for `INACTIVO`, is told `STATUS_OK|INACTIVO`, and sends a `PING`. -/
theorem inactiveAna_taken_back :
    ¬ ∀ (x : Externs) (timeout : Int) (p : Server × Choices), x.KeepsSlots → x.Registry →
      x.WritesStatus → (chosenSystem x timeout).Reach p → Persists p := by
  intro h
  obtain ⟨p, hp, hq⟩ := System.exists_reach_of_run (S := chosenSystem managerExterns 60)
    (connects 4 ++ turns 0 3 ++ writes 0 "REGISTER|ana\n" 9 ++
      writes 0 "STATUS|INACTIVO\n" 10 ++ writes 0 "PING\n" 5)
    (fun p => decide ((p.2 0 = some .inactivo ∧ (p.1.sessions 0).status = .activo) ∧
      (p.1.sessions 0).isActive = true ∧ p.1.fds (p.1.sessions 0).sockfd = some 0))
    (by decide +kernel)
  obtain ⟨⟨hchosen, hstatus⟩, hactive, hfd⟩ := of_decide_eq_true hq
  have hclaimed := h managerExterns 60 p managerExterns_keepsSlots managerExterns_registry
    managerExterns_writesStatus hp 0 .inactivo hchosen 0 hactive hfd
  rw [hstatus] at hclaimed
  cases hclaimed

end Server

end ChatMultithread
