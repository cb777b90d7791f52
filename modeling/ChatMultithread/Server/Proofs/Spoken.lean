import ChatMultithread.Server.Proofs.Log
import ChatMultithread.Server.Proofs.Speech

/-!
# What every run says

The threads of a running server stay within their monitors, and the table holds the names that
the log remembers. So every string in the log is accounted for: it is a reply to the connection
of the thread that sent it, an event that the last line of that connection makes for others, or a
notice of the monitor.
-/

namespace ChatMultithread

open Lib

namespace Server

/-- An event that a line makes for the other users, with the name of its sender. -/
inductive EventLine (name line : Bytes) : Bytes → Prop
  | deliver (h : lineCommand line = .msg) :
      EventLine name line (buildDeliver maxMsg name (field line 2))
  | broadcast (h : lineCommand line = .broadcast) :
      EventLine name line (buildBroadcastFrom maxMsg name (field line 2))
  | statusChanged (h : lineCommand line = .status) (hvalid : isValidStatus (field line 1) = true) :
      EventLine name line (buildStatusChanged maxMsg name (field line 1))

/-- The account of an entry of the log. -/
def Spoken (x : Externs) (past : List Event) : Event → Prop
  | .delivered (.client c) _ dst buf =>
      ∃ name, (x.Registry → name = nameOf c past) ∧
        (dst = c ∧ Reply x.Plain (∃ line, lastLine c past = some line ∧ QuitLine line) name buf ∨
          ∃ line, lastLine c past = some line ∧ EventLine name line buf)
  | .delivered .monitor _ _ buf =>
      ∃ name, buf = inactivityNotice name ∧
        (x.Registry → name = [] ∨ isValidUsername name = true)
  | .named c user =>
      isValidUsername user = true ∧
        ∃ line, lastLine c past = some line ∧ lineCommand line = .register ∧ user = field line 1
  | .received _ _ | .closed _ _ => True

/-- The invariant. -/
structure Speaks (x : Externs) (s : Server) : Prop where
  handling : ∀ c t code, s.threads c = some t → t.pc = .handling code →
    ∃ line g, lastLine c s.log = some line ∧
      (lineMonitor x.Plain t.slot t.sockfd line).Safe (fun _ _ => True) g code ∧
      g.target = t.target.map Prod.fst ∧ (x.Registry → g.name = nameOf c s.log)
  idle : ∀ c t, s.threads c = some t → (∀ code, t.pc ≠ .handling code) → t.target = none
  unnamed : ∀ c, s.threads c = none → nameOf c s.log = []
  valid : ∀ c user, .named c user ∈ s.log → isValidUsername user = true
  adding : ∀ fd c session, s.accept = .adding fd c session →
    session.username = [] ∧ session.isRegistered = false
  names : x.Registry → ∀ i c, (s.sessions i).isActive = true →
    s.fds (s.sessions i).sockfd = some c →
    (s.sessions i).username = nameOf c s.log ∧
      ((s.sessions i).isRegistered = true ↔ nameOf c s.log ≠ [])
  pending : ∀ ns, s.monitor = .sending ns → ∀ n ∈ ns, ∃ name, n.text = inactivityNotice name ∧
    (x.Registry → name = [] ∨ isValidUsername name = true)
  spoken : x.Broadcasts → Justified (Spoken x) s.log

variable {x : Externs} {s s' : Server} {a : Lives} {c : Conn} {t : Thread}

/-! ## Names -/

theorem Speaks.nameOf_valid (h : Speaks x s) (c : Conn) :
    nameOf c s.log = [] ∨ isValidUsername (nameOf c s.log) = true := by
  by_cases hname : nameOf c s.log = []
  · exact .inl hname
  · exact .inr (h.valid c _ (named_of_nameOf hname))

/-- Every name in the table is empty or valid. -/
theorem Speaks.username_valid (h : Speaks x s) (ha : Tracks s a) (hr : x.Registry) {i : Slot}
    (hi : (s.sessions i).isActive = true) :
    (s.sessions i).username = [] ∨ isValidUsername (s.sessions i).username = true := by
  obtain ⟨c, hc⟩ := ha.active_placed hi
  rw [(h.names hr i c hi (ha.fds_placed hc)).1]
  exact h.nameOf_valid c

/-- The names of registered sessions are valid. -/
theorem Speaks.registered_valid (h : Speaks x s) (ha : Tracks s a) (hr : x.Registry) {i : Slot}
    (hi : Registered s.sessions i) : isValidUsername (s.sessions i).username = true := by
  obtain ⟨c, hc⟩ := ha.active_placed hi.1
  obtain ⟨hname, hreg⟩ := h.names hr i c hi.1 (ha.fds_placed hc)
  rw [hname]
  exact (h.nameOf_valid c).resolve_left (hreg.1 hi.2)

/-- A registered session has the name of its connection, which is not empty. -/
theorem Speaks.nameOf_registered (h : Speaks x s) (hr : x.Registry) {i : Slot}
    (hi : Registered s.sessions i) (hfd : s.fds (s.sessions i).sockfd = some c) :
    (s.sessions i).username = nameOf c s.log ∧ nameOf c s.log ≠ [] := by
  obtain ⟨hname, hreg⟩ := h.names hr i c hi.1 hfd
  exact ⟨hname, hreg.1 hi.2⟩

/-- The session of a thread has the name that the log remembers. -/
theorem Speaks.username_eq (h : Speaks x s) (ha : Tracks s a) (hr : x.Registry)
    (ht : s.threads c = some t) (hold : Holding t) :
    (s.sessions t.slot).username = nameOf c s.log := by
  have hc := ha.placed ht hold
  exact (h.names hr t.slot c (ha.sockfd_placed hc).1 (ha.fds_placed hc)).1

/-! ## Operations -/

/-- The environment answers as the monitor expects, and the ghost state keeps describing the
    thread. -/
theorem Speaks.perform (h : Speaks x s) (ha : Tracks s a) (ht : s.threads c = some t)
    (hold : Holding t) (hstart : t.pc ≠ .start) {line : Bytes} {g : Ghost} {now : Int}
    {sent : Bool} {o : Op} {r : o.Resp} {target : Option (Int × Option Conn)}
    (htarget : g.target = t.target.map Prod.fst) (hname : x.Registry → g.name = nameOf c s.log)
    (hallow : (lineMonitor x.Plain t.slot t.sockfd line).allows g o)
    (hop : s.perform x c t now sent o = some (r, s', target)) :
    (lineMonitor x.Plain t.slot t.sockfd line).answers g o r ∧
      ((lineMonitor x.Plain t.slot t.sockfd line).next g o r).target = target.map Prod.fst ∧
      (x.Registry → ((lineMonitor x.Plain t.slot t.sockfd line).next g o r).name =
        nameOf c s'.log) := by
  have hmem := (memory_perform (d := c) hop).2
  cases o
  case sessionsFindBySockfd fd =>
    cases hop
    obtain rfl : fd = t.sockfd := hallow
    exact ⟨ha.find_placed (ha.placed_sockfd ht hold hstart), htarget, hname⟩
  case readSockfd =>
    cases hop
    exact ⟨ha.sockfd_eq ht hold hstart, htarget, hname⟩
  case readUsername =>
    cases hop
    exact ⟨trivial, htarget, fun hr => h.username_eq ha hr ht hold⟩
  case usernameExists user =>
    cases hop
    refine ⟨fun hp hexists => ?_, htarget, hname⟩
    by_cases huser : user = []
    · exact .inl huser
    · obtain ⟨i, hi, rfl⟩ := (hp.1.usernameExists_iff s.sessions user huser).1 hexists
      exact .inr (h.registered_valid ha hp.1 hi)
  case findUserFd user =>
    cases hop
    refine ⟨fun hp hpos => ?_, ?_, hname⟩
    · obtain ⟨i, ⟨hi, rfl⟩, -⟩ := hp.2.1.findUserFd_named s.sessions user hpos
      exact h.registered_valid ha hp.1 hi
    · simp only [lineMonitor]
      split
      · rfl
      · exact htarget
  case getAllUsers n =>
    cases hop
    refine ⟨fun hp => hp.2.2.getAllUsers_plain _ _ fun i hi => ?_, htarget, hname⟩
    exact not_mem_newline_of_valid (h.registered_valid ha hp.1 hi)
  case getUserInfo user =>
    cases hop
    exact ⟨fun hp ip status => hp.2.2.getUserInfo_plain _ _ ip status, htarget, hname⟩
  case addSession user fd =>
    cases hop
    refine ⟨trivial, htarget, fun _ => ?_⟩
    rw [hmem]
    simp [lineMonitor]
  case send fd buf =>
    cases hop
    refine ⟨trivial, ?_, fun hr => ?_⟩
    · simp only [lineMonitor, htarget]
      split <;> rfl
    · exact (hname hr).trans hmem.symm
  case undefinedBehaviour => cases hop
  case broadcastAll msg =>
    cases hop
    exact ⟨trivial, htarget, fun hr => (hname hr).trans hmem.symm⟩
  case broadcastExcept msg fd =>
    cases hop
    exact ⟨trivial, htarget, fun hr => (hname hr).trans hmem.symm⟩
  all_goals
    cases hop
    exact ⟨trivial, htarget, hname⟩

/-! ## Threads -/

/-- A thread that steps stays within its monitor, and holds a descriptor to send to only while it
    handles a line. -/
theorem Speaks.own_thread (h : Speaks x s) (ha : Tracks s a) {choice : ClientChoice}
    (hs : Step x s (.client c choice) s') {t' : Thread} (ht' : s'.threads c = some t') :
    (∀ code, t'.pc = .handling code → ∃ line g, lastLine c s'.log = some line ∧
      (lineMonitor x.Plain t'.slot t'.sockfd line).Safe (fun _ _ => True) g code ∧
      g.target = t'.target.map Prod.fst ∧ (x.Registry → g.name = nameOf c s'.log)) ∧
      ((∀ code, t'.pc ≠ .handling code) → t'.target = none) := by
  cases hs with
  | @line _ t raw ht hpc hraw =>
    rw [setThread_threads_self] at ht'
    cases ht'
    refine ⟨fun code hcode => ?_, fun hno => absurd rfl (hno _)⟩
    cases hcode
    have hlen := length_cstr_frame hraw
    have htarget : t.target = none := h.idle c t ht fun code => by rw [hpc]; simp
    refine ⟨cstr raw, ⟨nameOf c s.log, none, none⟩, ?_, clientLine_safe hlen, ?_, fun _ => ?_⟩
    · simp
    · simp [htarget]
    · simp
  | @perform _ t now sent o k r s₁ target ht hpc hop =>
    rw [setThread_threads_self] at ht'
    cases ht'
    refine ⟨fun code hcode => ?_, fun hno => absurd rfl (hno _)⟩
    cases hcode
    obtain ⟨line, g, hline, ⟨hallow, hsafe⟩, htarget, hname⟩ := h.handling c t _ ht hpc
    have hold : Holding t := by simp [Holding, hpc]
    have hstart : t.pc ≠ .start := by simp [hpc]
    obtain ⟨hans, htarget', hname'⟩ :=
      h.perform ha ht hold hstart htarget hname hallow hop
    refine ⟨line, _, ?_, hsafe r hans, htarget', hname'⟩
    rw [setThread_log, (memory_perform (d := c) hop).1]
    exact hline
  | start ht hpc | welcome ht hpc | welcomeFailed ht hpc | hangup ht hpc | remove ht hpc
  | removeInvalid ht hpc | removeMissing ht hpc | close ht hpc =>
    have hidle := h.idle c _ ht fun code => by rw [hpc]; simp
    rw [setThread_threads_self] at ht'
    cases ht'
    exact ⟨fun code hcode => (by cases hcode), fun _ => hidle⟩
  | turn ht hpc hto =>
    have hidle := h.idle c _ ht fun code => by rw [hpc]; simp
    rw [setThread_threads_self] at ht'
    cases ht'
    refine ⟨fun code hcode => ?_, fun _ => hidle⟩
    rcases hto with ⟨-, rfl⟩ | ⟨-, rfl⟩ <;> cases hcode
  | continue_ ht hpc | break_ ht hpc =>
    rw [setThread_threads_self] at ht'
    cases ht'
    exact ⟨fun code hcode => (by cases hcode), fun _ => rfl⟩

/-- The same for all threads. -/
theorem Speaks.threads_step (h : Speaks x s) (ha : Tracks s a) {l : Label} (hs : Step x s l s')
    {t' : Thread} (ht' : s'.threads c = some t') :
    (∀ code, t'.pc = .handling code → ∃ line g, lastLine c s'.log = some line ∧
      (lineMonitor x.Plain t'.slot t'.sockfd line).Safe (fun _ _ => True) g code ∧
      g.target = t'.target.map Prod.fst ∧ (x.Registry → g.name = nameOf c s'.log)) ∧
      ((∀ code, t'.pc ≠ .handling code) → t'.target = none) := by
  by_cases hown : ∃ choice, l = .client c choice
  · obtain ⟨choice, rfl⟩ := hown
    exact h.own_thread ha hs ht'
  · have hl : ∀ choice, l ≠ .client c choice := fun choice e => hown ⟨choice, e⟩
    obtain ⟨hname, hline⟩ := memory_of_step hs hl
    rcases thread_of_other ha hs hl ht' with ht | ⟨-, hpc, htarget⟩
    · rw [hname, hline]
      exact ⟨fun code hcode => h.handling c t' code ht hcode, h.idle c t' ht⟩
    · refine ⟨fun code hcode => ?_, fun _ => htarget⟩
      rw [hpc] at hcode
      cases hcode

/-! ## The table -/

/-- What the invariant says of a session. -/
def identity (session : ClientSession) : Bool × Int × Bytes × Bool :=
  (session.isActive, session.sockfd, session.username, session.isRegistered)

/-- The part of the invariant about the table. -/
def NamesOk (s : Server) : Prop :=
  ∀ i c, (s.sessions i).isActive = true → s.fds (s.sessions i).sockfd = some c →
    (s.sessions i).username = nameOf c s.log ∧
      ((s.sessions i).isRegistered = true ↔ nameOf c s.log ≠ [])

/-- A step that leaves the identities of the sessions alone or clears them, opens no descriptor
    and names nobody. -/
theorem NamesOk.keep (h : NamesOk s)
    (hid : ∀ i, (s'.sessions i).isActive = false ∨
      identity (s'.sessions i) = identity (s.sessions i))
    (hfds : ∀ fd c, s'.fds fd = some c → s.fds fd = some c)
    (hname : ∀ c, nameOf c s'.log = nameOf c s.log) : NamesOk s' := by
  intro i c hi hc
  rcases hid i with hoff | hid
  · rw [hoff] at hi
    cases hi
  · simp only [identity, Prod.mk.injEq] at hid
    obtain ⟨hactive, hfd, huser, hreg⟩ := hid
    rw [hactive] at hi
    rw [hfd] at hc
    rw [huser, hreg, hname]
    exact h i c hi (hfds _ _ hc)

theorem identity_update {t : Sessions} {i : Slot} {session : ClientSession}
    (h : session.isActive = false ∨ identity session = identity (t i)) (j : Slot) :
    (Function.update t i session j).isActive = false ∨
      identity (Function.update t i session j) = identity (t j) := by
  by_cases hj : j = i
  · subst hj
    simpa using h
  · rw [Function.update_of_ne hj]
    exact .inr rfl

theorem identity_touched (session : ClientSession) (now : Int) :
    identity (touched session now) = identity session := by
  unfold touched
  split <;> rfl

/-- `add_session` names the session of the thread that calls it. -/
theorem names_addSession (hr : x.Registry) (h : NamesOk s) (ha : Tracks s a) {i : Slot} {fd : Int}
    (hc : a.stage c = .placed fd i) {user : Bytes} (huser : user ≠ []) :
    NamesOk { s with
      sessions := x.addSession s.sessions user fd
      log := .named c user :: s.log } := by
  intro j d hj hd
  have heq : x.addSession s.sessions user fd = _ := hr.addSession_eq _ user fd i (ha.onlyAt hc)
  simp only [heq, nameOf_named] at hj hd ⊢
  by_cases hji : j = i
  · subst hji
    rw [Function.update_self] at hd ⊢
    have hown : s.fds (s.sessions j).sockfd = some c := by
      rw [(ha.sockfd_placed hc).2]
      exact ha.fds_placed hc
    obtain rfl : c = d := Option.some.inj (hown.symm.trans hd)
    simp [huser]
  · rw [Function.update_of_ne hji] at hj hd ⊢
    have hcd : c ≠ d := by
      rintro rfl
      obtain ⟨d, hplaced⟩ := ha.active_placed hj
      obtain rfl : d = c := Option.some.inj ((ha.fds_placed hplaced).symm.trans hd)
      rw [hc] at hplaced
      cases hplaced
      exact hji rfl
    rw [if_neg hcd]
    exact h j d hj hd

/-- The operations of a thread keep the table in step with the log. -/
theorem Speaks.names_perform (hx : x.KeepsSlots) (h : Speaks x s) (ha : Tracks s a)
    (hr : x.Registry) (ht : s.threads c = some t) (hold : Holding t) (hstart : t.pc ≠ .start) {line : Bytes}
    {g : Ghost} {now : Int} {sent : Bool} {o : Op} {r : o.Resp}
    {target : Option (Int × Option Conn)}
    (hallow : (lineMonitor x.Plain t.slot t.sockfd line).allows g o)
    (hop : s.perform x c t now sent o = some (r, s', target)) : NamesOk s' := by
  have hnames : NamesOk s := h.names hr
  have hmem := fun d => (memory_perform (d := d) hop).2
  cases o
  case undefinedBehaviour => cases hop
  case addSession user fd =>
    cases hop
    obtain ⟨rfl, -, -, hvalid, -⟩ := hallow
    exact names_addSession hr hnames ha (ha.placed_sockfd ht hold hstart)
      (isValidUsername_iff.1 hvalid).1
  case touchActivity i =>
    cases hop
    refine hnames.keep (identity_update (.inr (identity_touched _ _))) (fun _ _ hfd => hfd) hmem
  case setUserStatus user status =>
    cases hop
    refine hnames.keep (fun i => .inr ?_) (fun _ _ hfd => hfd) hmem
    simp only [identity, hx.setUserStatus_isActive, hx.setUserStatus_sockfd,
      hr.setUserStatus_username, hr.setUserStatus_isRegistered]
  case broadcastAll msg =>
    cases hop
    exact hnames.keep (fun i => .inr (by rw [deliverAll_eq]))
      (by rw [deliverAll_eq]; exact fun _ _ hfd => hfd) hmem
  case broadcastExcept msg fd =>
    cases hop
    exact hnames.keep (fun i => .inr (by rw [deliverAll_eq]))
      (by rw [deliverAll_eq]; exact fun _ _ hfd => hfd) hmem
  case send fd buf =>
    cases hop
    refine hnames.keep (fun i => .inr ?_) ?_ hmem
    · split
      · rw [deliver_sessions]
      · rfl
    · split
      · rw [deliver_fds]; exact fun _ _ hfd => hfd
      · exact fun _ _ hfd => hfd
  all_goals
    cases hop
    exact hnames

/-- Every step keeps the table in step with the log. -/
theorem Speaks.names_step (hx : x.KeepsSlots) (h : Speaks x s) (ha : Tracks s a)
    (hr : x.Registry) {l : Label} (hs : Step x s l s') : NamesOk s' := by
  have hnames : NamesOk s := h.names hr
  cases hs with
  | start | welcomeFailed | turn | line | hangup | continue_ | break_ | removeMissing
  | acceptMove | addFull | findNone | find | create | createFailed | undoMissing | monitorMove
  | signal => exact hnames.keep (fun _ => .inr rfl) (fun _ _ hfd => hfd) fun _ => rfl
  | welcome | notify =>
    refine hnames.keep (fun _ => .inr (by simp)) (by simp) fun d => ?_
    exact (memory_deliver _ _ _ _ _ d).1
  | perform ht hpc hop =>
    obtain ⟨line, g, -, ⟨hallow, -⟩, -⟩ := h.handling _ _ _ ht hpc
    have hkeep := h.names_perform hx ha hr ht (by simp [Holding, hpc]) (by simp [hpc]) hallow hop
    exact hkeep
  | remove | removeInvalid | undo | undoInvalid =>
    exact hnames.keep (identity_update (.inl rfl)) (fun _ _ hfd => hfd) fun _ => rfl
  | store => exact hnames.keep (identity_update (.inr rfl)) (fun _ _ hfd => hfd) fun _ => rfl
  | close | reject | undoClose =>
    refine hnames.keep (fun _ => .inr rfl) (fun fd d hfd => ?_) fun _ => rfl
    change Function.update s.fds _ none fd = some d at hfd
    rw [Function.update_apply] at hfd
    split at hfd
    · cases hfd
    · exact hfd
  | @tick now _ _ _ hpc hrun hmark =>
    refine hnames.keep (fun i => .inr ?_) (fun _ _ hfd => hfd) fun _ => rfl
    have := markLoop_frame identity (fun _ => rfl) s.fds now s.inactivityTimeoutSeconds
      (List.finRange maxClients) s.sessions [] i
    rwa [hmark] at this
  | @connection fd addr now hpc hfd hfree =>
    intro i d hi hd
    have hne : (s.sessions i).sockfd ≠ fd := by
      intro heq
      obtain ⟨c, hc⟩ := ha.active_placed hi
      rw [← heq, ha.fds_placed hc] at hfree
      cases hfree
    change Function.update s.fds fd _ (s.sessions i).sockfd = some d at hd
    rw [Function.update_of_ne hne] at hd
    exact hnames i d hi hd
  | @add fd c session i hpc hfree =>
    obtain ⟨hst, hnone⟩ := ha.accept c (.opened fd) (by rw [hpc]; rfl)
    obtain ⟨hname, hreg⟩ := h.adding fd c session hpc
    intro j d hj hd
    dsimp only at hj hd ⊢
    by_cases hji : j = i
    · subst hji
      rw [Function.update_self] at hd ⊢
      have hown : s.fds fd = some c := by
        rw [← ha.owner, ha.inv.owner_iff, hst]
        rfl
      rw [ha.adding fd c session hpc, hown] at hd
      obtain rfl := Option.some.inj hd
      simp [hname, hreg, h.unnamed c hnone]
    · rw [Function.update_of_ne hji] at hj hd ⊢
      exact hnames j d hj hd

/-! ## The log -/

/-- A name gets into the log only by `add_session`, called under the monitor. -/
theorem Speaks.valid_step (h : Speaks x s) {l : Label} (hs : Step x s l s') {user : Bytes}
    (hmem : .named c user ∈ s'.log) : isValidUsername user = true := by
  rcases named_of_step hs hmem with hold | ⟨now, sent, fd, -, hop⟩
  · exact h.valid c user hold
  · obtain ⟨t, k, ht, hpc⟩ := nextOp_eq_some.1 hop
    obtain ⟨line, g, -, ⟨hallow, -⟩, -⟩ := h.handling c t _ ht hpc
    exact hallow.2.2.2.1

theorem thread_of_client_step {choice : ClientChoice} (hs : Step x s (.client c choice) s') :
    ∃ t, s.threads c = some t := by
  cases hs with
  | start ht | welcome ht | welcomeFailed ht | turn ht | line ht | hangup ht | perform ht
  | continue_ ht | break_ ht | remove ht | removeInvalid ht | removeMissing ht | close ht =>
    exact ⟨_, ht⟩

/-- A connection without a thread stays nameless. -/
theorem Speaks.unnamed_step (h : Speaks x s) (ha : Tracks s a) {l : Label} (hs : Step x s l s')
    (hnone : s'.threads c = none) : nameOf c s'.log = [] := by
  have hold : s.threads c = none := by
    cases ht : s.threads c with
    | none => rfl
    | some t =>
      by_cases hown : ∃ choice, l = .client c choice
      · obtain ⟨choice, rfl⟩ := hown
        obtain ⟨t', ht', -⟩ := own_step hs ht
        rw [hnone] at ht'
        cases ht'
      · rw [threads_of_step ha hs ht fun choice e => hown ⟨choice, e⟩] at hnone
        cases hnone
  have hl : ∀ choice, l ≠ .client c choice := by
    rintro choice rfl
    obtain ⟨t, ht⟩ := thread_of_client_step hs
    rw [hold] at ht
    cases ht
  rw [(memory_of_step hs hl).1]
  exact h.unnamed c hold

/-- The accept loop fills in a nameless record. -/
theorem Speaks.adding_step (h : Speaks x s) {l : Label} (hs : Step x s l s') {fd : Int}
    {session : ClientSession} (hpc : s'.accept = .adding fd c session) :
    session.username = [] ∧ session.isRegistered = false := by
  cases hs with
  | connection =>
    cases hpc
    exact ⟨rfl, rfl⟩
  | acceptMove hfrom hto => rcases hto with rfl | rfl | rfl <;> cases hpc
  | addFull | add | reject | findNone | find | create | createFailed | undoMissing | undo
  | undoInvalid | undoClose | store => cases hpc
  | perform ht hpc' hop =>
    rw [setThread_accept, perform_frame hop] at hpc
    exact h.adding fd c session hpc
  | welcome | notify =>
    refine h.adding fd c session ?_
    simpa using hpc
  | start | welcomeFailed | turn | line | hangup | continue_ | break_ | remove | removeInvalid
  | removeMissing | close | tick | monitorMove | signal => exact h.adding fd c session hpc

/-- What the monitor has prepared are notices about the sessions of the table. -/
theorem Speaks.pending_step (h : Speaks x s) (ha : Tracks s a) {l : Label} (hs : Step x s l s')
    {ns : List Notification} (hpc : s'.monitor = .sending ns) {n : Notification} (hn : n ∈ ns) :
    ∃ name, n.text = inactivityNotice name ∧
      (x.Registry → name = [] ∨ isValidUsername name = true) := by
  cases hs with
  | @tick now _ _ _ htick hrun hmark =>
    cases hpc
    have hmarked := markLoop_pending (P := fun n => ∃ name, n.text = inactivityNotice name ∧
      (x.Registry → name = [] ∨ isValidUsername name = true)) s.fds now
      s.inactivityTimeoutSeconds (List.finRange maxClients) (t := s.sessions)
      (fun i hi => ⟨_, rfl, fun hr => h.username_valid ha hr hi⟩)
      fun n hn => absurd hn List.not_mem_nil
    rw [hmark] at hmarked
    exact hmarked n hn
  | monitorMove hmove =>
    rcases hmove with ⟨-, -, rfl⟩ | ⟨-, rfl⟩ | ⟨m, rest, hold, rfl⟩
    · cases hpc
    · cases hpc
    · cases hpc
      exact h.pending _ hold n (List.mem_cons_of_mem _ hn)
  | notify hold =>
    cases hpc
    exact h.pending _ hold n (List.mem_cons_of_mem _ hn)
  | perform ht hpc' hop =>
    rw [setThread_monitor, perform_frame hop] at hpc
    exact h.pending ns hpc n hn
  | welcome =>
    rw [setThread_monitor, deliver_monitor] at hpc
    exact h.pending ns hpc n hn
  | start | welcomeFailed | turn | line | hangup | continue_ | break_ | remove | removeInvalid
  | removeMissing | close | acceptMove | connection | addFull | add | reject | findNone | find
  | create | createFailed | undoMissing | undo | undoInvalid | undoClose | store | signal =>
    exact h.pending ns hpc n hn

/-- The deliveries of a broadcast are spoken when the string is an event of the last line. -/
theorem spoken_deliverAll {line name msg : Bytes} {sends : List (Int × Bytes)}
    (hspoken : Justified (Spoken x) s.log) (hline : lastLine c s.log = some line)
    (hname : x.Registry → name = nameOf c s.log) (hevent : EventLine name line msg)
    (hsends : ∀ p ∈ sends, p.2 = msg) :
    Justified (Spoken x) (s.deliverAll (.client c) sends).log := by
  rw [deliverAll_log]
  refine hspoken.append fun e he between hbetween => ?_
  obtain ⟨p, hp, dst, -, rfl⟩ := mem_deliveries.1 he
  obtain ⟨hnames, hlines⟩ := memory_append (fun e' he' => by
    obtain ⟨p', -, dst', -, rfl⟩ := mem_deliveries.1 (hbetween e' he')
    exact ⟨_, _, _, _, rfl⟩) c s.log
  refine ⟨name, fun hr => (hname hr).trans hnames.symm, .inr ⟨line, hlines.trans hline, ?_⟩⟩
  rw [hsends p hp]
  exact hevent

/-- What an operation of a thread writes is a reply to its own connection, or an event of its
    line. -/
theorem Speaks.spoken_perform (h : Speaks x s) (ha : Tracks s a) (hb : x.Broadcasts)
    (ht : s.threads c = some t) (hold : Holding t) (hstart : t.pc ≠ .start) {line : Bytes}
    {g : Ghost} {now : Int} {sent : Bool} {o : Op} {r : o.Resp}
    {target : Option (Int × Option Conn)} (hline : lastLine c s.log = some line)
    (hname : x.Registry → g.name = nameOf c s.log)
    (hallow : (lineMonitor x.Plain t.slot t.sockfd line).allows g o)
    (hop : s.perform x c t now sent o = some (r, s', target)) :
    Justified (Spoken x) s'.log := by
  have hspoken := h.spoken hb
  cases o
  case undefinedBehaviour => cases hop
  case addSession user fd =>
    cases hop
    exact ⟨⟨hallow.2.2.2.1, line, hline, hallow.2.1, hallow.2.2.1⟩, hspoken⟩
  case broadcastAll msg =>
    cases hop
    obtain ⟨hcmd, rfl⟩ := hallow
    exact spoken_deliverAll hspoken hline hname (.broadcast hcmd)
      fun p hp => ((hb.mem_broadcastAll _ _ p).1 hp).1
  case broadcastExcept msg fd =>
    cases hop
    obtain ⟨-, hcmd, hvalid, rfl⟩ := hallow
    exact spoken_deliverAll hspoken hline hname (.statusChanged hcmd hvalid)
      fun p hp => ((hb.mem_broadcastExcept _ _ _ p).1 hp).1
  case send fd buf =>
    cases hop
    split
    · rw [deliver_log]
      split
      · exact hspoken
      · rename_i dst hdst
        refine ⟨⟨g.name, hname, ?_⟩, hspoken⟩
        rcases hallow with ⟨rfl, hreply⟩ | ⟨-, hcmd, rfl⟩
        · have hown := ha.fds_placed (ha.placed_sockfd ht hold hstart)
          exact .inl ⟨Option.some.inj (hdst.symm.trans hown),
            hreply.mono fun hquit => ⟨line, hline, hquit⟩⟩
        · exact .inr ⟨line, hline, .deliver hcmd⟩
    · exact hspoken
  all_goals
    cases hop
    exact hspoken

/-- Every step writes only what is accounted for. -/
theorem Speaks.spoken_step (h : Speaks x s) (ha : Tracks s a) (hb : x.Broadcasts) {l : Label}
    (hs : Step x s l s') : Justified (Spoken x) s'.log := by
  have hspoken := h.spoken hb
  cases hs with
  | @welcome c t now ht hpc =>
    rw [setThread_log, deliver_log]
    split
    · exact hspoken
    · rename_i dst hdst
      have hown := ha.fds_placed (ha.placed_sockfd ht (by simp [Holding, hpc]) (by simp [hpc]))
      exact ⟨⟨nameOf c s.log, fun _ => rfl,
        .inl ⟨Option.some.inj (hdst.symm.trans hown), reply_welcome⟩⟩, hspoken⟩
  | perform ht hpc hop =>
    obtain ⟨line, g, hline, ⟨hallow, -⟩, -, hname⟩ := h.handling _ _ _ ht hpc
    have hkeep := h.spoken_perform ha hb ht (by simp [Holding, hpc]) (by simp [hpc]) hline hname
      hallow hop
    exact hkeep
  | @notify now n rest hpc hfd =>
    change Justified (Spoken x) (s.deliver .monitor n.aim n.sockfd n.text).log
    rw [deliver_log]
    split
    · exact hspoken
    · exact ⟨h.pending _ hpc n List.mem_cons_self, hspoken⟩
  | line | close | reject | undoClose => exact ⟨trivial, hspoken⟩
  | start | welcomeFailed | turn | hangup | continue_ | break_ | remove | removeInvalid
  | removeMissing | acceptMove | connection | addFull | add | findNone | find | create
  | createFailed | undoMissing | undo | undoInvalid | store | tick | monitorMove | signal =>
    exact hspoken

/-! ## Every run -/

theorem speaks_init (timeout : Int) : Speaks x (serverInit timeout) where
  handling c t code ht := by cases ht
  idle c t ht := by cases ht
  unnamed _ _ := rfl
  valid c user hmem := absurd hmem List.not_mem_nil
  adding fd c session hpc := by cases hpc
  names _ i c hi := by cases hi
  pending ns hpc := by cases hpc
  spoken _ := trivial

theorem speaks_step (hx : x.KeepsSlots) (h : Speaks x s) (ha : Tracks s a) {l : Label}
    (hs : Step x s l s') : Speaks x s' where
  handling _ _ code ht hpc := (h.threads_step ha hs ht).1 code hpc
  idle _ _ ht := (h.threads_step ha hs ht).2
  unnamed _ := h.unnamed_step ha hs
  valid _ _ := h.valid_step hs
  adding _ _ _ := h.adding_step hs
  names hr := h.names_step hx ha hr hs
  pending _ hpc _ := h.pending_step ha hs hpc
  spoken hb := h.spoken_step ha hb hs

/-- In every reachable state of the server the log is accounted for. -/
theorem speaks_reach (hx : x.KeepsSlots) {timeout : Int}
    (hs : (serverSystem x timeout).Reach s) : ∃ a, Tracks s a ∧ Speaks x s := by
  refine hs.invariant (P := fun s => ∃ a, Tracks s a ∧ Speaks x s)
    ⟨_, tracks_init timeout, speaks_init timeout⟩ ?_
  rintro s l s' - ⟨a, ha, h⟩ hl
  have hstep := step_cases hl
  obtain ⟨a', -, ha'⟩ := tracks_step hx ha hstep
  exact ⟨a', ha', speaks_step hx h ha hstep⟩

end Server

end ChatMultithread
