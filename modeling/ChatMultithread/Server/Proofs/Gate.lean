import ChatMultithread.Server.Proofs.Events

/-!
# Registration

No handler looks at `is_registered`. A connection that has not been answered `REGISTER_OK` is
heard by nobody else exactly as long as what it asks for concerns nobody else: it names no
registered user in a `MSG`, and sends no `BROADCAST` or `STATUS` while somebody else is registered.
Where every command meets that condition, each event carries a valid name that its sender has
registered.
-/

namespace ChatMultithread

open Lib

namespace Server

/-- The connection has been answered `REGISTER_OK`. -/
def Answered (c : Conn) (log : List Event) : Prop := answers c log ≠ []

/-- The operation reaches no other connection. -/
def Silent (x : Externs) (s : Server) (c : Conn) : Op → Prop
  | .findUserFd user =>
      0 ≤ x.findUserFd s.sessions user → s.fds (x.findUserFd s.sessions user) = some c
  | .broadcastAll _ | .broadcastExcept _ _ =>
      ∀ i, Registered s.sessions i → s.fds (s.sessions i).sockfd = some c
  | _ => True

/-- Connections that have not been answered `REGISTER_OK` ask only for what reaches nobody else. -/
def Gated (x : Externs) (s : Server) : Label → Prop
  | .client c (.go _ _) => ∀ o ∈ s.nextOp c, Answered c s.log ∨ Silent x s c o
  | _ => True

instance (x : Externs) (s : Server) (c : Conn) (o : Op) : Decidable (Silent x s c o) :=
  match o with
  | .findUserFd _ => inferInstanceAs (Decidable (_ → _))
  | .broadcastAll _ | .broadcastExcept _ _ => inferInstanceAs (Decidable (∀ _, _ → _))
  | .sessionsFindBySockfd _ | .touchActivity _ | .readSockfd | .readAddr | .readUsername
  | .usernameExists _ | .addSession _ _ | .getAllUsers _ | .getUserInfo _ | .setUserStatus _ _
  | .send _ _ | .undefinedBehaviour => isTrue trivial

instance (x : Externs) (s : Server) (l : Label) : Decidable (Gated x s l) :=
  match l with
  | .client _ (.go _ _) => inferInstanceAs (Decidable (∀ o ∈ s.nextOp _, answers _ _ ≠ [] ∨ _))
  | .client _ (.line _) | .client _ .hangup | .acceptor _ | .monitor _ _ | .signal =>
      isTrue trivial

/-- Nobody hears of a connection before it is registered. -/
structure RegistrationGate (log : List Event) : Prop where
  /-- A connection from which another one receives anything has been answered `REGISTER_OK`. -/
  silent : ∀ post past c aim d buf, log = post ++ .delivered (.client c) aim d buf :: past →
    d ≠ c → Answered c past
  /-- A line of an event's type that comes from a command carries a valid name that its sender has
      registered. -/
  named : ∀ d, ∀ line ∈ linesOf (receivedBy d log).flatten,
    (protoParseType (cstr line)).1 ∈ eventWords →
    ∃ post past src aim, log = post ++ .delivered src aim d line :: past ∧
      ∀ c, src = .client c →
        ∃ user, isValidUsername user = true ∧ .named c user ∈ past ∧ EventOf user line

variable {x : Externs} {s s' : Server} {a : Lives} {c d : Conn} {t : Thread} {log past : List Event}

/-! ## Answers -/

theorem Answered.mono {new : List Event} (h : Answered c past) : Answered c (new ++ past) := by
  rw [Answered, answers_append]
  exact List.append_ne_nil_of_right_ne_nil _ h

/-- A connection that has been answered `REGISTER_OK` has a name. -/
theorem Answered.nameOf_ne (hr : x.Registry) (hspoken : Justified (Spoken x) log)
    (h : Answered c log) : nameOf c log ≠ [] := by
  obtain ⟨user, huser⟩ := List.exists_mem_of_ne_nil _ h
  refine nameOf_ne_of_named (fun user hmem => ?_) (named_of_answers hr hspoken huser)
  obtain ⟨-, -, -, hnamed, -⟩ := hspoken.of_mem hmem
  exact (isValidUsername_iff.1 hnamed).1

/-! ## Who hears of a command -/

/-- The account of a delivery: a reply, or an event of a named connection, which has been answered
    `REGISTER_OK` if another connection receives it. -/
def Heard (x : Externs) (past : List Event) (e : Event) : Prop :=
  ∀ c aim d buf, e = .delivered (.client c) aim d buf →
    d = c ∧ Reply x.Plain True (nameOf c past) buf ∨
      nameOf c past ≠ [] ∧ (d ≠ c → Answered c past)

/-- The invariant: what a thread has looked up is another connection's only if its own has been
    answered. -/
structure Gate (x : Externs) (s : Server) : Prop where
  target : ∀ c t, s.threads c = some t → t.target ≠ none →
    nameOf c s.log ≠ [] ∧ (Answered c s.log ∨ t.target.map Prod.fst = some t.sockfd)
  heard : Justified (Heard x) s.log

/-- A connection that has a name or an answer keeps it. -/
theorem gate_mono (hspeaks : Speaks x s') {l : Label} (hs : Step x s l s') :
    (nameOf c s.log ≠ [] → nameOf c s'.log ≠ []) ∧ (Answered c s.log → Answered c s'.log) := by
  obtain ⟨new, hnew, -, -⟩ := log_of_step hs
  have hvalid := hspeaks.valid c
  rw [hnew] at hvalid ⊢
  refine ⟨nameOf_append_ne fun user hmem => ?_, Answered.mono⟩
  exact (isValidUsername_iff.1 (hvalid user (List.mem_append_left _ hmem))).1

/-- A descriptor that is a connection's own is the one its thread serves. -/
theorem own_sockfd (ha : Tracks s a) (ht : s.threads c = some t) (hold : Holding t)
    (hstart : t.pc ≠ .start) {fd : Int} (hfd : s.fds fd = some c) : fd = t.sockfd := by
  have hplaced := ha.placed_sockfd ht hold hstart
  have hhandle : (a.stage c).handle = some fd := by
    rw [← ha.inv.owner_iff, ha.owner]
    exact hfd
  rw [hplaced] at hhandle
  exact (Option.some.inj hhandle).symm

/-- What a thread has looked up under the condition. -/
theorem Gate.target_perform (h : Gate x s) (ha : Tracks s a) (hspeaks : Speaks x s)
    (hp : x.Plain) (hb : x.Broadcasts) (ht : s.threads c = some t) (hold : Holding t)
    (hstart : t.pc ≠ .start) {now : Int} {sent : Bool} {o : Op} {r : o.Resp}
    {target : Option (Int × Option Conn)} (hsilent : Answered c s.log ∨ Silent x s c o)
    (hop : s.perform x c t now sent o = some (r, s', target)) (htarget : target ≠ none) :
    nameOf c s.log ≠ [] ∧ (Answered c s.log ∨ target.map Prod.fst = some t.sockfd) := by
  cases o
  case undefinedBehaviour => cases hop
  case findUserFd user =>
    cases hop
    by_cases hfound : 0 ≤ x.findUserFd s.sessions user
    · rw [if_pos hfound]
      rcases hsilent with hans | hsilent
      · exact ⟨hans.nameOf_ne hp.1 (hspeaks.spoken hb), .inl hans⟩
      · have hown := hsilent hfound
        obtain ⟨i, hi, hfd⟩ := hp.2.1.findUserFd_named s.sessions user hfound
        have hname := (hspeaks.nameOf_registered hp.1 hi.1 (by rw [hfd]; exact hown)).2
        exact ⟨hname, .inr (congrArg some (own_sockfd ha ht hold hstart hown))⟩
    · rw [if_neg hfound] at htarget ⊢
      exact h.target c t ht htarget
  case send fd buf =>
    cases hop
    split at htarget
    · exact absurd rfl htarget
    · rename_i hne
      rw [if_neg hne]
      exact h.target c t ht htarget
  all_goals
    cases hop
    exact h.target c t ht htarget

theorem Gate.own_target (h : Gate x s) (ha : Tracks s a) (hspeaks : Speaks x s)
    (hp : x.Plain) (hb : x.Broadcasts) {choice : ClientChoice}
    (hok : Gated x s (.client c choice)) (hs : Step x s (.client c choice) s') {t' : Thread}
    (ht' : s'.threads c = some t') (htarget : t'.target ≠ none) :
    nameOf c s.log ≠ [] ∧ (Answered c s.log ∨ t'.target.map Prod.fst = some t'.sockfd) := by
  cases hs with
  | perform ht hpc hop =>
    rw [setThread_threads_self] at ht'
    cases ht'
    exact h.target_perform ha hspeaks hp hb ht (by simp [Holding, hpc]) (by simp [hpc])
      (hok _ (nextOp_eq_some.2 ⟨_, _, ht, hpc⟩)) hop htarget
  | start ht hpc =>
    rw [setThread_threads_self] at ht'
    cases ht'
    exact absurd (hspeaks.idle c _ ht fun code => by rw [hpc]; simp) htarget
  | welcome ht | welcomeFailed ht | turn ht | line ht | hangup ht | remove ht | removeInvalid ht
  | removeMissing ht | close ht =>
    rw [setThread_threads_self] at ht'
    cases ht'
    have hbefore := h.target _ _ ht htarget
    exact hbefore
  | continue_ ht | break_ ht =>
    rw [setThread_threads_self] at ht'
    cases ht'
    exact absurd rfl htarget

theorem Gate.target_step (h : Gate x s) (ha : Tracks s a) (hspeaks : Speaks x s)
    (hspeaks' : Speaks x s') (hp : x.Plain) (hb : x.Broadcasts) {l : Label} (hok : Gated x s l)
    (hs : Step x s l s') {t' : Thread} (ht' : s'.threads c = some t') (htarget : t'.target ≠ none) :
    nameOf c s'.log ≠ [] ∧ (Answered c s'.log ∨ t'.target.map Prod.fst = some t'.sockfd) := by
  have hbefore : nameOf c s.log ≠ [] ∧
      (Answered c s.log ∨ t'.target.map Prod.fst = some t'.sockfd) := by
    by_cases hown : ∃ choice, l = .client c choice
    · obtain ⟨choice, rfl⟩ := hown
      exact h.own_target ha hspeaks hp hb hok hs ht' htarget
    · rcases thread_of_other ha hs (fun choice e => hown ⟨choice, e⟩) ht' with ht | ⟨-, -, hnone⟩
      · exact h.target c t' ht htarget
      · exact absurd hnone htarget
  obtain ⟨hname, hans⟩ := gate_mono (c := c) hspeaks' hs
  exact ⟨hname hbefore.1, hbefore.2.imp_left hans⟩

/-- A broadcast under the condition. -/
theorem heard_deliverAll (hspeaks : Speaks x s) (hr : x.Registry) (hb : x.Broadcasts)
    (hheard : Justified (Heard x) s.log) {sends : List (Int × Bytes)}
    (hsends : ∀ p ∈ sends, ∃ i, Registered s.sessions i ∧ (s.sessions i).sockfd = p.1)
    (hsilent : Answered c s.log ∨
      ∀ i, Registered s.sessions i → s.fds (s.sessions i).sockfd = some c) :
    Justified (Heard x) (s.deliverAll (.client c) sends).log := by
  rw [deliverAll_log]
  refine hheard.append fun e he between hbetween => ?_
  obtain ⟨p, hp, dst, hdst, rfl⟩ := mem_deliveries.1 he
  obtain ⟨i, hi, hfd⟩ := hsends p hp
  obtain ⟨hnames, -⟩ := memory_append (fun e' he' => by
    obtain ⟨p', -, dst', -, rfl⟩ := mem_deliveries.1 (hbetween e' he')
    exact ⟨_, _, _, _, rfl⟩) c s.log
  intro c' aim d buf heq
  cases heq
  refine .inr ?_
  rw [hnames]
  rcases hsilent with hans | hown
  · exact ⟨hans.nameOf_ne hr (hspeaks.spoken hb), fun _ => hans.mono⟩
  · have hself := hown i hi
    rw [hfd, hdst] at hself
    obtain rfl := Option.some.inj hself
    refine ⟨(hspeaks.nameOf_registered hr hi (by rw [hfd]; exact hdst)).2, ?_⟩
    exact fun hne => absurd rfl hne

theorem Gate.heard_perform (h : Gate x s) (ha : Tracks s a) (hspeaks : Speaks x s)
    (hr : x.Registry) (hb : x.Broadcasts) (ht : s.threads c = some t) (hold : Holding t)
    (hstart : t.pc ≠ .start) {line : Bytes} {g : Ghost}
    (htarget : g.target = t.target.map Prod.fst) (hname : g.name = nameOf c s.log) {now : Int}
    {sent : Bool} {o : Op} {r : o.Resp} {target : Option (Int × Option Conn)}
    (hallow : (lineMonitor x.Plain t.slot t.sockfd line).allows g o)
    (hsilent : Answered c s.log ∨ Silent x s c o)
    (hop : s.perform x c t now sent o = some (r, s', target)) : Justified (Heard x) s'.log := by
  have hheard := h.heard
  cases o
  case undefinedBehaviour => cases hop
  case addSession user fd =>
    cases hop
    refine ⟨?_, hheard⟩
    intro c' aim d buf heq
    cases heq
  case broadcastAll msg =>
    cases hop
    apply heard_deliverAll hspeaks hr hb hheard _ hsilent
    exact fun p hp => ((hb.mem_broadcastAll _ _ p).1 hp).2
  case broadcastExcept msg fd =>
    cases hop
    apply heard_deliverAll hspeaks hr hb hheard _ hsilent
    exact fun p hp => ((hb.mem_broadcastExcept _ _ _ p).1 hp).2.2
  case send fd buf =>
    cases hop
    split
    · rw [deliver_log]
      split
      · exact hheard
      · rename_i dst hdst
        have hown := ha.fds_placed (ha.placed_sockfd ht hold hstart)
        refine ⟨?_, hheard⟩
        intro c' aim d buf' heq
        cases heq
        rcases hallow with ⟨rfl, hreply⟩ | ⟨hfd, -, -⟩
        · rw [hname] at hreply
          exact .inl ⟨Option.some.inj (hdst.symm.trans hown), hreply.mono fun _ => trivial⟩
        · rw [htarget] at hfd
          have hne : t.target ≠ none := by
            intro hnone
            rw [hnone] at hfd
            cases hfd
          obtain ⟨hnamed, hans⟩ := h.target c t ht hne
          refine .inr ⟨hnamed, fun hdc => hans.resolve_right fun hself => ?_⟩
          rw [hfd] at hself
          rw [Option.some.inj hself, hown] at hdst
          exact hdc (Option.some.inj hdst).symm
    · exact hheard
  all_goals
    cases hop
    exact hheard

theorem Gate.heard_step (h : Gate x s) (ha : Tracks s a) (hspeaks : Speaks x s)
    (hr : x.Registry) (hb : x.Broadcasts) {l : Label} (hok : Gated x s l) (hs : Step x s l s') :
    Justified (Heard x) s'.log := by
  have hheard := h.heard
  cases hs with
  | @welcome c t now ht hpc =>
    rw [setThread_log, deliver_log]
    split
    · exact hheard
    · rename_i dst hdst
      have hown := ha.fds_placed (ha.placed_sockfd ht (by simp [Holding, hpc]) (by simp [hpc]))
      refine ⟨?_, hheard⟩
      intro c' aim d buf heq
      cases heq
      exact .inl ⟨Option.some.inj (hdst.symm.trans hown), reply_welcome⟩
  | perform ht hpc hop =>
    obtain ⟨line, g, -, ⟨hallow, -⟩, htarget, hname⟩ := hspeaks.handling _ _ _ ht hpc
    have hkeep := h.heard_perform ha hspeaks hr hb ht (by simp [Holding, hpc]) (by simp [hpc])
      htarget (hname hr) hallow (hok _ (nextOp_eq_some.2 ⟨_, _, ht, hpc⟩)) hop
    exact hkeep
  | @notify now n rest hpc hfd =>
    change Justified (Heard x) (s.deliver .monitor n.aim n.sockfd n.text).log
    rw [deliver_log]
    split
    · exact hheard
    · refine ⟨?_, hheard⟩
      intro c' aim d buf heq
      cases heq
  | line | close | reject | undoClose =>
    refine ⟨?_, hheard⟩
    intro c' aim d buf heq
    cases heq
  | start | welcomeFailed | turn | hangup | continue_ | break_ | remove | removeInvalid
  | removeMissing | acceptMove | connection | addFull | add | findNone | find | create
  | createFailed | undoMissing | undo | undoInvalid | store | tick | monitorMove | signal =>
    exact hheard

/-! ## Every gated run -/

theorem gate_init (timeout : Int) : Gate x (serverInit timeout) where
  target c t ht := by cases ht
  heard := trivial

theorem gate_reach (hx : x.KeepsSlots) (hp : x.Plain) (hb : x.Broadcasts) {timeout : Int}
    (hs : (serverSystem x timeout).ReachUnder (Gated x) s) : Gate x s := by
  refine hs.invariant (P := Gate x) (gate_init timeout) ?_
  intro s l s' hr h hok hl
  have hstep := step_cases hl
  obtain ⟨a, ha, hspeaks⟩ := speaks_reach hx hr.reach
  have hspeaks' := speaks_step hx hspeaks ha hstep
  exact ⟨fun _ _ ht htarget => h.target_step ha hspeaks hspeaks' hp hb hok hstep ht htarget,
    h.heard_step ha hspeaks hp.1 hb hok hstep⟩

/-- In a run in which the connections that have not been answered `REGISTER_OK` look up nobody
    else's session and broadcast to nobody else, and in which no event has a newline inside,
    nobody hears of a connection before it is registered. -/
theorem registrationGate_of_gated (hx : x.KeepsSlots) (hp : x.Plain) (hb : x.Broadcasts)
    {timeout : Int} (hs : (serverSystem x timeout).ReachUnder
      (fun s l => OneLiners s l ∧ Gated x s l) s) : RegistrationGate s.log := by
  obtain ⟨-, -, hspeaks⟩ := speaks_reach hx hs.reach
  have hspoken := hspeaks.spoken hb
  have hheard := (gate_reach hx hp hb (hs.mono fun _ _ h => h.2)).heard
  have hforged := notForged_of_oneLiners hx hp hb (hs.mono fun _ _ h => h.1)
  constructor
  · intro post past c aim d buf hlog hdc
    rw [hlog] at hheard
    rcases hheard.entry c aim d buf rfl with ⟨hself, -⟩ | ⟨-, hans⟩
    · exact absurd hself hdc
    · exact hans hdc
  · intro d line hline htype
    obtain ⟨post, past, src, aim, hlog, -⟩ := hforged.lines d line hline
    refine ⟨post, past, src, aim, hlog, ?_⟩
    rintro c rfl
    rw [hlog] at hspoken hheard
    have hvalid := nameOf_valid_of_spoken hspoken.of_append.2 c
    obtain ⟨name, hname, ⟨-, hreply⟩ | ⟨line', -, hevent⟩⟩ := hspoken.entry
    · exact absurd htype (reply_type hreply)
    · obtain rfl := hname hp.1
      rcases hheard.entry c aim d line rfl with ⟨-, hreply⟩ | ⟨hnamed, -⟩
      · exact absurd htype (reply_type hreply)
      · exact ⟨_, hvalid.resolve_left hnamed, named_of_nameOf hnamed, hevent.eventOf hvalid⟩

theorem registrationGate_hola :
    ∃ s, (serverSystem managerExterns 60).runIf
        (fun s l => decide (OneLiners s l ∧ Gated managerExterns s l)) (serverInit 60)
        (privateMessage "MSG|cami|hola\n") = some s ∧ RegistrationGate s.log := by
  have hrun : ((serverSystem managerExterns 60).runIf
    (fun s l => decide (OneLiners s l ∧ Gated managerExterns s l)) (serverInit 60)
    (privateMessage "MSG|cami|hola\n")).isSome = true := by decide +kernel
  obtain ⟨s, hs⟩ := Option.isSome_iff_exists.1 hrun
  refine ⟨s, hs, registrationGate_of_gated managerExterns_keepsSlots
    ⟨managerExterns_registry, managerExterns_findsUsers, managerExterns_plainText⟩
    managerExterns_broadcasts (System.ReachUnder.init.runIf ?_ hs)⟩
  exact fun _ _ _ h => of_decide_eq_true h

/-- A client that has not registered sends a message. -/
def unregisteredMessage : List Label :=
  connects 4 ++ turns 0 3 ++ connects 5 ++ turns 1 3 ++ writes 1 "REGISTER|cami\n" 9 ++
  writes 0 "MSG|cami|hola\n" 8

/-- The message is delivered, in nobody's name. -/
theorem unregisteredMessage_heard :
    ¬ ∀ (x : Externs) (timeout : Int) (s : Server), x.KeepsSlots → x.Plain → x.Broadcasts →
      (serverSystem x timeout).Reach s → RegistrationGate s.log := by
  intro h
  obtain ⟨s, hs, hp⟩ := System.exists_reach_of_run (S := serverSystem managerExterns 60)
    unregisteredMessage
    (fun s => decide (.delivered (.client 0) (some 1) 1 (ascii "DELIVER||hola\n") ∈ s.log ∧
      answers 0 s.log = []))
    (by decide +kernel)
  obtain ⟨hmem, hnone⟩ := of_decide_eq_true hp
  have hclaimed := h managerExterns 60 s managerExterns_keepsSlots
    ⟨managerExterns_registry, managerExterns_findsUsers, managerExterns_plainText⟩
    managerExterns_broadcasts hs
  obtain ⟨post, past, hlog⟩ := List.append_of_mem hmem
  have hans := hclaimed.silent post past 0 _ 1 _ hlog (by decide)
  have hlast : Answered 0 s.log := by
    rw [hlog, List.append_cons]
    exact hans.mono
  exact hlast hnone

end Server

end ChatMultithread
