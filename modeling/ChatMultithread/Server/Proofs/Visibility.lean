import ChatMultithread.Server.Proofs.Owing

/-!
# Who is told a status

Only a `STATUS` command tells the others. The monitor tells the idle session itself, a session that
comes back from `INACTIVO` tells nobody, and neither does one that registers. As long as nobody else
is registered when these happen, and a name passes only to a session whose status the others have
not been told otherwise, every change is announced, and what was told last is what the table holds.
-/

namespace ChatMultithread

open Lib Lib.HandleTable

namespace Server

/-- The connection has a session that is registered as `u` and has status `v`. -/
def Shows (s : Server) (c : Conn) (u : Bytes) (v : UserStatus) : Prop :=
  ∃ i, Named s.sessions i u ∧ s.fds (s.sessions i).sockfd = some c ∧ (s.sessions i).status = v

/-- The session in the slot is the only one that is registered. -/
def Alone (s : Server) (i : Slot) : Prop := ∀ j, Registered s.sessions j → j = i

/-- The thread that the label names has done what it set out to do. -/
def AtRest (s : Server) : Label → Prop
  | .client c _ => s.busy c = false
  | .monitor _ _ => ∀ n rest, s.monitor ≠ .sending (n :: rest)
  | .acceptor _ | .signal => True

/-- What the operation of the thread of `c` changes nobody misses: a status is not taken back from
    `INACTIVO` before others, and no name is taken that is in use, or of which another connection has
    been told another status. -/
def Overt (s : Server) (c : Conn) : Op → Prop
  | .touchActivity i =>
      Registered s.sessions i → (s.sessions i).status = .inactivo → Alone s i
  | .addSession user _ => ∀ i, (s.sessions i).isActive = true →
      s.fds (s.sessions i).sockfd = some c → ∀ j, Registered s.sessions j → j ≠ i →
        (s.sessions j).username ≠ user ∧ ∀ d ∈ s.fds (s.sessions j).sockfd,
          (∀ w ∈ lastTold d user s.log, w = (s.sessions i).status) ∧
          (∀ w ∈ lastTold c (s.sessions j).username s.log, w = (s.sessions j).status)
  | _ => True

/-- What the monitor does nobody misses: it marks no session before others, and its notice is not
    taken for one about another user. -/
def OvertMonitor (s : Server) (now : Int) : MonitorPc → Prop
  | .tick => ∀ i, Registered s.sessions i →
      sessionMarkInactiveIfNeeded (s.sessions i) now s.inactivityTimeoutSeconds ≠ none →
      Alone s i ∧ ∀ c ∈ s.fds (s.sessions i).sockfd, s.busy c = false
  | .sending (n :: _) => ∀ i, Registered s.sessions i →
      s.fds (s.sessions i).sockfd ≠ s.fds n.sockfd →
      n.text = statusLine (s.sessions i).username .inactivo → (s.sessions i).status = .inactivo
  | .sending [] | .done => True

/-- Every step is open to everybody. -/
def Open (s : Server) : Label → Prop
  | .client c (.go _ _) => ∀ o ∈ s.nextOp c, Overt s c o
  | .monitor now _ => OvertMonitor s now s.monitor
  | .client _ (.line _) | .client _ .hangup | .acceptor _ | .signal => True

instance (s : Server) (i : Slot) : Decidable (Alone s i) :=
  inferInstanceAs (Decidable (∀ _, _ → _))

instance (s : Server) (c : Conn) (o : Op) : Decidable (Overt s c o) :=
  match o with
  | .touchActivity _ => inferInstanceAs (Decidable (_ → _ → _))
  | .addSession user _ => inferInstanceAs (Decidable (∀ i, _ → _ → ∀ j, _ → _ →
      (s.sessions j).username ≠ user ∧ ∀ d ∈ s.fds (s.sessions j).sockfd,
        (∀ w ∈ lastTold d user s.log, w = (s.sessions i).status) ∧
        (∀ w ∈ lastTold c (s.sessions j).username s.log, w = (s.sessions j).status)))
  | .sessionsFindBySockfd _ | .readSockfd | .readAddr | .readUsername | .usernameExists _
  | .findUserFd _ | .broadcastAll _ | .broadcastExcept _ _ | .getAllUsers _ | .getUserInfo _
  | .setUserStatus _ _ | .send _ _ | .undefinedBehaviour => isTrue trivial

instance (s : Server) (now : Int) (pc : MonitorPc) : Decidable (OvertMonitor s now pc) :=
  match pc with
  | .tick => inferInstanceAs (Decidable (∀ i, _ → _ → Alone s i ∧
      ∀ c ∈ s.fds (s.sessions i).sockfd, s.busy c = false))
  | .sending (_ :: _) => inferInstanceAs (Decidable (∀ _, _ → _ → _ → _))
  | .sending [] | .done => isTrue trivial

instance (s : Server) (l : Label) : Decidable (Open s l) :=
  match l with
  | .client _ (.go _ _) => inferInstanceAs (Decidable (∀ o ∈ s.nextOp _, _))
  | .monitor _ _ => inferInstanceAs (Decidable (OvertMonitor _ _ _))
  | .client _ (.line _) | .client _ .hangup | .acceptor _ | .signal => isTrue trivial

/-- A step changes the status of a registered session. -/
structure ChangesStatus (x : Externs) (s : Server) (l : Label) (s₁ : Server) (c : Conn)
    (u : Bytes) (v : UserStatus) : Prop where
  step : s.step x l = some s₁
  before : ∃ v₀, v₀ ≠ v ∧ Shows s c u v₀
  after : Shows s₁ c u v

/-- Statuses are visible, however a run whose steps are under `ok` goes on from here. -/
structure StatusVisible (x : Externs) (timeout : Int) (ok : Server → Label → Prop) (s : Server) :
    Prop where
  /-- When the thread that changes a status has done what it set out to do, the new status has been
      written to every other connection that was registered then and still is. -/
  announced : ∀ l s₁ c u v, ok s l → ChangesStatus x s l s₁ c u v →
    ∀ s₂, ((serverSystem x timeout).startingAt s₁).ReachUnder ok s₂ → AtRest s₂ l →
    ∀ d, d ≠ c → Known s₁ d → Known s₂ d →
      ∃ post, s₂.log = post ++ s.log ∧ statusLine u v ∈ receivedBy d post
  /-- It gets there by steps of its own. -/
  proceeds : ∀ l s₁ c u v, ok s l → ChangesStatus x s l s₁ c u v →
    ∀ d, d ≠ c → Known s₁ d →
      ∃ n s₂, (serverSystem x timeout).run s₁ (turns c n) = some s₂ ∧ AtRest s₂ l
  /-- The status of a user that a registered connection was told last is the one in the table, once
      the thread of the user is not handling a line. -/
  told : ∀ c d u v w, c ≠ d → Shows s c u v → Known s d → s.busy c = false →
    lastTold d u s.log = some w → w = v

variable {x : Externs} {s s' : Server} {a : Lives} {c d : Conn} {u : Bytes} {v w : UserStatus}
  {owes : Conn → Bool} {i j : Slot} {t : Thread}

/-! ## The invariant -/

/-- Names are unique, what a thread owes the others is what the table holds, and what they were told
    last is what it holds too, unless a thread still owes them the news. -/
structure Visible (s : Server) (owes : Conn → Bool) : Prop where
  unique : ∀ i j, Registered s.sessions i → Registered s.sessions j →
    (s.sessions i).username = (s.sessions j).username → i = j
  asked : ∀ c i, owes c = true → Registered s.sessions i →
    s.fds (s.sessions i).sockfd = some c → askedStatus c s.log = some (s.sessions i).status
  told : ∀ c d u v w, c ≠ d → Shows s c u v → Known s d → lastTold d u s.log = some w →
    w = v ∨ owes c = true

/-- The thread that goes by the name of a registered session is the one of its connection. -/
theorem Visible.conn_unique (h : Visible s owes) (ha : Tracks s a) (hspeaks : Speaks x s)
    (hr : x.Registry) (hi : Registered s.sessions i) (hic : s.fds (s.sessions i).sockfd = some c)
    (ht : s.threads d = some t) (hold : Holding t)
    (hname : nameOf d s.log = (s.sessions i).username) : d = c := by
  obtain ⟨hactive, hfds⟩ := slot_of_thread ha ht hold
  obtain ⟨huser, hreg⟩ := hspeaks.names hr t.slot d hactive hfds
  obtain ⟨huser', hne⟩ := hspeaks.nameOf_registered hr hi hic
  rw [← huser', ← hname] at hne
  have hslot := h.unique t.slot i ⟨hactive, hreg.2 hne⟩ hi (huser.trans hname)
  rw [hslot, hic] at hfds
  exact (Option.some.inj hfds).symm

/-- Under the condition a status is written by the thread of its session, before its broadcast, or
    without others. -/
theorem own_of_writes (h : Visible s owes) (hfollows : Follows x s owes) (ha : Tracks s a)
    (hspeaks : Speaks x s) (hr : x.Registry) {l : Label} (hok : Open s l) (hi : Registered s.sessions i)
    (hic : s.fds (s.sessions i).sockfd = some c) (hw : Writes s i l) :
    owes c = false ∧ (Alone s i ∨ ∃ now sent user status, l = .client c (.go now sent) ∧
      s.nextOp c = some (.setUserStatus user status)) := by
  have hown : ∀ {e t}, s.threads e = some t → Holding t → t.slot = i → e = c := by
    intro e t ht hold hslot
    obtain ⟨-, hfds⟩ := slot_of_thread ha ht hold
    rw [hslot, hic] at hfds
    exact (Option.some.inj hfds).symm
  cases hw with
  | @touch e t now sent k ht hpc hwas =>
    obtain ⟨line, g, -, ⟨hslot, -⟩, -⟩ := hspeaks.handling e t _ ht hpc
    obtain rfl := hown ht (by simp [Holding, hpc]) hslot.symm
    obtain ⟨line, -, ⟨howes, -⟩, -⟩ := hfollows.handling e t _ ht hpc
    have hovert : Overt s e (.touchActivity i) :=
      hok (.touchActivity i) (nextOp_eq_some.2 ⟨t, k, ht, hpc⟩)
    exact ⟨howes, .inl (hovert hi hwas)⟩
  | @set e t now sent user status k ht hpc hnamed =>
    obtain ⟨line, g, -, ⟨⟨-, huser, -⟩, -⟩, -, hname⟩ := hspeaks.handling e t _ ht hpc
    have hnameOf : nameOf e s.log = (s.sessions i).username := by
      rw [← hname hr, ← huser, hnamed.2]
    obtain rfl := h.conn_unique ha hspeaks hr hi hic ht (by simp [Holding, hpc]) hnameOf
    obtain ⟨line, -, ⟨⟨howes, -⟩, -⟩, -⟩ := hfollows.handling e t _ ht hpc
    exact ⟨howes, .inr ⟨now, sent, user, status, rfl, nextOp_eq_some.2 ⟨t, k, ht, hpc⟩⟩⟩
  | @mark now sent hpc hdue =>
    have hmark := hok
    rw [Open, hpc] at hmark
    obtain ⟨halone, hbusy⟩ := hmark i hi hdue
    exact ⟨hfollows.idle c (hbusy c hic), .inl halone⟩

theorem not_addSession_of_writes {l : Label} (hw : Writes s i l) {now : Int} {sent : Bool}
    (hl : l = .client d (.go now sent)) {fd : Int} : s.nextOp d ≠ some (.addSession u fd) := by
  intro hop
  obtain ⟨t, k, ht, hpc⟩ := nextOp_eq_some.1 hop
  cases hw with
  | touch ht' hpc' | set ht' hpc' =>
    cases hl
    obtain rfl := Option.some.inj (ht.symm.trans ht')
    cases hpc.symm.trans hpc'
  | mark => cases hl

/-- No name is taken that is in use. -/
theorem Visible.unique_step (h : Visible s owes) (hx : x.KeepsSlots) (hr : x.Registry)
    (ha : Tracks s a) {a' : Lives} (ha' : Tracks s' a') (hspeaks : Speaks x s)
    (hspeaks' : Speaks x s') {l : Label} (hok : Open s l) (hs : Step x s l s')
    (hi : Registered s'.sessions i) (hj : Registered s'.sessions j)
    (hij : (s'.sessions i).username = (s'.sessions j).username) : i = j := by
  have hconn : ∀ {i}, Registered s'.sessions i → ∃ c, s'.fds (s'.sessions i).sockfd = some c := by
    intro i hi
    obtain ⟨c, hc⟩ := ha'.active_placed hi.1
    exact ⟨c, ha'.fds_placed hc⟩
  -- The one that has just been named is not called like another one.
  have hnew : ∀ {i j c d}, (s.sessions i).isActive = true → s.fds (s.sessions i).sockfd = some c →
      Registered s.sessions j → s.fds (s.sessions j).sockfd = some d → ∀ {user now sent fd},
      l = .client c (.go now sent) → s.nextOp c = some (.addSession user fd) →
      user = (s.sessions j).username → i = j := by
    intro i j c d hi hic hj hjd user now sent fd hl hop huser
    subst hl
    by_contra hne
    obtain ⟨hfree, -⟩ := hok _ hop i hi hic j hj (Ne.symm hne)
    exact hfree huser.symm
  obtain ⟨c, hic'⟩ := hconn hi
  obtain ⟨d, hjd'⟩ := hconn hj
  obtain ⟨hi₀, hic, hi₁⟩ := registered_of_step hx hr ha hspeaks hspeaks' hs hi hic'
  obtain ⟨hj₀, hjd, hj₁⟩ := registered_of_step hx hr ha hspeaks hspeaks' hs hj hjd'
  rcases hi₁ with ⟨hireg, hiname⟩ | ⟨now, sent, fd, hl, hop⟩
  · rcases hj₁ with ⟨hjreg, hjname⟩ | ⟨now, sent, fd, hl, hop⟩
    · exact h.unique i j hireg hjreg (hiname.trans (hij.trans hjname.symm))
    · exact (hnew hj₀ hjd hireg hic hl hop (hij.symm.trans hiname.symm)).symm
  · rcases hj₁ with ⟨hjreg, hjname⟩ | ⟨now', sent', fd', hl', hop'⟩
    · exact hnew hi₀ hic hjreg hjd hl hop (hij.trans hjname.symm)
    · rw [hl] at hl'
      cases hl'
      exact slot_unique ha hi₀ hic hj₀ hjd

/-- What is owed is what the table holds. -/
theorem Visible.asked_step (h : Visible s owes) (hfollows : Follows x s owes) (hx : x.KeepsSlots)
    (hr : x.Registry) (hw : x.WritesStatus) (ha : Tracks s a) (hspeaks : Speaks x s)
    (hspeaks' : Speaks x s') {l : Label} (hok : Open s l) (hs : Step x s l s')
    (howes' : nextOwes s l owes c = true) (hi' : Registered s'.sessions i)
    (hic' : s'.fds (s'.sessions i).sockfd = some c) :
    askedStatus c s'.log = some (s'.sessions i).status := by
  obtain ⟨hi₀, hic, hi₁⟩ := registered_of_step hx hr ha hspeaks hspeaks' hs hi' hic'
  cases howes : owes c with
  | true =>
    have hop : ∀ user fd, s.nextOp c ≠ some (.addSession user fd) := by
      intro user fd hop
      obtain ⟨t, k, ht, hpc⟩ := nextOp_eq_some.1 hop
      obtain ⟨line, -, ⟨hallow, -⟩, -⟩ := hfollows.handling c t _ ht hpc
      rw [howes] at hallow
      cases hallow
    have hireg : Registered s.sessions i := by
      rcases hi₁ with ⟨hireg, -⟩ | ⟨now, sent, fd, -, hadd⟩
      · exact hireg
      · exact absurd hadd (hop _ _)
    have hsame : (s'.sessions i).status = (s.sessions i).status := by
      by_contra hne
      have hwrites := writes_of_step hr hw ha hspeaks hs hi₀ hi'.1 hne
      rw [(own_of_writes h hfollows ha hspeaks hr hok hireg hic hwrites).1] at howes
      cases howes
    rcases hfollows.owes_step hs howes with ⟨-, -, hasked⟩ | ⟨now, sent, msg, fd, rfl, hop⟩
    · rw [hasked, hsame]
      exact h.asked c i howes hireg hic
    · simp [nextOwes, hop] at howes'
  | false =>
    obtain ⟨now, sent, user, status, rfl, hop⟩ := setUserStatus_of_nextOwes howes howes'
    have hireg : Registered s.sessions i := by
      rcases hi₁ with ⟨hireg, -⟩ | ⟨now, sent, fd, -, hadd⟩
      · exact hireg
      · cases hop.symm.trans hadd
    obtain ⟨hname, hne⟩ := hspeaks.nameOf_registered hr hireg hic
    cases hs with
    | @perform _ t _ _ o k r s₁ target ht hpc hop' =>
      obtain ⟨t', k', ht', hpc'⟩ := nextOp_eq_some.1 hop
      obtain rfl := Option.some.inj (ht.symm.trans ht')
      cases hpc.symm.trans hpc'
      obtain ⟨line, g, hline, ⟨⟨-, huser, hstatus, hvalid⟩, -⟩, -, hg⟩ :=
        hspeaks.handling c t _ ht hpc
      cases hop'
      obtain ⟨v, -, hv⟩ := status_of_isValidStatus hvalid
      have hnamed : Named s.sessions i user := ⟨hireg, by rw [hname, huser, hg hr]⟩
      have hwritten := hw.setUserStatus_named s.sessions user status i v
        (by rw [huser, hg hr]; exact hne) hnamed
        (fun j hj => h.unique j i hj.1 hireg (hj.2.trans hnamed.2.symm)) hv
      rw [askedStatus, setThread_log, hline, Option.bind_some, ← hstatus, hv]
      exact congrArg some hwritten.symm
    | start ht hpc | welcome ht hpc | welcomeFailed ht hpc | turn ht hpc | remove ht hpc
    | removeInvalid ht hpc | removeMissing ht hpc | close ht hpc | continue_ ht hpc
    | break_ ht hpc =>
      rw [nextOp_of_pc ht fun o k => by rw [hpc]; simp] at hop
      cases hop

/-- The steps that name nobody keep what the others have been told. -/
theorem Visible.told_registered (h : Visible s owes) (hfollows : Follows x s owes)
    (hr : x.Registry) (hb : x.Broadcasts) (hw : x.WritesStatus) (ha : Tracks s a)
    (hspeaks : Speaks x s) {l : Label} (hok : Open s l) (hs : Step x s l s')
    (hi : Registered s.sessions i) (hic : s.fds (s.sessions i).sockfd = some c)
    (hi' : (s'.sessions i).isActive = true) (hj : Registered s.sessions j)
    (hjd : s.fds (s.sessions j).sockfd = some d) (hcd : c ≠ d)
    (htold : lastTold d (s.sessions i).username s'.log = some w) :
    w = (s'.sessions i).status ∨ nextOwes s l owes c = true := by
  have hij : i ≠ j := by
    rintro rfl
    exact hcd (Option.some.inj (hic.symm.trans hjd))
  have hvalid := hspeaks.username_valid ha hr hi.1
  obtain ⟨hname, -⟩ := hspeaks.nameOf_registered hr hi hic
  -- Whoever else writes the status does it without others.
  have hsame : nextOwes s l owes c = true ∨ (s'.sessions i).status = (s.sessions i).status := by
    by_cases hne : (s'.sessions i).status = (s.sessions i).status
    · exact .inr hne
    · have hwrites := writes_of_step hr hw ha hspeaks hs hi.1 hi' hne
      rcases (own_of_writes h hfollows ha hspeaks hr hok hi hic hwrites).2 with
        halone | ⟨now, sent, user, status, rfl, hop⟩
      · exact absurd (halone j hj).symm hij
      · refine .inl ?_
        simp [nextOwes, hop]
  rcases hsame with howes | hsame
  · exact .inr howes
  obtain ⟨new, hlog, -⟩ := log_of_step hs
  rw [hlog, lastTold_append] at htold
  rw [hsame]
  cases hnew : lastTold d (s.sessions i).username new with
  | some w' =>
    rw [hnew, Option.some_or] at htold
    cases htold
    obtain ⟨src, aim, hmem⟩ := delivered_of_lastTold hnew
    rcases told_of_step hspeaks hr hb hs hlog hvalid hmem with
      ⟨now, sent, n, rest, rfl, hpc, hfd, htext, rfl⟩ |
      ⟨e, now, sent, msg, fd, rfl, hop, hename, hasked⟩
    · have hnotice := hok
      rw [Open, hpc] at hnotice
      refine .inl (hnotice i hi ?_ htext).symm
      rw [hic, hfd]
      exact fun h => hcd (Option.some.inj h)
    · obtain ⟨t, k, ht, hpc⟩ := nextOp_eq_some.1 hop
      obtain rfl := h.conn_unique ha hspeaks hr hi hic ht (by simp [Holding, hpc]) hename
      obtain ⟨line, -, ⟨howes, -⟩, -⟩ := hfollows.handling e t _ ht hpc
      exact .inl (Option.some.inj (hasked.symm.trans (h.asked e i howes hi hic)))
  | none =>
    rw [hnew, Option.none_or] at htold
    rcases h.told c d _ _ w hcd ⟨i, ⟨hi, rfl⟩, hic, rfl⟩ ⟨j, hj, hjd⟩ htold with hw | howes
    · exact .inl hw
    · rcases hfollows.owes_step hs howes with ⟨howes', -⟩ | ⟨now, sent, msg, fd, rfl, hop⟩
      · exact .inr howes'
      · -- The broadcast has told `d`.
        obtain ⟨v, -, hall⟩ := told_by_broadcast ha hspeaks hr hb hop hs hlog
        obtain ⟨src, aim, hmem⟩ := hall d (Ne.symm hcd) ⟨j, hj, hjd⟩
        rw [← hname] at hmem
        obtain ⟨w', hw'⟩ := lastTold_isSome hvalid hmem
        rw [hnew] at hw'
        cases hw'

theorem log_of_addSession {now : Int} {sent : Bool} {fd : Int}
    (hop : s.nextOp c = some (.addSession u fd)) (hs : Step x s (.client c (.go now sent)) s') :
    s'.log = .named c u :: s.log := by
  obtain ⟨t, k, ht, hpc⟩ := nextOp_eq_some.1 hop
  cases hs with
  | perform ht' hpc' hop' =>
    obtain rfl := Option.some.inj (ht.symm.trans ht')
    cases hpc.symm.trans hpc'
    cases hop'
    rfl
  | start ht' hpc' | welcome ht' hpc' | welcomeFailed ht' hpc' | turn ht' hpc' | remove ht' hpc'
  | removeInvalid ht' hpc' | removeMissing ht' hpc' | close ht' hpc' | continue_ ht' hpc'
  | break_ ht' hpc' =>
    obtain rfl := Option.some.inj (ht.symm.trans ht')
    cases hpc.symm.trans hpc'

/-- Every step under the condition keeps what the others have been told. -/
theorem Visible.told_step (h : Visible s owes) (hfollows : Follows x s owes) (hx : x.KeepsSlots)
    (hr : x.Registry) (hb : x.Broadcasts) (hw : x.WritesStatus) (ha : Tracks s a)
    (hspeaks : Speaks x s) (hspeaks' : Speaks x s') {l : Label} (hok : Open s l)
    (hs : Step x s l s') (hcd : c ≠ d) (hshows : Shows s' c u v) (hknown : Known s' d)
    (htold : lastTold d u s'.log = some w) : w = v ∨ nextOwes s l owes c = true := by
  obtain ⟨i, ⟨hi', rfl⟩, hic', rfl⟩ := hshows
  obtain ⟨j, hj', hjd'⟩ := hknown
  obtain ⟨hi₀, hic, hi₁⟩ := registered_of_step hx hr ha hspeaks hspeaks' hs hi' hic'
  obtain ⟨hj₀, hjd, hj₁⟩ := registered_of_step hx hr ha hspeaks hspeaks' hs hj' hjd'
  have hij : i ≠ j := by
    rintro rfl
    exact hcd (Option.some.inj (hic.symm.trans hjd))
  have hkeeps : ∀ {e now sent user fd}, l = .client e (.go now sent) →
      s.nextOp e = some (.addSession user fd) →
      (s'.sessions i).status = (s.sessions i).status := by
    intro e now sent user fd hl hop
    by_contra hne
    have hwrites := writes_of_step hr hw ha hspeaks hs hi₀ hi'.1 hne
    exact not_addSession_of_writes hwrites hl hop
  rcases hi₁ with ⟨hi, hname⟩ | ⟨now, sent, fd, hl, hop⟩
  · rcases hj₁ with ⟨hj, -⟩ | ⟨now, sent, fd, hl, hop⟩
    · rw [← hname] at htold
      exact h.told_registered hfollows hr hb hw ha hspeaks hok hs hi hic hi'.1 hj hjd hcd htold
    · rw [hkeeps hl hop]
      subst hl
      rw [log_of_addSession hop hs, ← hname] at htold
      exact .inl (((hok _ hop j hj₀ hjd i hi hij).2 c hic).2 w htold)
  · have hj : Registered s.sessions j := by
      rcases hj₁ with ⟨hj, -⟩ | ⟨now', sent', fd', hl', -⟩
      · exact hj
      · cases hl.symm.trans hl'
        exact absurd rfl hcd
    rw [hkeeps hl hop]
    subst hl
    rw [log_of_addSession hop hs] at htold
    exact .inl (((hok _ hop i hi₀ hic j hj (Ne.symm hij)).2 d hjd).1 w htold)

/-! ## Every run under the condition -/

theorem visible_init (timeout : Int) : Visible (serverInit timeout) fun _ => false where
  unique i j hi := by cases hi.1
  asked c i howes := by cases howes
  told c d u v w _ hshows := by
    obtain ⟨i, ⟨⟨hi, -⟩, -⟩, -⟩ := hshows
    cases hi

theorem visible_step (h : Visible s owes) (hfollows : Follows x s owes) (hx : x.KeepsSlots)
    (hr : x.Registry) (hb : x.Broadcasts) (hw : x.WritesStatus) (ha : Tracks s a)
    (hspeaks : Speaks x s) {l : Label} (hok : Open s l) (hs : Step x s l s') :
    Visible s' (nextOwes s l owes) := by
  obtain ⟨a', -, ha'⟩ := tracks_step hx ha hs
  have hspeaks' := speaks_step hx hspeaks ha hs
  exact ⟨fun _ _ => h.unique_step hx hr ha ha' hspeaks hspeaks' hok hs,
    fun _ _ => h.asked_step hfollows hx hr hw ha hspeaks hspeaks' hok hs,
    fun _ _ _ _ _ => h.told_step hfollows hx hr hb hw ha hspeaks hspeaks' hok hs⟩

theorem visible_reach (hx : x.KeepsSlots) (hr : x.Registry) (hb : x.Broadcasts)
    (hw : x.WritesStatus) {timeout : Int} (hs : (serverSystem x timeout).ReachUnder Open s) :
    ∃ owes, Follows x s owes ∧ Visible s owes := by
  refine hs.invariant (P := fun s => ∃ owes, Follows x s owes ∧ Visible s owes)
    ⟨_, follows_init timeout, visible_init timeout⟩ ?_
  rintro s l s' hreach ⟨owes, hfollows, h⟩ hok hl
  obtain ⟨a, ha, hspeaks⟩ := speaks_reach hx hreach.reach
  have hstep := step_cases hl
  exact ⟨_, follows_step hfollows ha hspeaks hstep,
    visible_step h hfollows hx hr hb hw ha hspeaks hok hstep⟩

/-! ## The announcement -/

/-- Behind `log` the thread of `c` still owes the others that `u` has status `v`, or they have been
    told. -/
def Announces (c : Conn) (u : Bytes) (v : UserStatus) (log : List Event) (s : Server)
    (owes : Conn → Bool) : Prop :=
  ∃ post, s.log = post ++ log ∧
    (owes c = true ∧ nameOf c s.log = u ∧ askedStatus c s.log = some v ∨
      ∀ d, d ≠ c → nameOf d log ≠ [] → Live s d → statusLine u v ∈ receivedBy d post)

/-- A connection that has a name is registered while it is live. -/
theorem known_of_live (hspeaks : Speaks x s) (hr : x.Registry) (hname : nameOf c s.log ≠ [])
    (hlive : Live s c) : Known s c := by
  obtain ⟨i, hi, hic⟩ := hlive
  obtain ⟨-, hreg⟩ := hspeaks.names hr i c hi hic
  exact ⟨i, ⟨hi, hreg.2 hname⟩, hic⟩

theorem Announces.step {log : List Event} (h : Announces c u v log s owes)
    (hfollows : Follows x s owes) (hx : x.KeepsSlots) (hr : x.Registry) (hb : x.Broadcasts)
    (ha : Tracks s a) (hspeaks : Speaks x s) {l : Label} (hs : Step x s l s') :
    Announces c u v log s' (nextOwes s l owes) := by
  obtain ⟨post, hpost, hstands⟩ := h
  obtain ⟨new, hlog, -⟩ := log_of_step hs
  have hnamed : ∀ d, nameOf d log ≠ [] → nameOf d s.log ≠ [] := by
    intro d hd
    rw [hpost]
    refine nameOf_append_ne (fun user hmem => ?_) hd
    have hvalid := hspeaks.valid d user (by rw [hpost]; exact List.mem_append_left _ hmem)
    exact (isValidUsername_iff.1 hvalid).1
  have hlive : ∀ d, nameOf d log ≠ [] → Live s' d → Live s d := by
    intro d hd hlive
    cases ht : s.threads d with
    | none => exact absurd (hspeaks.unnamed d ht) (hnamed d hd)
    | some t => exact live_of_step hx ha hs ht hlive
  refine ⟨new ++ post, by rw [hlog, hpost, List.append_assoc], ?_⟩
  rcases hstands with ⟨howes, hname, hasked⟩ | hall
  · rcases hfollows.owes_step hs howes with
      ⟨howes', hname', hasked'⟩ | ⟨now, sent, msg, fd, rfl, hop⟩
    · exact .inl ⟨howes', hname'.trans hname, hasked'.trans hasked⟩
    · obtain ⟨v', hv', htold⟩ := told_by_broadcast ha hspeaks hr hb hop hs hlog
      obtain rfl := Option.some.inj (hasked.symm.trans hv')
      refine .inr fun d hdc hd hd' => ?_
      obtain ⟨src, aim, hmem⟩ :=
        htold d hdc (known_of_live hspeaks hr (hnamed d hd) (hlive d hd hd'))
      rw [hname] at hmem
      exact mem_receivedBy.2 ⟨src, aim, List.mem_append_left _ hmem⟩
  · refine .inr fun d hdc hd hd' => ?_
    rw [receivedBy_append]
    exact List.mem_append_left _ (hall d hdc hd (hlive d hd hd'))

/-- A step that changes a status leaves its thread owing the news, unless nobody else is
    registered. -/
theorem owes_of_changesStatus (h : Visible s owes) (hfollows : Follows x s owes)
    (hx : x.KeepsSlots) (hr : x.Registry) (hw : x.WritesStatus) (ha : Tracks s a)
    (hspeaks : Speaks x s) (hspeaks' : Speaks x s') {l : Label} (hok : Open s l)
    (hc : ChangesStatus x s l s' c u v) (hdc : d ≠ c) (hknown : Known s' d) :
    nextOwes s l owes c = true ∧ nameOf c s'.log = u ∧ ∃ now sent, l = .client c (.go now sent) := by
  have hs := step_cases hc.step
  obtain ⟨v₀, hv₀, i, ⟨hi, rfl⟩, hic, rfl⟩ := hc.before
  obtain ⟨i', ⟨hi', hname⟩, hic', rfl⟩ := hc.after
  obtain ⟨hi₀, hic₀, -⟩ := registered_of_step hx hr ha hspeaks hspeaks' hs hi' hic'
  obtain rfl := slot_unique ha hi.1 hic hi₀ hic₀
  have hwrites := writes_of_step hr hw ha hspeaks hs hi₀ hi'.1 (Ne.symm hv₀)
  obtain ⟨hname', -⟩ := hspeaks'.nameOf_registered hr hi' hic'
  obtain ⟨j, hj', hjd'⟩ := hknown
  obtain ⟨-, hjd, hj⟩ := registered_of_step hx hr ha hspeaks hspeaks' hs hj' hjd'
  have hj : Registered s.sessions j := by
    rcases hj with ⟨hj, -⟩ | ⟨now, sent, fd, hl, hop⟩
    · exact hj
    · exact absurd hop (not_addSession_of_writes hwrites hl)
  rcases (own_of_writes h hfollows ha hspeaks hr hok hi hic hwrites).2 with
    halone | ⟨now, sent, user, status, rfl, hop⟩
  · obtain rfl := halone j hj
    exact absurd (Option.some.inj (hjd.symm.trans hic)) hdc
  · exact ⟨by simp [nextOwes, hop], hname'.symm.trans hname, now, sent, rfl⟩

/-- A thread that owes the others the news gets to the end of its line. -/
theorem Follows.finish (hx : x.KeepsSlots) (timeout : Int) {code : ServerProg LoopExit}
    (h : Follows x s owes) (ha : Tracks s a) (hspeaks : Speaks x s) (ht : s.threads c = some t)
    (hpc : t.pc = .handling code) (hin : ∀ line ∈ lastLine c s.log, InBounds line) :
    ∃ n s', (serverSystem x timeout).run s (turns c n) = some s' ∧ s'.busy c = false := by
  induction code generalizing s a t owes with
  | ret exit =>
    have hlast : ∃ pc, s.step x (.client c (.go 0 true)) =
        some (s.setThread c { t with pc := pc, target := none }) ∧ ∀ code, pc ≠ .handling code := by
      cases exit with
      | continue_ => exact ⟨.loop, by simp only [Server.step, ht, hpc, clientStep], by simp⟩
      | break_ => exact ⟨.removing, by simp only [Server.step, ht, hpc, clientStep], by simp⟩
    obtain ⟨pc, hstep, hpc'⟩ := hlast
    refine ⟨1, s.setThread c { t with pc := pc, target := none }, run_turns hstep rfl, ?_⟩
    rw [Bool.eq_false_iff]
    intro hbusy
    obtain ⟨t', code, ht', hcode⟩ := busy_eq_true.1 hbusy
    rw [setThread_threads_self] at ht'
    cases ht'
    exact hpc' code hcode
  | call o k ih =>
    obtain ⟨line, hline, ⟨hallow, -⟩, -⟩ := h.handling c t _ ht hpc
    have hdefined : o ≠ .undefinedBehaviour := by
      rintro rfl
      exact hallow.2 (hin line hline)
    obtain ⟨r, s₁, target, hop⟩ := perform_defined (x := x) hdefined s c t 0 true
    have hstep := step_of_perform ht hpc hop
    have hcases := step_cases hstep
    obtain ⟨a', -, ha'⟩ := tracks_step hx ha hcases
    have hin' : ∀ line ∈ lastLine c
        (s₁.setThread c { t with pc := .handling (k r), target := target }).log, InBounds line := by
      rw [setThread_log, (memory_perform (d := c) hop).1]
      exact hin
    obtain ⟨n, s', hrun, hend⟩ := ih r (follows_step h ha hspeaks hcases) ha'
      (speaks_step hx hspeaks ha hcases) (setThread_threads_self _ _ _) rfl hin'
    exact ⟨n + 1, s', run_turns hstep hrun, hend⟩

/-- In every run in which no status is taken from or given back to a session before others, except
    by its `STATUS`, and no name goes to a session that the others would take for another one, the
    changes of statuses are visible. -/
theorem statusVisible_of_open (hx : x.KeepsSlots) (hr : x.Registry) (hb : x.Broadcasts)
    (hw : x.WritesStatus) {timeout : Int} (hs : (serverSystem x timeout).ReachUnder Open s) :
    StatusVisible x timeout Open s := by
  obtain ⟨owes, hfollows, hvisible⟩ := visible_reach hx hr hb hw hs
  obtain ⟨a, ha, hspeaks⟩ := speaks_reach hx hs.reach
  refine ⟨?_, ?_, ?_⟩
  · intro l s₁ c u v hok hc s₂ hs₂ hrest d hdc hknown hknown'
    have hreach := hs.step hok hc.step
    obtain ⟨a₁, ha₁, hspeaks₁⟩ := speaks_reach hx hreach.reach
    obtain ⟨howes, hname, now, sent, rfl⟩ := owes_of_changesStatus hvisible hfollows hx hr hw ha
      hspeaks hspeaks₁ hok hc hdc hknown
    have hstep := step_cases hc.step
    have hfollows₁ := follows_step hfollows ha hspeaks hstep
    have hvisible₁ := visible_step hvisible hfollows hx hr hb hw ha hspeaks hok hstep
    obtain ⟨i, ⟨hi, -⟩, hic, rfl⟩ := hc.after
    have hasked := hvisible₁.asked c i howes hi hic
    have hrun : ∃ owes, Follows x s₂ owes ∧ Announces c u (s₁.sessions i).status s₁.log s₂ owes := by
      refine hs₂.invariant (P := fun s₂ => ∃ owes, Follows x s₂ owes ∧
        Announces c u (s₁.sessions i).status s₁.log s₂ owes) ?_ ?_
      · exact ⟨_, hfollows₁, [], rfl, .inl ⟨howes, hname, hasked⟩⟩
      · rintro s₂ l s₃ hs₂ ⟨owes₂, hfollows₂, h⟩ - hl
        obtain ⟨a₂, ha₂, hspeaks₂⟩ := speaks_reach hx (hreach.trans hs₂).reach
        have hcases := step_cases hl
        exact ⟨_, follows_step hfollows₂ ha₂ hspeaks₂ hcases,
          h.step hfollows₂ hx hr hb ha₂ hspeaks₂ hcases⟩
    obtain ⟨owes₂, hfollows₂, post, hpost, hstands⟩ := hrun
    obtain ⟨new, hlog, -⟩ := log_of_step hstep
    refine ⟨post ++ new, by rw [hpost, hlog, List.append_assoc], ?_⟩
    rw [receivedBy_append]
    refine List.mem_append_right _ ?_
    rcases hstands with ⟨howes₂, -⟩ | hall
    · rw [hfollows₂.idle c hrest] at howes₂
      cases howes₂
    · obtain ⟨j, hj, hjd⟩ := hknown
      obtain ⟨j', hj', hjd'⟩ := hknown'
      exact hall d hdc (hspeaks₁.nameOf_registered hr hj hjd).2 ⟨j', hj'.1, hjd'⟩
  · intro l s₁ c u v hok hc d hdc hknown
    have hreach := hs.step hok hc.step
    obtain ⟨a₁, ha₁, hspeaks₁⟩ := speaks_reach hx hreach.reach
    obtain ⟨howes, hname, now, sent, rfl⟩ := owes_of_changesStatus hvisible hfollows hx hr hw ha
      hspeaks hspeaks₁ hok hc hdc hknown
    have hfollows₁ := follows_step hfollows ha hspeaks (step_cases hc.step)
    have hbusy : s₁.busy c = true := by
      by_contra hbusy
      rw [hfollows₁.idle c (Bool.eq_false_iff.2 hbusy)] at howes
      cases howes
    obtain ⟨t, code, ht, hpc⟩ := busy_eq_true.1 hbusy
    obtain ⟨line, hline, -, hin⟩ := hfollows₁.handling c t code ht hpc
    refine hfollows₁.finish hx timeout ha₁ hspeaks₁ ht hpc fun line' hline' => ?_
    obtain rfl := Option.some.inj (hline.symm.trans hline')
    exact hin howes
  · intro c d u v w hcd hshows hknown hbusy htold
    rcases hvisible.told c d u v w hcd hshows hknown htold with hw | howes
    · exact hw
    · rw [hfollows.idle c hbusy] at howes
      cases howes

/-- Two users register, and the first one is busy. -/
def busyAna : List Label := privateMessage "STATUS|OCUPADO\n" ++ turns 0 1

theorem statusVisible_busyAna :
    ∃ s, (serverSystem managerExterns 60).runIf (fun s l => decide (Open s l)) (serverInit 60)
      busyAna = some s ∧ StatusVisible managerExterns 60 Open s := by
  have hrun : ((serverSystem managerExterns 60).runIf (fun s l => decide (Open s l))
    (serverInit 60) busyAna).isSome = true := by decide +kernel
  obtain ⟨s, hs⟩ := Option.isSome_iff_exists.1 hrun
  refine ⟨s, hs, statusVisible_of_open managerExterns_keepsSlots managerExterns_registry
    managerExterns_broadcasts managerExterns_writesStatus (System.ReachUnder.init.runIf ?_ hs)⟩
  exact fun _ _ _ h => of_decide_eq_true h

/-- The monitor finds her idle, and the other user goes on taking her for busy. -/
theorem idleAna_unseen :
    ¬ ∀ (x : Externs) (timeout : Int) (s : Server), x.KeepsSlots → x.Registry → x.Broadcasts →
      x.WritesStatus → (serverSystem x timeout).Reach s →
      StatusVisible x timeout (fun _ _ => True) s := by
  intro h
  obtain ⟨s, hs, hp⟩ := System.exists_reach_of_run (S := serverSystem managerExterns 60)
    (busyAna ++ [.monitor 100 true])
    (fun s => decide ((Registered s.sessions 0 ∧ (s.sessions 0).username = ascii "ana" ∧
        s.fds (s.sessions 0).sockfd = some 0 ∧ (s.sessions 0).status = .inactivo) ∧
      (Registered s.sessions 1 ∧ s.fds (s.sessions 1).sockfd = some 1) ∧
      s.busy 0 = false ∧ lastTold 1 (ascii "ana") s.log = some .ocupado))
    (by decide +kernel)
  obtain ⟨⟨hana, hname, hfd, hstatus⟩, hcami, hbusy, htold⟩ := of_decide_eq_true hp
  have hclaimed := h managerExterns 60 s managerExterns_keepsSlots managerExterns_registry
    managerExterns_broadcasts managerExterns_writesStatus hs
  have hequal := hclaimed.told 0 1 (ascii "ana") .inactivo .ocupado (by decide)
    ⟨0, ⟨hana, hname⟩, hfd, hstatus⟩ ⟨1, hcami⟩ hbusy htold
  exact absurd hequal (by decide)

end Server

end ChatMultithread
