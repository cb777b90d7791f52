import ChatMultithread.Server.Proofs.Status

/-!
# Who still has to tell the others

A thread that has written a status owes the others the news until its `broadcast_except`. Which
threads do is a function of the steps taken; a thread that owes a broadcast handles a line, changes
no name and writes no further status, and its broadcast reaches every registered session.
-/

namespace ChatMultithread

open Lib Lib.HandleTable

/-- The status that the last line of `c` asks for. -/
def askedStatus (c : Conn) (log : List Event) : Option UserStatus :=
  (lastLine c log).bind fun line => statusOfString (field line 1)

namespace Server

/-- The connection has a registered session. -/
def Known (s : Server) (c : Conn) : Prop :=
  ∃ i, Registered s.sessions i ∧ s.fds (s.sessions i).sockfd = some c

/-- The thread is handling a line. -/
def busy (s : Server) (c : Conn) : Bool :=
  match (s.threads c).map Thread.pc with
  | some (.handling _) => true
  | _ => false

/-- Which threads owe the others a broadcast after a step. -/
def nextOwes (s : Server) (l : Label) (owes : Conn → Bool) : Conn → Bool :=
  match l with
  | .client c (.go _ _) =>
      match s.nextOp c with
      | some (.setUserStatus _ _) => Function.update owes c true
      | some (.broadcastExcept _ _) => Function.update owes c false
      | _ => owes
  | _ => owes

/-- The threads are within their monitors, and only those that handle a line owe anything. -/
structure Follows (x : Externs) (s : Server) (owes : Conn → Bool) : Prop where
  handling : ∀ c t code, s.threads c = some t → t.pc = .handling code →
    ∃ line, lastLine c s.log = some line ∧
      Owing x.Plain t.slot t.sockfd line (owes c) code ∧ (owes c = true → InBounds line)
  idle : ∀ c, s.busy c = false → owes c = false

variable {x : Externs} {s s' : Server} {a : Lives} {c d : Conn} {t : Thread} {i : Slot}
  {owes : Conn → Bool}

theorem busy_eq_true : s.busy c = true ↔ ∃ t code, s.threads c = some t ∧ t.pc = .handling code := by
  unfold busy
  constructor
  · intro h
    split at h
    · rename_i code hpc
      obtain ⟨t, ht, hpc⟩ := Option.map_eq_some_iff.1 hpc
      exact ⟨t, code, ht, hpc⟩
    · cases h
  · rintro ⟨t, code, ht, hpc⟩
    simp [ht, hpc]

/-! ## The ghost state -/

theorem nextOwes_other {l : Label} (hl : ∀ choice, l ≠ .client d choice) :
    nextOwes s l owes d = owes d := by
  unfold nextOwes
  split
  · rename_i c now sent
    have hdc : d ≠ c := by
      rintro rfl
      exact hl _ rfl
    cases s.nextOp c with
    | none => rfl
    | some o => cases o <;> simp [hdc]
  · rfl

theorem nextOwes_self {o : Op} (hop : s.nextOp c = some o) (plain : Prop) (slot : Slot) (fd : Int)
    (line : Bytes) (r : o.Resp) (now : Int) (sent : Bool) :
    nextOwes s (.client c (.go now sent)) owes c =
      (statusMonitor plain slot fd line).next (owes c) o r := by
  unfold nextOwes
  cases o <;> simp [hop, statusMonitor]

theorem nextOwes_none (hop : s.nextOp c = none) (choice : ClientChoice) :
    nextOwes s (.client c choice) owes = owes := by
  cases choice <;> simp [nextOwes, hop]

/-- Only by writing a status a thread comes to owe the news. -/
theorem setUserStatus_of_nextOwes {l : Label} (howes : owes c = false)
    (howes' : nextOwes s l owes c = true) : ∃ now sent user status, l = .client c (.go now sent) ∧
      s.nextOp c = some (.setUserStatus user status) := by
  have hown : ∃ choice, l = .client c choice := by
    by_contra hown
    rw [nextOwes_other fun choice e => hown ⟨choice, e⟩, howes] at howes'
    cases howes'
  obtain ⟨choice, rfl⟩ := hown
  cases choice with
  | line raw | hangup => simp [nextOwes, howes] at howes'
  | go now sent =>
    cases hop : s.nextOp c with
    | none => simp [nextOwes, hop, howes] at howes'
    | some o =>
      cases o
      case setUserStatus user status => exact ⟨now, sent, user, status, rfl, rfl⟩
      all_goals simp [nextOwes, hop, howes] at howes'

/-- A thread that steps stays within its monitor. -/
theorem Follows.own (h : Follows x s owes) (ha : Tracks s a) (hspeaks : Speaks x s)
    {choice : ClientChoice} (hs : Step x s (.client c choice) s') {t' : Thread}
    (ht' : s'.threads c = some t') :
    (∀ code, t'.pc = .handling code → ∃ line, lastLine c s'.log = some line ∧
      Owing x.Plain t'.slot t'.sockfd line (nextOwes s (.client c choice) owes c) code ∧
      (nextOwes s (.client c choice) owes c = true → InBounds line)) ∧
    ((∀ code, t'.pc ≠ .handling code) → nextOwes s (.client c choice) owes c = false) := by
  have hidle : ∀ t, s.threads c = some t → (∀ code, t.pc ≠ .handling code) →
      nextOwes s (.client c choice) owes c = false := by
    intro t ht hpc
    rw [nextOwes_none (nextOp_of_pc ht fun o k => hpc _)]
    apply h.idle c
    rw [Bool.eq_false_iff]
    intro hbusy
    obtain ⟨t', code, ht', hpc'⟩ := busy_eq_true.1 hbusy
    obtain rfl := Option.some.inj (ht.symm.trans ht')
    exact hpc code hpc'
  cases hs with
  | @line _ t raw ht hpc hraw =>
    rw [setThread_threads_self] at ht'
    cases ht'
    have hlen := length_cstr_frame hraw
    have howes := hidle t ht fun code => by rw [hpc]; simp
    refine ⟨fun code hcode => ?_, fun _ => howes⟩
    cases hcode
    rw [howes]
    exact ⟨cstr raw, by simp, clientLine_owing hlen, fun h => absurd h (by decide)⟩
  | @perform _ t now sent o k r s₁ target ht hpc hop =>
    rw [setThread_threads_self] at ht'
    cases ht'
    refine ⟨fun code hcode => ?_, fun hno => absurd rfl (hno _)⟩
    cases hcode
    obtain ⟨line, hline, ⟨hallow, hsafe⟩, hin⟩ := h.handling c t _ ht hpc
    obtain ⟨line', g, hline', ⟨hallow', -⟩, htarget, hname⟩ := hspeaks.handling c t _ ht hpc
    obtain rfl := Option.some.inj (hline.symm.trans hline')
    obtain ⟨hans, -⟩ := hspeaks.perform ha ht (by simp [Holding, hpc]) (by simp [hpc]) htarget
      hname hallow' hop
    rw [nextOwes_self (nextOp_eq_some.2 ⟨t, k, ht, hpc⟩) x.Plain t.slot t.sockfd line r]
    refine ⟨line, ?_, hsafe r hans, fun howes => ?_⟩
    · rw [setThread_log, (memory_perform (d := c) hop).1]
      exact hline
    · cases o
      case setUserStatus user status => exact hallow.2
      case broadcastExcept msg fd => cases howes
      all_goals exact hin howes
  | start ht hpc | welcome ht hpc | welcomeFailed ht hpc | hangup ht hpc | remove ht hpc
  | removeInvalid ht hpc | removeMissing ht hpc | close ht hpc =>
    have howes := hidle _ ht fun code => by rw [hpc]; simp
    rw [setThread_threads_self] at ht'
    cases ht'
    exact ⟨fun code hcode => (by cases hcode), fun _ => howes⟩
  | turn ht hpc hto =>
    have howes := hidle _ ht fun code => by rw [hpc]; simp
    rw [setThread_threads_self] at ht'
    cases ht'
    refine ⟨fun code hcode => ?_, fun _ => howes⟩
    rcases hto with ⟨-, rfl⟩ | ⟨-, rfl⟩ <;> cases hcode
  | continue_ ht hpc | break_ ht hpc =>
    obtain ⟨line, -, howes, -⟩ := h.handling c _ _ ht hpc
    have hfalse : owes c = false := howes
    rw [nextOwes_none (nextOp_of_pc ht fun o k => by rw [hpc]; simp)]
    rw [setThread_threads_self] at ht'
    cases ht'
    exact ⟨fun code hcode => (by cases hcode), fun _ => hfalse⟩

theorem follows_init (timeout : Int) : Follows x (serverInit timeout) fun _ => false where
  handling c t code ht := by cases ht
  idle _ _ := rfl

theorem follows_step (h : Follows x s owes) (ha : Tracks s a) (hspeaks : Speaks x s) {l : Label}
    (hs : Step x s l s') : Follows x s' (nextOwes s l owes) := by
  constructor
  · intro c t' code ht' hpc
    by_cases hown : ∃ choice, l = .client c choice
    · obtain ⟨choice, rfl⟩ := hown
      exact (h.own ha hspeaks hs ht').1 code hpc
    · have hl : ∀ choice, l ≠ .client c choice := fun choice e => hown ⟨choice, e⟩
      rw [nextOwes_other hl, (memory_of_step hs hl).2]
      rcases thread_of_other ha hs hl ht' with ht | ⟨-, hstart, -⟩
      · exact h.handling c t' code ht hpc
      · rw [hstart] at hpc
        cases hpc
  · intro c hbusy
    have hnot : ∀ t' code, s'.threads c = some t' → t'.pc ≠ .handling code := by
      intro t' code ht' hpc
      rw [busy_eq_true.2 ⟨t', code, ht', hpc⟩] at hbusy
      cases hbusy
    by_cases hown : ∃ choice, l = .client c choice
    · obtain ⟨choice, rfl⟩ := hown
      obtain ⟨t, ht⟩ := thread_of_client_step hs
      obtain ⟨t', ht', -⟩ := own_step hs ht
      exact (h.own ha hspeaks hs ht').2 fun code => hnot t' code ht'
    · have hl : ∀ choice, l ≠ .client c choice := fun choice e => hown ⟨choice, e⟩
      rw [nextOwes_other hl]
      apply h.idle c
      rw [Bool.eq_false_iff]
      intro hbusy
      obtain ⟨t, code, ht, hpc⟩ := busy_eq_true.1 hbusy
      exact hnot t code (threads_of_step ha hs ht hl) hpc

/-- What is owed stays owed, and what it is about is remembered, until the broadcast. -/
theorem Follows.owes_step (h : Follows x s owes) {l : Label} (hs : Step x s l s')
    (howes : owes c = true) :
    nextOwes s l owes c = true ∧ nameOf c s'.log = nameOf c s.log ∧
        askedStatus c s'.log = askedStatus c s.log ∨
      ∃ now sent msg fd, l = .client c (.go now sent) ∧
        s.nextOp c = some (.broadcastExcept msg fd) := by
  by_cases hown : ∃ choice, l = .client c choice
  · obtain ⟨choice, rfl⟩ := hown
    have hbusy : s.busy c = true := by
      by_contra hbusy
      rw [h.idle c (Bool.eq_false_iff.2 hbusy)] at howes
      cases howes
    obtain ⟨t, code, ht, hpc⟩ := busy_eq_true.1 hbusy
    obtain ⟨line, -, hsafe, -⟩ := h.handling c t code ht hpc
    rw [howes] at hsafe
    cases hs with
    | @perform _ t' now sent o k r s₁ target ht' hpc' hop =>
      obtain rfl := Option.some.inj (ht.symm.trans ht')
      obtain rfl := ThreadPc.handling.inj (hpc.symm.trans hpc')
      have hnext := nextOp_eq_some.2 ⟨t, k, ht, hpc⟩
      obtain ⟨hline, hname⟩ := memory_perform (d := c) hop
      rw [nextOwes_self hnext x.Plain t.slot t.sockfd line r, howes, setThread_log, hname,
        askedStatus, hline]
      cases o
      case addSession user fd => cases hsafe.1
      case broadcastExcept msg fd => exact .inr ⟨now, sent, msg, fd, rfl, hnext⟩
      all_goals exact .inl ⟨rfl, rfl, rfl⟩
    | continue_ ht' hpc' | break_ ht' hpc' =>
      obtain rfl := Option.some.inj (ht.symm.trans ht')
      obtain rfl := ThreadPc.handling.inj (hpc.symm.trans hpc')
      cases hsafe
    | start ht' hpc' | welcome ht' hpc' | welcomeFailed ht' hpc' | turn ht' hpc' | line ht' hpc'
    | hangup ht' hpc' | remove ht' hpc' | removeInvalid ht' hpc' | removeMissing ht' hpc'
    | close ht' hpc' =>
      obtain rfl := Option.some.inj (ht.symm.trans ht')
      cases hpc.symm.trans hpc'
  · have hl : ∀ choice, l ≠ .client c choice := fun choice e => hown ⟨choice, e⟩
    obtain ⟨hname, hline⟩ := memory_of_step hs hl
    rw [askedStatus, hline]
    exact .inl ⟨(nextOwes_other hl).trans howes, hname, rfl⟩

/-! ## What a step says about a status -/

section Told

variable {l : Label} {new : List Event} {u : Bytes} {v : UserStatus} {src : Source}
  {aim : Option Conn} {buf : Bytes}

/-- What one delivery has written. -/
theorem delivered_of_deliver {src' : Source} {aim' : Option Conn} {fd : Int} {buf' : Bytes}
    (hlog : (s.deliver src' aim' fd buf').log = new ++ s.log)
    (hmem : .delivered src aim d buf ∈ new) : s.fds fd = some d ∧ buf = buf' := by
  rw [deliver_log] at hlog
  cases hfd : s.fds fd with
  | none =>
    rw [hfd] at hlog
    obtain rfl : [] = new := List.append_cancel_right hlog
    exact absurd hmem List.not_mem_nil
  | some dst =>
    rw [hfd] at hlog
    obtain rfl : [_] = new := List.append_cancel_right hlog
    cases List.mem_singleton.1 hmem
    exact ⟨rfl, rfl⟩

/-- What several deliveries have written. -/
theorem delivered_of_deliverAll {src' : Source} {sends : List (Int × Bytes)}
    (hlog : (s.deliverAll src' sends).log = new ++ s.log)
    (hmem : .delivered src aim d buf ∈ new) : ∃ p ∈ sends, buf = p.2 := by
  rw [deliverAll_log] at hlog
  obtain rfl := List.append_cancel_right hlog
  obtain ⟨p, hp, dst, -, he⟩ := mem_deliveries.1 hmem
  cases he
  exact ⟨p, hp, rfl⟩

/-- A string reaches a connection by a step of the monitor, as a welcome, or by an operation. -/
theorem delivered_of_step (hb : x.Broadcasts) (hs : Step x s l s') (hlog : s'.log = new ++ s.log)
    (hmem : .delivered src aim d buf ∈ new) :
    (∃ now sent n rest, l = .monitor now sent ∧ s.monitor = .sending (n :: rest) ∧
        s.fds n.sockfd = some d ∧ buf = n.text) ∨
      buf = ascii "WELCOME|CHAT/1.0\n" ∨
      ∃ e now sent o, l = .client e (.go now sent) ∧ s.nextOp e = some o ∧
        buffer o = some buf := by
  have hsame : s'.log ≠ s.log := by
    intro hsame
    obtain rfl : [] = new := List.append_cancel_right (hsame.symm.trans hlog)
    exact List.not_mem_nil hmem
  have hcons : ∀ {e : Event}, s'.log = e :: s.log → e = .delivered src aim d buf := by
    intro e hgrown
    obtain rfl : [e] = new := List.append_cancel_right (hgrown.symm.trans hlog)
    exact (List.mem_singleton.1 hmem).symm
  cases hs with
  | welcome => exact .inr (.inl (delivered_of_deliver hlog hmem).2)
  | @perform e t now sent o k r s₁ target ht hpc hop =>
    refine .inr (.inr ⟨e, now, sent, o, rfl, nextOp_eq_some.2 ⟨t, k, ht, hpc⟩, ?_⟩)
    cases o
    case undefinedBehaviour => cases hop
    case addSession user fd =>
      cases hop
      cases hcons rfl
    case broadcastAll msg =>
      cases hop
      obtain ⟨p, hp, rfl⟩ := delivered_of_deliverAll hlog hmem
      rw [buffer, ((hb.mem_broadcastAll _ _ p).1 hp).1]
    case broadcastExcept msg fd =>
      cases hop
      obtain ⟨p, hp, rfl⟩ := delivered_of_deliverAll hlog hmem
      rw [buffer, ((hb.mem_broadcastExcept _ _ _ p).1 hp).1]
    case send fd buf' =>
      cases hop
      cases sent
      · exact absurd rfl hsame
      · rw [buffer, (delivered_of_deliver hlog hmem).2]
    all_goals
      cases hop
      exact absurd rfl hsame
  | @notify now n rest hpc hfd =>
    obtain ⟨hd, hbuf⟩ := delivered_of_deliver hlog hmem
    exact .inl ⟨now, true, n, rest, rfl, hpc, hd, hbuf⟩
  | line | close | reject | undoClose => cases hcons rfl
  | start | welcomeFailed | turn | hangup | continue_ | break_ | remove | removeInvalid
  | removeMissing | acceptMove | connection | addFull | add | findNone | find | create
  | createFailed | undoMissing | undo | undoInvalid | store | tick | monitorMove | signal =>
    exact absurd rfl hsame

theorem status_of_isValidStatus {status : Bytes} (h : isValidStatus status = true) :
    ∃ v, status = statusToString v ∧ statusOfString status = some v := by
  simp only [isValidStatus, Bool.or_eq_true, beq_iff_eq] at h
  rcases h with (rfl | rfl) | rfl
  · exact ⟨.activo, rfl, by decide⟩
  · exact ⟨.ocupado, rfl, by decide⟩
  · exact ⟨.inactivo, rfl, by decide⟩

theorem protoParseType_statusLine : (protoParseType (cstr (statusLine u v))).1 = srvStatusChanged :=
  protoParseType_lineOf (by decide) _

/-- A notice of the monitor says that its user is inactive. -/
theorem inactivityNotice_eq {name : Bytes} (hname : name = [] ∨ isValidUsername name = true) :
    ∃ u, (u = [] ∨ isValidUsername u = true) ∧ inactivityNotice name = statusLine u .inactivo := by
  by_cases hnil : name = []
  · refine ⟨ascii "UNREGISTERED", .inr (by decide), ?_⟩
    rw [inactivityNotice, if_pos hnil]
    rfl
  · refine ⟨name, hname, ?_⟩
    rw [inactivityNotice, if_neg hnil]
    rfl

/-- A status reaches a connection as a notice of the monitor, or by the broadcast of the user. -/
theorem told_of_step (hspeaks : Speaks x s) (hr : x.Registry) (hb : x.Broadcasts)
    (hs : Step x s l s') (hlog : s'.log = new ++ s.log) (hu : u = [] ∨ isValidUsername u = true)
    (hmem : .delivered src aim d (statusLine u v) ∈ new) :
    (∃ now sent n rest, l = .monitor now sent ∧ s.monitor = .sending (n :: rest) ∧
        s.fds n.sockfd = some d ∧ n.text = statusLine u .inactivo ∧ v = .inactivo) ∨
      ∃ e now sent msg fd, l = .client e (.go now sent) ∧
        s.nextOp e = some (.broadcastExcept msg fd) ∧ nameOf e s.log = u ∧
        askedStatus e s.log = some v := by
  rcases delivered_of_step hb hs hlog hmem with
    ⟨now, sent, n, rest, hl, hpc, hd, htext⟩ | hwelcome | ⟨e, now, sent, o, hl, hop, hbuf⟩
  · obtain ⟨name, hnotice, hname⟩ := hspeaks.pending _ hpc n List.mem_cons_self
    obtain ⟨u', hu', heq⟩ := inactivityNotice_eq (hname hr)
    obtain ⟨rfl, rfl⟩ := statusLine_inj hu hu' (htext.trans (hnotice.trans heq))
    exact .inl ⟨now, sent, n, rest, hl, hpc, hd, htext.symm, rfl⟩
  · have htype := protoParseType_statusLine (u := u) (v := v)
    rw [hwelcome] at htype
    exact absurd htype (by decide)
  · obtain ⟨t, k, ht, hpc⟩ := nextOp_eq_some.1 hop
    obtain ⟨line, g, hline, ⟨hallow, -⟩, -, hname⟩ := hspeaks.handling e t _ ht hpc
    have hother : ∀ {word args}, IsWord word → word ≠ srvStatusChanged →
        statusLine u v ≠ snprintf maxMsg (lineOf word args) := by
      intro word args hword hne heq
      have htype := protoParseType_statusLine (u := u) (v := v)
      rw [heq, protoParseType_lineOf hword] at htype
      exact hne htype
    cases o
    case send fd buf =>
      cases hbuf
      rcases hallow with ⟨-, hreply⟩ | ⟨-, -, heq⟩
      · have hmem := reply_type hreply
        rw [protoParseType_statusLine] at hmem
        exact absurd (by decide) hmem
      · exact absurd heq (hother (by decide) (by decide))
    case broadcastAll msg =>
      cases hbuf
      exact absurd hallow.2 (hother (by decide) (by decide))
    case broadcastExcept msg fd =>
      cases hbuf
      obtain ⟨-, -, hvalid, heq⟩ := hallow
      obtain ⟨v', hv', hstatus⟩ := status_of_isValidStatus hvalid
      have hg := hname hr
      have heq' : statusLine u v = statusLine g.name v' := by rw [heq, hv', statusLine]
      have hvalid' : g.name = [] ∨ isValidUsername g.name = true := by
        rw [hg]
        exact hspeaks.nameOf_valid e
      obtain ⟨rfl, rfl⟩ := statusLine_inj hu hvalid' heq'
      refine .inr ⟨e, now, sent, _, fd, hl, hop, hg.symm, ?_⟩
      rw [askedStatus, hline]
      exact hstatus
    all_goals cases hbuf

/-- The broadcast of a thread tells every other connection with a registered session what the
    thread has been asked for. -/
theorem told_by_broadcast (ha : Tracks s a) (hspeaks : Speaks x s) (hr : x.Registry)
    (hb : x.Broadcasts) {now : Int} {sent : Bool} {msg : Bytes} {fd : Int}
    (hop : s.nextOp c = some (.broadcastExcept msg fd)) (hs : Step x s (.client c (.go now sent)) s')
    (hlog : s'.log = new ++ s.log) :
    ∃ v, askedStatus c s.log = some v ∧ ∀ d, d ≠ c → Known s d → ∃ src aim,
      .delivered src aim d (statusLine (nameOf c s.log) v) ∈ new := by
  obtain ⟨t, k, ht, hpc⟩ := nextOp_eq_some.1 hop
  obtain ⟨line, g, hline, ⟨⟨rfl, -, hvalid, rfl⟩, -⟩, -, hname⟩ := hspeaks.handling c t _ ht hpc
  obtain ⟨v, hv, hstatus⟩ := status_of_isValidStatus hvalid
  have hasked : askedStatus c s.log = some v := by
    rw [askedStatus, hline]
    exact hstatus
  refine ⟨v, hasked, fun d hdc ⟨i, hi, hd⟩ => ?_⟩
  cases hs with
  | @perform _ t' _ _ o k' r s₁ target ht' hpc' hop' =>
    obtain rfl := Option.some.inj (ht.symm.trans ht')
    cases hpc.symm.trans hpc'
    cases hop'
    rw [setThread_log, deliverAll_log] at hlog
    obtain rfl := List.append_cancel_right hlog
    have hplaced := ha.placed_sockfd ht (by simp [Holding, hpc]) (by simp [hpc])
    have hne : (s.sessions i).sockfd ≠ t.sockfd := by
      intro hfd
      rw [hfd, ha.fds_placed hplaced] at hd
      exact hdc (Option.some.inj hd).symm
    have htext : buildStatusChanged maxMsg g.name (field line 1) = statusLine (nameOf c s.log) v := by
      rw [statusLine, hname hr, hv]
    have hsent : ((s.sessions i).sockfd, statusLine (nameOf c s.log) v) ∈
        x.broadcastExcept s.sessions (buildStatusChanged maxMsg g.name (field line 1)) t.sockfd :=
      (hb.mem_broadcastExcept _ _ _ _).2 ⟨htext.symm, hne, i, hi, rfl⟩
    exact ⟨.client c, some d, mem_deliveries.2 ⟨_, hsent, d, hd, rfl⟩⟩
  | start ht' hpc' | welcome ht' hpc' | welcomeFailed ht' hpc' | turn ht' hpc' | remove ht' hpc'
  | removeInvalid ht' hpc' | removeMissing ht' hpc' | close ht' hpc' | continue_ ht' hpc'
  | break_ ht' hpc' =>
    obtain rfl := Option.some.inj (ht.symm.trans ht')
    cases hpc.symm.trans hpc'

end Told

end Server

end ChatMultithread
