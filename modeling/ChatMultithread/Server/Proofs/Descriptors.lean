import ChatMultithread.Server.Proofs.Spoken

/-!
# Whose descriptor a string goes to

`handle_msg` and the monitor copy a descriptor inside a critical section and send to it later.
In between the connection behind it can be closed, and `accept` may hand out the number again. As
long as `accept` returns no descriptor that somebody still means to send to, every string goes to
the connection that owned the descriptor when it was obtained, or to nobody.
-/

namespace ChatMultithread

open Lib

namespace Server

/-- Somebody has obtained `fd`, which was `owner`'s, and has not sent to it yet. -/
inductive Held (s : Server) : Int → Option Conn → Prop
  | target {c : Conn} {t : Thread} {fd : Int} {owner : Option Conn} (ht : s.threads c = some t)
      (h : t.target = some (fd, owner)) : Held s fd owner
  | pending {ns : List Notification} {n : Notification} (h : s.monitor = .sending ns)
      (hn : n ∈ ns) : Held s n.sockfd n.aim

/-- `accept` returns no descriptor that somebody holds. -/
def NoReuse (s : Server) : Label → Prop
  | .acceptor (.connection fd _ _) => ∀ owner, ¬ Held s fd owner
  | _ => True

/-- A descriptor that somebody holds is still its owner's, or closed; and every string went to
    the connection it was meant for. -/
structure Aimed (s : Server) : Prop where
  held : ∀ fd owner, Held s fd owner → s.fds fd = owner ∨ s.fds fd = none
  delivered : ∀ src aim dst buf, .delivered src aim dst buf ∈ s.log → aim = some dst

variable {x : Externs} {s s' : Server} {a : Lives} {c : Conn} {t : Thread}

/-! ## Descriptors -/

theorem not_held {fd : Int} {owner : Option Conn} (hthreads : ∀ c, s.threads c = none)
    (hmonitor : ∀ ns, s.monitor ≠ .sending ns) : ¬ Held s fd owner := by
  intro hheld
  cases hheld with
  | target ht =>
    rw [hthreads] at ht
    cases ht
  | pending hpc => exact hmonitor _ hpc

/-- A descriptor keeps its owner in a step, unless it is closed or `accept` returns it. -/
theorem fds_of_step {l : Label} (hs : Step x s l s') (fd : Int) :
    s'.fds fd = s.fds fd ∨ s'.fds fd = none ∨ ∃ addr now, l = .acceptor (.connection fd addr now) := by
  cases hs with
  | @connection fd' addr now hpc hfd hfree =>
    by_cases heq : fd = fd'
    · subst heq
      exact .inr (.inr ⟨addr, now, rfl⟩)
    · exact .inl (Function.update_of_ne heq _ _)
  | @close c t now sent old =>
    change Function.update s.fds old none fd = _ ∨ Function.update s.fds old none fd = none ∨ _
    rw [Function.update_apply]
    split
    · exact .inr (.inl rfl)
    · exact .inl rfl
  | @reject fd' c | @undoClose fd' c =>
    change Function.update s.fds fd' none fd = _ ∨ Function.update s.fds fd' none fd = none ∨ _
    rw [Function.update_apply]
    split
    · exact .inr (.inl rfl)
    · exact .inl rfl
  | welcome | notify =>
    refine .inl ?_
    simp
  | perform ht hpc hop =>
    refine .inl ?_
    rw [setThread_fds, perform_frame hop]
  | start | welcomeFailed | turn | line | hangup | continue_ | break_ | remove | removeInvalid
  | removeMissing | acceptMove | addFull | add | findNone | find | create | createFailed
  | undoMissing | undo | undoInvalid | store | tick | monitorMove | signal => exact .inl rfl

/-- What a thread looks up it has from the descriptors as they are. -/
theorem target_perform {now : Int} {sent : Bool} {o : Op} {r : o.Resp}
    {target : Option (Int × Option Conn)} (hop : s.perform x c t now sent o = some (r, s', target))
    {fd : Int} {owner : Option Conn} (htarget : target = some (fd, owner)) :
    t.target = some (fd, owner) ∨ s.fds fd = owner := by
  cases o
  case undefinedBehaviour => cases hop
  case findUserFd user =>
    cases hop
    split at htarget
    · cases htarget
      exact .inr rfl
    · exact .inl htarget
  case send fd' buf =>
    cases hop
    split at htarget
    · cases htarget
    · exact .inl htarget
  all_goals
    cases hop
    exact .inl htarget

/-- What the monitor copies are the descriptors as they are. -/
theorem mem_markLoop (fds : Int → Option Conn) (now timeout : Int) (sessions : Sessions)
    {n : Notification}
    (hn : n ∈ (markLoop fds now timeout (List.finRange maxClients) sessions []).2) :
    n.aim = fds n.sockfd :=
  markLoop_pending (P := fun n => n.aim = fds n.sockfd) fds now timeout _ (fun _ _ => rfl)
    (fun _ hn => absurd hn List.not_mem_nil) n hn

/-- A thread that steps still holds what it held, or has just looked it up. -/
theorem own_target {choice : ClientChoice} (hs : Step x s (.client c choice) s') {t' : Thread}
    (ht' : s'.threads c = some t') {fd : Int} {owner : Option Conn}
    (htarget : t'.target = some (fd, owner)) :
    Held s fd owner ∨ s.fds fd = owner ∧ s'.fds = s.fds := by
  cases hs with
  | perform ht hpc hop =>
    rw [setThread_threads_self] at ht'
    cases ht'
    rcases target_perform hop htarget with hold | hnew
    · exact .inl (.target ht hold)
    · refine .inr ⟨hnew, ?_⟩
      rw [setThread_fds, perform_frame hop]
  | start ht | welcome ht | welcomeFailed ht | turn ht | line ht | hangup ht | remove ht
  | removeInvalid ht | removeMissing ht | close ht =>
    rw [setThread_threads_self] at ht'
    cases ht'
    exact .inl (.target ht htarget)
  | continue_ ht | break_ ht =>
    rw [setThread_threads_self] at ht'
    cases ht'
    cases htarget

/-- What somebody holds after a step was held before, or has been looked up in it. -/
theorem held_of_step (ha : Tracks s a) {l : Label} (hs : Step x s l s') {fd : Int}
    {owner : Option Conn} (hheld : Held s' fd owner) :
    Held s fd owner ∨ s.fds fd = owner ∧ s'.fds = s.fds := by
  cases hheld with
  | @target c t' _ _ ht' htarget =>
    by_cases hown : ∃ choice, l = .client c choice
    · obtain ⟨choice, rfl⟩ := hown
      exact own_target hs ht' htarget
    · rcases thread_of_other ha hs (fun choice e => hown ⟨choice, e⟩) ht' with ht | ⟨-, -, hnone⟩
      · exact .inl (.target ht htarget)
      · rw [hnone] at htarget
        cases htarget
  | @pending ns n hpc hn =>
    cases hs with
    | @tick now _ _ _ hold hrun hmark =>
      cases hpc
      refine .inr ⟨?_, rfl⟩
      have := mem_markLoop s.fds now s.inactivityTimeoutSeconds s.sessions (n := n)
      rw [hmark] at this
      exact (this hn).symm
    | monitorMove hmove =>
      rcases hmove with ⟨-, -, rfl⟩ | ⟨-, rfl⟩ | ⟨m, rest, hold, rfl⟩
      · cases hpc
      · cases hpc
      · cases hpc
        exact .inl (.pending hold (List.mem_cons_of_mem _ hn))
    | notify hold =>
      cases hpc
      exact .inl (.pending hold (List.mem_cons_of_mem _ hn))
    | perform ht hpc' hop =>
      rw [setThread_monitor, perform_frame hop] at hpc
      exact .inl (.pending hpc hn)
    | welcome =>
      rw [setThread_monitor, deliver_monitor] at hpc
      exact .inl (.pending hpc hn)
    | start | welcomeFailed | turn | line | hangup | continue_ | break_ | remove | removeInvalid
    | removeMissing | close | acceptMove | connection | addFull | add | reject | findNone | find
    | create | createFailed | undoMissing | undo | undoInvalid | undoClose | store | signal =>
      exact .inl (.pending hpc hn)

/-- Without reuse a held descriptor stays its owner's until it is closed. -/
theorem Aimed.held_step (h : Aimed s) (ha : Tracks s a) {l : Label} (hok : NoReuse s l)
    (hs : Step x s l s') {fd : Int} {owner : Option Conn} (hheld : Held s' fd owner) :
    s'.fds fd = owner ∨ s'.fds fd = none := by
  rcases held_of_step ha hs hheld with hold | ⟨hnew, hfds⟩
  · rcases fds_of_step hs fd with heq | hnone | ⟨addr, now, rfl⟩
    · rw [heq]
      exact h.held fd owner hold
    · exact .inr hnone
    · exact absurd hold (hok owner)
  · rw [hfds]
    exact .inl hnew

/-! ## Deliveries -/

/-- A string that is sent to a held descriptor arrives at its owner. -/
theorem Aimed.owner_eq (h : Aimed s) {fd : Int} {owner : Option Conn} (hheld : Held s fd owner)
    {dst : Conn} (hdst : s.fds fd = some dst) : owner = some dst := by
  rcases h.held fd owner hheld with heq | hnone
  · rw [← heq, hdst]
  · rw [hdst] at hnone
    cases hnone

theorem Aimed.deliver {src : Source} {aim : Option Conn} {fd : Int} {buf : Bytes}
    (h : ∀ src aim dst buf, .delivered src aim dst buf ∈ s.log → aim = some dst)
    (haim : ∀ dst, s.fds fd = some dst → aim = some dst) :
    ∀ src' aim' dst' buf', .delivered src' aim' dst' buf' ∈ (s.deliver src aim fd buf).log →
      aim' = some dst' := by
  intro src' aim' dst' buf' hmem
  rw [deliver_log] at hmem
  split at hmem
  · exact h _ _ _ _ hmem
  · rename_i dst hdst
    rcases List.mem_cons.1 hmem with he | hmem
    · cases he
      exact haim _ hdst
    · exact h _ _ _ _ hmem

theorem Aimed.deliverAll {src : Source} {sends : List (Int × Bytes)}
    (h : ∀ src aim dst buf, .delivered src aim dst buf ∈ s.log → aim = some dst) :
    ∀ src' aim' dst' buf', .delivered src' aim' dst' buf' ∈ (s.deliverAll src sends).log →
      aim' = some dst' := by
  intro src' aim' dst' buf' hmem
  rw [deliverAll_log, List.mem_append, mem_deliveries] at hmem
  rcases hmem with ⟨p, -, dst, -, he⟩ | hmem
  · cases he
    rfl
  · exact h _ _ _ _ hmem

/-- A thread sends to its own descriptor or to the one it holds. -/
theorem Aimed.delivered_perform (h : Aimed s) (ha : Tracks s a) (ht : s.threads c = some t)
    (hold : Holding t) (hstart : t.pc ≠ .start) {plain : Prop} {line : Bytes} {g : Ghost}
    (htarget : g.target = t.target.map Prod.fst) {now : Int} {sent : Bool} {o : Op} {r : o.Resp}
    {target : Option (Int × Option Conn)}
    (hallow : (lineMonitor plain t.slot t.sockfd line).allows g o)
    (hop : s.perform x c t now sent o = some (r, s', target)) :
    ∀ src aim dst buf, .delivered src aim dst buf ∈ s'.log → aim = some dst := by
  have hdel := h.delivered
  cases o
  case undefinedBehaviour => cases hop
  case addSession user fd =>
    cases hop
    intro src aim dst buf hmem
    exact hdel src aim dst buf (by simpa using hmem)
  case broadcastAll msg =>
    cases hop
    exact Aimed.deliverAll hdel
  case broadcastExcept msg fd =>
    cases hop
    exact Aimed.deliverAll hdel
  case send fd buf =>
    cases hop
    split
    · apply Aimed.deliver hdel
      intro dst hdst
      unfold aimOf
      split
      · rename_i fd' owner hown
        split
        · rename_i heq
          subst heq
          exact h.owner_eq (.target ht hown) hdst
        · rename_i hne
          have hfd : fd = t.sockfd := by
            rcases hallow with ⟨hfd, -⟩ | ⟨hfd, -⟩
            · exact hfd
            · rw [htarget, hown] at hfd
              exact absurd (Option.some.inj hfd) hne
          rw [hfd, ha.fds_placed (ha.placed_sockfd ht hold hstart)] at hdst
          exact hdst
      · rename_i hnone
        have hfd : fd = t.sockfd := by
          rcases hallow with ⟨hfd, -⟩ | ⟨hfd, -⟩
          · exact hfd
          · rw [htarget, hnone] at hfd
            cases hfd
        rw [hfd, ha.fds_placed (ha.placed_sockfd ht hold hstart)] at hdst
        exact hdst
    · exact hdel
  all_goals
    cases hop
    exact hdel

theorem Aimed.delivered_step (h : Aimed s) (ha : Tracks s a) (hsp : Speaks x s) {l : Label}
    (hs : Step x s l s') :
    ∀ src aim dst buf, .delivered src aim dst buf ∈ s'.log → aim = some dst := by
  have hdel := h.delivered
  cases hs with
  | welcome ht hpc =>
    apply Aimed.deliver hdel
    intro dst hdst
    rw [ha.fds_placed (ha.placed_sockfd ht (by simp [Holding, hpc]) (by simp [hpc]))] at hdst
    exact hdst
  | perform ht hpc hop =>
    obtain ⟨line, g, -, ⟨hallow, -⟩, htarget, -⟩ := hsp.handling _ _ _ ht hpc
    have hkeep := h.delivered_perform ha ht (by simp [Holding, hpc]) (by simp [hpc]) htarget hallow
      hop
    exact hkeep
  | notify hpc hfd =>
    apply Aimed.deliver hdel
    intro dst hdst
    exact h.owner_eq (.pending hpc List.mem_cons_self) hdst
  | line | close | reject | undoClose =>
    intro src aim dst buf hmem
    exact hdel src aim dst buf (by simpa using hmem)
  | start | welcomeFailed | turn | hangup | continue_ | break_ | remove | removeInvalid
  | removeMissing | acceptMove | connection | addFull | add | findNone | find | create
  | createFailed | undoMissing | undo | undoInvalid | store | tick | monitorMove | signal =>
    exact hdel

/-! ## Every run without reuse -/

theorem aimed_init (timeout : Int) : Aimed (serverInit timeout) where
  held fd owner hheld := absurd hheld (not_held (fun _ => rfl) fun ns hpc => by cases hpc)
  delivered _ _ _ _ hmem := absurd hmem List.not_mem_nil

theorem aimed_step (h : Aimed s) (ha : Tracks s a) (hsp : Speaks x s) {l : Label}
    (hok : NoReuse s l) (hs : Step x s l s') : Aimed s' where
  held _ _ hheld := h.held_step ha hok hs hheld
  delivered := h.delivered_step ha hsp hs

/-- In a run in which `accept` never returns a descriptor that a thread has looked up and not sent
    to yet, or that the monitor has copied and not sent to yet, every string that is received is
    received by the connection that owned its descriptor when that was obtained. -/
theorem delivered_to_owner (hx : x.KeepsSlots) {timeout : Int}
    (hs : (serverSystem x timeout).ReachUnder NoReuse s) :
    ∀ src aim dst buf, .delivered src aim dst buf ∈ s.log → aim = some dst := by
  have haimed : Aimed s := by
    refine hs.invariant (P := Aimed) (aimed_init timeout) ?_
    intro s l s' hr h hok hl
    obtain ⟨a, ha, hsp⟩ := speaks_reach hx hr.reach
    exact aimed_step h ha hsp hok (step_cases hl)
  exact haimed.delivered

/-- Nobody holds a descriptor when `accept` returns one. -/
def reuseTest (s : Server) : Label → Bool
  | .acceptor (.connection _ _ _) =>
      decide (∀ c < s.nextConn, (s.threads c).bind Thread.target = none) &&
        decide (s.monitor = .tick)
  | _ => true

theorem noReuse_of_test (hx : x.KeepsSlots) {timeout : Int} (hs : (serverSystem x timeout).Reach s)
    {l : Label} (h : reuseTest s l = true) : NoReuse s l := by
  unfold reuseTest at h
  unfold NoReuse
  split
  · obtain ⟨htargets, hmonitor⟩ := Bool.and_eq_true_iff.1 h
    obtain ⟨a, ha, -⟩ := speaks_reach hx hs
    intro owner hheld
    cases hheld with
    | @target c t _ _ ht htarget =>
      have hbelow : c < s.nextConn := by
        by_contra hge
        have hstage := ha.thread c t ht
        rw [ha.fresh c (Nat.le_of_not_lt hge)] at hstage
        unfold ThreadStage at hstage
        cases hpc : t.pc <;> simp [hpc] at hstage
      have hnone := of_decide_eq_true htargets c hbelow
      rw [ht, Option.bind_some, htarget] at hnone
      cases hnone
    | pending hpc =>
      rw [of_decide_eq_true hmonitor] at hpc
      cases hpc
  · trivial

/-- A message to a user, who leaves; her descriptor is given to the next client; and the monitor
    finds everybody idle. -/
def messageAndNotices : List Label :=
  connects 4 ++ turns 0 3 ++ writes 0 "REGISTER|ana\n" 9 ++
  connects 5 ++ turns 1 3 ++ writes 1 "REGISTER|cami\n" 9 ++
  writes 0 "MSG|cami|hola\n" 8 ++ [.client 1 .hangup] ++ turns 1 2 ++
  connects 5 ++ turns 2 3 ++ List.replicate 3 (.monitor 100 true)

theorem delivered_to_owner_messageAndNotices :
    ∃ s, (serverSystem managerExterns 60).ReachUnder NoReuse s ∧
      (.delivered (.client 0) (some 1) 1 (ascii "DELIVER|ana|hola\n") ∈ s.log ∧
        .delivered .monitor (some 0) 0 (ascii "STATUS_CHANGED|ana|INACTIVO\n") ∈ s.log ∧
        s.fds 5 = some 2) ∧
      ∀ src aim dst buf, .delivered src aim dst buf ∈ s.log → aim = some dst := by
  obtain ⟨s, hs, hq⟩ := System.exists_reachUnder_of_runIf (S := serverSystem managerExterns 60)
    NoReuse (p := reuseTest) (fun _ _ hr h => noReuse_of_test managerExterns_keepsSlots hr h)
    messageAndNotices
    (fun s => decide (.delivered (.client 0) (some 1) 1 (ascii "DELIVER|ana|hola\n") ∈ s.log ∧
      .delivered .monitor (some 0) 0 (ascii "STATUS_CHANGED|ana|INACTIVO\n") ∈ s.log ∧
      s.fds 5 = some 2))
    (by decide +kernel)
  exact ⟨s, hs, of_decide_eq_true hq, delivered_to_owner managerExterns_keepsSlots hs⟩

/-- `cami` leaves between the lookup and the `send` of a message to her, and the next client is
    given her descriptor. -/
def reusedDescriptor : List Label :=
  connects 4 ++ turns 0 3 ++ writes 0 "REGISTER|ana\n" 9 ++
  connects 5 ++ turns 1 3 ++ writes 1 "REGISTER|cami\n" 9 ++
  writes 0 "MSG|cami|hola\n" 4 ++ [.client 1 .hangup] ++ turns 1 2 ++
  connects 5 ++ turns 0 2

/-- The message reaches the next client. -/
theorem reusedDescriptor_misdelivered :
    ¬ ∀ (x : Externs) (timeout : Int) (s : Server), x.KeepsSlots → x.Registry → x.FindsUsers →
      (serverSystem x timeout).Reach s →
      ∀ src aim dst buf, .delivered src aim dst buf ∈ s.log → aim = some dst := by
  intro h
  obtain ⟨s, hs, hp⟩ := System.exists_reach_of_run (S := serverSystem managerExterns 60)
    reusedDescriptor
    (fun s => decide (.delivered (.client 0) (some 1) 2 (ascii "DELIVER|ana|hola\n") ∈ s.log))
    (by decide +kernel)
  have hclaimed := h managerExterns 60 s managerExterns_keepsSlots managerExterns_registry
    managerExterns_findsUsers hs _ _ _ _ (of_decide_eq_true hp)
  cases hclaimed

end Server

end ChatMultithread
