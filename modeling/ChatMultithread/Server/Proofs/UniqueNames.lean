import ChatMultithread.Server.Proofs.Events

/-!
# Unique names

`handle_register` asks whether a name is free in one critical section and takes it in another.
Names are unique as long as nobody else takes a name in between, and nobody gives up a name that
it has been confirmed under: a connection that registers again leaves its old name to others
while its user still goes by it.
-/

namespace ChatMultithread

open Lib Lib.HandleTable

namespace Server

/-- No two live connections have been answered `REGISTER_OK` for the same user. -/
def UniqueNames (s : Server) : Prop :=
  ∀ c d user, Live s c → Live s d → user ∈ answers c s.log → user ∈ answers d s.log → c = d

/-- The thread of `c` has found the name free and calls `add_session` next. -/
def Pending (s : Server) (c : Conn) (user : Bytes) : Prop :=
  (s.nextOp c).bind (fun | .addSession u _ => some u | _ => none) = some user

/-- When a `REGISTER` finds a name free, no other live connection is about to take it, and none
    has given it up. -/
def Unraced (x : Externs) (s : Server) : Label → Prop
  | .client c (.go _ _) => ∀ user ∈ (s.nextOp c).bind (fun | .usernameExists u => some u | _ => none),
      x.usernameExists s.sessions user = false →
      (lastLine c s.log).map lineCommand = some .register →
      ∀ i, (s.sessions i).isActive = true → ∀ d ∈ s.fds (s.sessions i).sockfd, d ≠ c →
        ¬ Pending s d user ∧ (.named d user ∈ s.log → nameOf d s.log = user)
  | _ => True

instance (s : Server) (c : Conn) (user : Bytes) : Decidable (Pending s c user) :=
  inferInstanceAs (Decidable (_ = _))

instance (x : Externs) (s : Server) (l : Label) : Decidable (Unraced x s l) :=
  match l with
  | .client _ (.go _ _) =>
      inferInstanceAs (Decidable (∀ user ∈ (s.nextOp _).bind _, _ → _ → ∀ _, _ → ∀ d ∈ s.fds _, _))
  | .client _ (.line _) | .client _ .hangup | .acceptor _ | .monitor _ _ | .signal =>
      isTrue trivial

/-- The connection has been given the name, or is about to be. -/
def Claims (s : Server) (c : Conn) (user : Bytes) : Prop :=
  .named c user ∈ s.log ∨ Pending s c user

variable {x : Externs} {s s' : Server} {a : Lives} {c d : Conn} {user : Bytes}

theorem pending_iff :
    Pending s c user ↔ ∃ fd, s.nextOp c = some (.addSession user fd) := by
  unfold Pending
  cases h : s.nextOp c with
  | none => simp
  | some o => cases o <;> simp

/-! ## Claims -/

/-- Only a connection with a thread claims a name. -/
theorem thread_of_claims (hspeaks : Speaks x s) (h : Claims s c user) :
    ∃ t, s.threads c = some t := by
  rcases h with hnamed | hpending
  · cases ht : s.threads c with
    | some t => exact ⟨t, rfl⟩
    | none =>
      refine absurd (hspeaks.unnamed c ht) (nameOf_ne_of_named (fun user hmem => ?_) hnamed)
      exact (isValidUsername_iff.1 (hspeaks.valid c user hmem)).1
  · obtain ⟨fd, hop⟩ := pending_iff.1 hpending
    obtain ⟨t, -, ht, -⟩ := nextOp_eq_some.1 hop
    exact ⟨t, ht⟩

/-- A thread comes to call `add_session` only by finding the name free. -/
theorem pending_own (ha : Tracks s a) (hspeaks : Speaks x s) {choice : ClientChoice}
    (hs : Step x s (.client c choice) s') (hpending : Pending s' c user) :
    (∃ now sent, choice = .go now sent) ∧ s.nextOp c = some (.usernameExists user) ∧
      x.usernameExists s.sessions user = false ∧
      (lastLine c s.log).map lineCommand = some .register := by
  obtain ⟨fd, hop'⟩ := pending_iff.1 hpending
  obtain ⟨t', k', ht', hpc'⟩ := nextOp_eq_some.1 hop'
  cases handling_cases hs ht' hpc' with
  | @perform t now sent o k r s₁ target ht hpc hop hk =>
    obtain ⟨line, g, hline, ⟨hallow, hsafe⟩, htarget, hname⟩ := hspeaks.handling _ _ _ ht hpc
    obtain ⟨hans, -⟩ := hspeaks.perform ha ht (by simp [Holding, hpc]) (by simp [hpc]) htarget
      hname hallow hop
    have hnext := hsafe r hans
    rw [hk] at hnext
    obtain ⟨⟨-, hcmd, -, -, hchecked⟩, -⟩ := hnext
    have hfree := lineMonitor_checked hchecked
    cases hfree
    have hexists : x.usernameExists s.sessions user = false := by
      have := Option.some.inj hop
      exact (Prod.mk.inj this).1
    refine ⟨⟨now, sent, rfl⟩, nextOp_eq_some.2 ⟨t, k, ht, hpc⟩, hexists, ?_⟩
    rw [hline, Option.map_some, hcmd]
  | @line t raw ht hpc hlen hcode =>
    have hsafe : (lineMonitor True t.slot t.sockfd (cstr raw)).Safe (fun _ _ => True)
        ⟨[], none, none⟩ (clientLine t.sockfd (cstr raw)) := clientLine_safe hlen
    rw [hcode] at hsafe
    obtain ⟨⟨-, -, -, -, hchecked⟩, -⟩ := hsafe
    cases hchecked

/-- Its claims a connection has had before a step, or the step has found the name free. -/
theorem claims_of_step (ha : Tracks s a) (hspeaks : Speaks x s) {l : Label}
    (hs : Step x s l s') (h : Claims s' c user) :
    Claims s c user ∨ (∃ now sent, l = .client c (.go now sent)) ∧
      s.nextOp c = some (.usernameExists user) ∧ x.usernameExists s.sessions user = false ∧
      (lastLine c s.log).map lineCommand = some .register := by
  rcases h with hnamed | hpending
  · rcases named_of_step hs hnamed with hold | ⟨now, sent, fd, -, hop⟩
    · exact .inl (.inl hold)
    · exact .inl (.inr (pending_iff.2 ⟨fd, hop⟩))
  · by_cases hown : ∃ choice, l = .client c choice
    · obtain ⟨choice, rfl⟩ := hown
      obtain ⟨⟨now, sent, rfl⟩, hrest⟩ := pending_own ha hspeaks hs hpending
      exact .inr ⟨⟨now, sent, rfl⟩, hrest⟩
    · obtain ⟨fd, hop⟩ := pending_iff.1 hpending
      obtain ⟨t, k, ht, hpc⟩ := nextOp_eq_some.1 hop
      rcases thread_of_other ha hs (fun choice e => hown ⟨choice, e⟩) ht with hold | ⟨-, hstart, -⟩
      · exact .inl (.inr (pending_iff.2 ⟨fd, nextOp_eq_some.2 ⟨t, k, hold, hpc⟩⟩))
      · rw [hstart] at hpc
        cases hpc

/-! ## Every run without a race -/

/-- No two live connections claim the same name. -/
def UniqueClaims (s : Server) : Prop :=
  ∀ c d user, Live s c → Live s d → Claims s c user → Claims s d user → c = d

/-- A name that is found free under the condition is claimed by no other live connection. -/
theorem unclaimed_of_free (hr : x.Registry) (hspeaks : Speaks x s) {now : Int} {sent : Bool}
    (hok : Unraced x s (.client c (.go now sent))) (hop : s.nextOp c = some (.usernameExists user))
    (hfree : x.usernameExists s.sessions user = false)
    (hline : (lastLine c s.log).map lineCommand = some .register) (hlive : Live s d)
    (hclaims : Claims s d user) : c = d := by
  by_contra hcd
  obtain ⟨i, hi, hd⟩ := hlive
  obtain ⟨hpending, hkept⟩ := hok user (by rw [hop]; rfl) hfree hline i hi d hd (Ne.symm hcd)
  have hnamed := hclaims.resolve_right hpending
  have hne := (isValidUsername_iff.1 (hspeaks.valid d user hnamed)).1
  have hname := hkept hnamed
  obtain ⟨huser, hreg⟩ := hspeaks.names hr i d hi hd
  have hexists : x.usernameExists s.sessions user = true := by
    rw [hr.usernameExists_iff _ _ hne]
    exact ⟨i, ⟨hi, hreg.2 (by rw [hname]; exact hne)⟩, huser.trans hname⟩
  rw [hfree] at hexists
  cases hexists

theorem uniqueClaims_step (hx : x.KeepsSlots) (hr : x.Registry) (h : UniqueClaims s)
    (ha : Tracks s a) (hspeaks : Speaks x s) {l : Label} (hok : Unraced x s l)
    (hs : Step x s l s') : UniqueClaims s' := by
  have hlive : ∀ c user, Live s' c → Claims s' c user → Live s c := by
    intro c user hlive hclaims
    have hthread : ∃ t, s.threads c = some t := by
      rcases claims_of_step ha hspeaks hs hclaims with hold | ⟨-, hop, -⟩
      · exact thread_of_claims hspeaks hold
      · obtain ⟨t, -, ht, -⟩ := nextOp_eq_some.1 hop
        exact ⟨t, ht⟩
    obtain ⟨t, ht⟩ := hthread
    exact live_of_step hx ha hs ht hlive
  intro c d user hc hd hclaimsc hclaimsd
  have hlivec := hlive c user hc hclaimsc
  have hlived := hlive d user hd hclaimsd
  rcases claims_of_step ha hspeaks hs hclaimsc with holdc | ⟨⟨now, sent, rfl⟩, hop, hfree, hline⟩
  · rcases claims_of_step ha hspeaks hs hclaimsd with holdd | ⟨⟨now, sent, rfl⟩, hop, hfree, hline⟩
    · exact h c d user hlivec hlived holdc holdd
    · exact (unclaimed_of_free hr hspeaks hok hop hfree hline hlivec holdc).symm
  · rcases claims_of_step ha hspeaks hs hclaimsd with holdd | ⟨⟨now', sent', heq⟩, -⟩
    · exact unclaimed_of_free hr hspeaks hok hop hfree hline hlived holdd
    · cases heq
      rfl

/-- In a run in which no `REGISTER` finds a name free that another live connection is about to take
    or has given up, no two live connections have been answered `REGISTER_OK` for the same user. -/
theorem uniqueNames_of_unraced (hx : x.KeepsSlots) (hr : x.Registry) (hb : x.Broadcasts)
    {timeout : Int} (hs : (serverSystem x timeout).ReachUnder (Unraced x) s) : UniqueNames s := by
  have hclaims : UniqueClaims s := by
    refine hs.invariant (P := UniqueClaims) ?_ ?_
    · rintro c d user ⟨i, hi, -⟩
      cases hi
    · intro s l s' hreach h hok hl
      obtain ⟨a, ha, hspeaks⟩ := speaks_reach hx hreach.reach
      exact uniqueClaims_step hx hr h ha hspeaks hok (step_cases hl)
  obtain ⟨-, -, hspeaks⟩ := speaks_reach hx hs.reach
  intro c d user hc hd hansc hansd
  exact hclaims c d user hc hd (.inl (named_of_answers hr (hspeaks.spoken hb) hansc))
    (.inl (named_of_answers hr (hspeaks.spoken hb) hansd))

theorem uniqueNames_hola :
    ∃ s, (serverSystem managerExterns 60).runIf (fun s l => decide (Unraced managerExterns s l))
        (serverInit 60) (privateMessage "MSG|cami|hola\n") = some s ∧ UniqueNames s := by
  have hrun : ((serverSystem managerExterns 60).runIf
    (fun s l => decide (Unraced managerExterns s l)) (serverInit 60)
    (privateMessage "MSG|cami|hola\n")).isSome = true := by decide +kernel
  obtain ⟨s, hs⟩ := Option.isSome_iff_exists.1 hrun
  refine ⟨s, hs, uniqueNames_of_unraced managerExterns_keepsSlots managerExterns_registry
    managerExterns_broadcasts (System.ReachUnder.init.runIf ?_ hs)⟩
  exact fun _ _ _ h => of_decide_eq_true h

/-- Two clients ask for the same name, and both find it free before either takes it. -/
def sameNameTwice : List Label :=
  connects 4 ++ turns 0 3 ++ connects 5 ++ turns 1 3 ++ writes 0 "REGISTER|ana\n" 4 ++
  writes 1 "REGISTER|ana\n" 4 ++ turns 0 3 ++ turns 1 3

/-- Both are told `REGISTER_OK`. -/
theorem sameNameTwice_confirmed :
    ¬ ∀ (x : Externs) (timeout : Int) (s : Server), x.KeepsSlots → x.Registry → x.Broadcasts →
      (serverSystem x timeout).Reach s → UniqueNames s := by
  intro h
  obtain ⟨s, hs, hp⟩ := System.exists_reach_of_run (S := serverSystem managerExterns 60)
    sameNameTwice
    (fun s => decide (((s.sessions 0).isActive = true ∧ s.fds (s.sessions 0).sockfd = some 0) ∧
      ((s.sessions 1).isActive = true ∧ s.fds (s.sessions 1).sockfd = some 1) ∧
      ascii "ana" ∈ answers 0 s.log ∧ ascii "ana" ∈ answers 1 s.log))
    (by decide +kernel)
  obtain ⟨hlive, hlive', hans, hans'⟩ := of_decide_eq_true hp
  have hclaimed := h managerExterns 60 s managerExterns_keepsSlots managerExterns_registry
    managerExterns_broadcasts hs
  exact absurd (hclaimed 0 1 _ ⟨0, hlive⟩ ⟨1, hlive'⟩ hans hans') (by decide)

end Server

end ChatMultithread
