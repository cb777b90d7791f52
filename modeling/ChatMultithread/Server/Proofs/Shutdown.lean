import ChatMultithread.Server.Proofs.Steps
import ChatMultithread.Server.Shutdown

/-!
# Shutting the server down

What `server_shutdown` leaves behind when `main` has come out of the accept loop. The loop is only
left with `g_server_running` clear, so the guard of `server_shutdown` decides on
`g_server_sockfd` alone, and a signal handler that has already cleared it makes the function
return before the loop over the table.
-/

namespace ChatMultithread

open Lib

namespace Server

variable {x : Externs} {s s' : Server} {l : Label}

/-- Only a signal writes the two globals. -/
theorem step_globals (h : s.step x l = some s') (hl : l ≠ .signal) :
    s'.running = s.running ∧ s'.serverSockfd = s.serverSockfd := by
  cases step_cases h with
  | signal => exact absurd rfl hl
  | perform ht hpc hop =>
    rw [perform_frame hop]
    exact ⟨rfl, rfl⟩
  | welcome ht hpc =>
    obtain ⟨log, hlog⟩ := s.deliver_eq _ _ _ _
    rw [hlog]
    exact ⟨rfl, rfl⟩
  | notify hpc hfd =>
    obtain ⟨log, hlog⟩ := s.deliver_eq _ _ _ _
    rw [hlog]
    exact ⟨rfl, rfl⟩
  | _ => exact ⟨rfl, rfl⟩

/-- The accept loop is only left when `g_server_running` is clear. -/
theorem step_acceptDone (h : s.step x l = some s') (hdone : s'.accept = .done) :
    s.accept = .done ∨ s.running = false := by
  cases step_cases h with
  | @acceptMove pc choice hfrom hto =>
    change pc = .done at hdone
    right
    apply Bool.eq_false_iff.2
    intro hrun
    rcases hfrom with hfrom | hfrom
    · cases choice <;> simp [step, hfrom, acceptorStep, hrun, hdone] at h
    · cases choice <;> simp [step, hfrom, acceptorStep, hrun, hdone] at h
  | perform ht hpc hop =>
    left
    rw [perform_frame hop] at hdone
    exact hdone
  | welcome ht hpc =>
    left
    rw [setThread_accept, deliver_accept] at hdone
    exact hdone
  | notify hpc hfd =>
    left
    exact deliver_accept s _ _ _ _ ▸ hdone
  | _ => first | exact .inl hdone | cases hdone

end Server

namespace Process

variable {x : Externs} {timeout : Int} {p p' : Process}

/-- What the two globals are at each point of a run. -/
structure Orderly (p : Process) : Prop where
  sockfd : p.server.serverSockfd = -1 ∨ 0 ≤ p.server.serverSockfd
  acceptDone : p.server.accept = .done → p.server.running = false
  stopped : p.main ≠ .accepting → p.server.running = false
  closed : p.main = .sweeping ∨ (∃ t, p.main = .returned t) → p.server.serverSockfd = -1

/-- Every session that is active and has a socket is among those the process has shut down. -/
def ReachedAll (t : Sessions) (calls : List SocketCall) : Prop :=
  ∀ i, (t i).isActive = true → 0 ≤ (t i).sockfd → .shutdown (t i).sockfd ∈ calls

theorem mem_activeSockets {t : Sessions} {i : Slot} (hactive : (t i).isActive = true)
    (hfd : 0 ≤ (t i).sockfd) : (t i).sockfd ∈ activeSockets t := by
  apply List.mem_map.2
  refine ⟨i, List.mem_filter.2 ⟨List.mem_finRange i, ?_⟩, rfl⟩
  rw [hactive, decide_eq_true hfd]
  rfl

/-- The loop over the table reaches every session. -/
theorem reachedAll_sweep (t : Sessions) (calls : List SocketCall) :
    ReachedAll t (calls ++ (activeSockets t).map .shutdown) := by
  intro i hactive hfd
  apply List.mem_append_right
  exact List.mem_map_of_mem (mem_activeSockets hactive hfd)

/-! ## One step -/

/-- A signal handler clears the globals and closes a descriptor. -/
structure Clears (p p' : Process) : Prop where
  main : p'.main = p.main
  accept : p'.server.accept = p.server.accept
  running : p.server.running = false → p'.server.running = false
  sockfd : p'.server.serverSockfd = p.server.serverSockfd ∨ p'.server.serverSockfd = -1
  calls : ∃ fds : List Int, p'.calls = p.calls ++ fds.map .close

theorem clears_handlerStep (p : Process) (n : Nat) (pc : HandlerPc) :
    Clears p (p.handlerStep n pc) := by
  cases pc with
  | entered => exact ⟨rfl, rfl, fun _ => rfl, .inl rfl, [], (List.append_nil _).symm⟩
  | testing =>
    simp only [handlerStep]
    split
    · exact ⟨rfl, rfl, id, .inl rfl, [], (List.append_nil _).symm⟩
    · exact ⟨rfl, rfl, id, .inl rfl, [], (List.append_nil _).symm⟩
  | closing => exact ⟨rfl, rfl, id, .inl rfl, [p.server.serverSockfd], rfl⟩
  | clearing => exact ⟨rfl, rfl, id, .inr rfl, [], (List.append_nil _).symm⟩

/-- What a step of the process is: one of the server, one of a handler, or one of `main`. -/
theorem step_cases {l : ProcessLabel} (h : p.step x l = some p') :
    (∃ l' s', l = .server l' ∧ l' ≠ .signal ∧ p.server.step x l' = some s' ∧
        p' = { p with server := s' }) ∨
      ((∃ n, l = .handler n) ∨ l = .raise) ∧ Clears p p' ∨
      l = .main ∧ p.mainStep p.main = some p' := by
  cases l with
  | server l' =>
    left
    cases l' with
    | signal => cases h
    | _ =>
      obtain ⟨s', hs, rfl⟩ := Option.map_eq_some_iff.1 h
      exact ⟨_, s', rfl, Label.noConfusion, hs, rfl⟩
  | raise =>
    right
    left
    cases h
    exact ⟨.inr rfl, rfl, rfl, id, .inl rfl, [], (List.append_nil _).symm⟩
  | handler n =>
    right
    left
    obtain ⟨pc, _, rfl⟩ := Option.map_eq_some_iff.1 h
    exact ⟨.inl ⟨n, rfl⟩, clears_handlerStep p n pc⟩
  | main => exact .inr (.inr ⟨rfl, h⟩)

/-- The steps of `main`, with the conditions under which they are taken. -/
inductive MainStep (p : Process) : Process → Prop
  | leave (hpc : p.main = .accepting) (hdone : p.server.accept = .done) :
      MainStep p { p with main := .testingRunning }
  | running (hpc : p.main = .testingRunning) : MainStep p { p with main := .stopping }
  | notRunning (hpc : p.main = .testingRunning) : MainStep p { p with main := .testingSockfd }
  | guarded (hpc : p.main = .testingSockfd) (hfd : p.server.serverSockfd < 0) :
      MainStep p { p with main := .returned p.server.sessions }
  | unguarded (hpc : p.main = .testingSockfd) : MainStep p { p with main := .stopping }
  | stop (hpc : p.main = .stopping) :
      MainStep p { p with server := { p.server with running := false }, main := .testingOpen }
  | isOpen (hpc : p.main = .testingOpen) : MainStep p { p with main := .shuttingDown }
  | notOpen (hpc : p.main = .testingOpen) (hfd : ¬ 0 ≤ p.server.serverSockfd) :
      MainStep p { p with main := .sweeping }
  | shut (hpc : p.main = .shuttingDown) :
      MainStep p { p with
        main := .closing, calls := p.calls ++ [.shutdown p.server.serverSockfd] }
  | close (hpc : p.main = .closing) :
      MainStep p { p with main := .clearing, calls := p.calls ++ [.close p.server.serverSockfd] }
  | clear (hpc : p.main = .clearing) :
      MainStep p { p with server := { p.server with serverSockfd := -1 }, main := .sweeping }
  | sweep (hpc : p.main = .sweeping) :
      MainStep p { p with
        main := .returned p.server.sessions
        calls := p.calls ++ (activeSockets p.server.sessions).map .shutdown }

theorem mainStep_cases (h : p.mainStep p.main = some p') : MainStep p p' := by
  unfold Process.mainStep at h
  split at h
  · rename_i hpc
    split at h <;> cases h
    rename_i hdone
    exact .leave hpc hdone
  · rename_i hpc
    split at h <;> cases h
    · exact .running hpc
    · exact .notRunning hpc
  · rename_i hpc
    split at h <;> cases h
    · rename_i hfd
      exact .guarded hpc hfd
    · exact .unguarded hpc
  · rename_i hpc
    cases h
    exact .stop hpc
  · rename_i hpc
    split at h <;> cases h
    · exact .isOpen hpc
    · rename_i hfd
      exact .notOpen hpc hfd
  · rename_i hpc
    cases h
    exact .shut hpc
  · rename_i hpc
    cases h
    exact .close hpc
  · rename_i hpc
    cases h
    exact .clear hpc
  · rename_i hpc
    cases h
    exact .sweep hpc
  · cases h

/-- A descriptor below zero is the one that somebody has cleared. -/
theorem Orderly.cleared (hp : p.Orderly) (h : ¬ 0 ≤ p.server.serverSockfd) :
    p.server.serverSockfd = -1 := by
  rcases hp.sockfd with hclear | hopen
  · exact hclear
  · exact absurd hopen h

/-- `main` moves on behind the accept loop and leaves the server as it is. -/
theorem Orderly.move (hp : p.Orderly) (hrun : p.server.running = false) {pc : MainPc}
    (hclosed : pc = .sweeping ∨ (∃ t, pc = .returned t) → p.server.serverSockfd = -1)
    (calls : List SocketCall) : Orderly { p with main := pc, calls := calls } :=
  ⟨hp.sockfd, hp.acceptDone, fun _ => hrun, hclosed⟩

theorem Orderly.mainStep (hp : p.Orderly) (h : MainStep p p') : p'.Orderly := by
  cases h with
  | leave _ hdone => exact hp.move (hp.acceptDone hdone) (by simp) p.calls
  | running hpc | notRunning hpc | unguarded hpc | isOpen hpc =>
    exact hp.move (hp.stopped (by simp [hpc])) (by simp) p.calls
  | guarded hpc hfd =>
    exact hp.move (hp.stopped (by simp [hpc])) (fun _ => hp.cleared (Int.not_le.2 hfd)) p.calls
  | stop => exact ⟨hp.sockfd, fun _ => rfl, fun _ => rfl, by simp⟩
  | notOpen hpc hfd => exact hp.move (hp.stopped (by simp [hpc])) (fun _ => hp.cleared hfd) p.calls
  | shut hpc | close hpc => exact hp.move (hp.stopped (by simp [hpc])) (by simp) _
  | clear hpc => exact ⟨.inl rfl, hp.acceptDone, fun _ => hp.stopped (by simp [hpc]), fun _ => rfl⟩
  | sweep hpc => exact hp.move (hp.stopped (by simp [hpc])) (fun _ => hp.closed (.inl hpc)) _

theorem Orderly.step {l : ProcessLabel} (hp : p.Orderly) (h : p.step x l = some p') :
    p'.Orderly := by
  rcases step_cases h with ⟨l', s', _, hl, hs, rfl⟩ | ⟨_, hc⟩ | ⟨_, hmain⟩
  · obtain ⟨hrun, hfd⟩ := Server.step_globals hs hl
    refine ⟨?_, ?_, ?_, ?_⟩
    · exact hfd ▸ hp.sockfd
    · intro hdone
      rcases Server.step_acceptDone hs hdone with hdone | hstopped
      · exact hrun ▸ hp.acceptDone hdone
      · exact hrun ▸ hstopped
    · intro hmain
      exact hrun ▸ hp.stopped hmain
    · intro hmain
      exact hfd ▸ hp.closed hmain
  · refine ⟨?_, ?_, ?_, ?_⟩
    · rcases hc.sockfd with hfd | hfd
      · exact hfd ▸ hp.sockfd
      · exact .inl hfd
    · intro hdone
      exact hc.running (hp.acceptDone (hc.accept ▸ hdone))
    · intro hmain
      exact hc.running (hp.stopped (hc.main ▸ hmain))
    · intro hmain
      rcases hc.sockfd with hfd | hfd
      · exact hfd ▸ hp.closed (hc.main ▸ hmain)
      · exact hfd
  · exact hp.mainStep (mainStep_cases hmain)

/-- The two ways out of `server_shutdown`. -/
theorem returned_cases {t : Sessions} (h : MainStep p p') (hr : p'.main = .returned t) :
    t = p.server.sessions ∧
      (p.main = .testingSockfd ∧ p.server.serverSockfd < 0 ∧ p'.calls = p.calls ∨
        p'.calls = p.calls ++ (activeSockets t).map .shutdown) := by
  cases h with
  | guarded hpc hfd =>
    cases hr
    exact ⟨rfl, .inl ⟨hpc, hfd, rfl⟩⟩
  | sweep =>
    cases hr
    exact ⟨rfl, .inr rfl⟩
  | _ => cases hr

/-- Up to its guard `server_shutdown` has called `shutdown` on nothing. -/
def Waiting (p : Process) : Prop :=
  p.main = .accepting ∨ p.main = .testingRunning ∨ p.main = .testingSockfd →
    ∀ fd, .shutdown fd ∉ p.calls

theorem waiting_mainStep (hp : p.Waiting) (h : MainStep p p') : p'.Waiting := by
  cases h with
  | leave hpc => exact fun _ => hp (.inl hpc)
  | notRunning hpc => exact fun _ => hp (.inr (.inl hpc))
  | _ =>
    intro hback
    simp at hback

/-! ## Runs -/

/-- When the guard of `server_shutdown` reads `g_server_sockfd`, no handler has cleared it yet, or
    there is no session to be shut down. -/
def Unraced (p : Process) : ProcessLabel → Prop
  | .main => p.main = .testingSockfd → 0 ≤ p.server.serverSockfd ∨
      ∀ i, ¬ ((p.server.sessions i).isActive = true ∧ 0 ≤ (p.server.sessions i).sockfd)
  | _ => True

section Runs

variable {s : Server}

/-- A handler that nobody interrupts is the signal of the server's transition system. -/
theorem run_handler (hp : p.server.serverSockfd = -1 ∨ 0 ≤ p.server.serverSockfd) :
    ∃ n calls s', p.server.step x .signal = some s' ∧
      (processSystem x s).run p (.raise :: List.replicate n (.handler p.handlers.length)) =
        some { p with server := s', calls := calls } := by
  rcases hp with hclear | hopen
  · refine ⟨2, p.calls, _, rfl, ?_⟩
    simp [System.run, processSystem, step, handlerStep, List.eraseIdx_append_of_length_le, hclear]
  · refine ⟨4, p.calls ++ [.close p.server.serverSockfd], _, rfl, ?_⟩
    simp [System.run, processSystem, step, handlerStep, List.eraseIdx_append_of_length_le, hopen]

theorem orderly_of_reach (hopen : 0 ≤ s.serverSockfd) (htop : s.accept = .top)
    (h : (processSystem x s).Reach p) : p.Orderly := by
  apply System.Reach.invariant (P := Orderly) _ _ h
  · refine ⟨.inr hopen, ?_, fun hmain => absurd rfl hmain, ?_⟩
    · intro hdone
      exact AcceptPc.noConfusion (htop.symm.trans hdone)
    · simp [processSystem]
  · intro p l p' _ hp hstep
    exact hp.step hstep

/-- No session is missed in a run in which the guard was not overtaken. -/
theorem reachedAll_of_reachUnder (h : (processSystem x s).ReachUnder Unraced p) {t : Sessions}
    (hr : p.main = .returned t) : ReachedAll t p.calls := by
  apply System.ReachUnder.invariant (P := fun p => ∀ t, p.main = .returned t →
    ReachedAll t p.calls) _ _ h t hr
  · intro t hr
    cases hr
  · intro p l p' _ ih hok hstep t hr
    rcases step_cases hstep with ⟨l', s', _, _, _, rfl⟩ | ⟨_, hc⟩ | ⟨rfl, hmain⟩
    · exact ih t hr
    · intro i hactive hfd
      obtain ⟨fds, hcalls⟩ := hc.calls
      rw [hcalls]
      exact List.mem_append_left _ (ih t (hc.main ▸ hr) i hactive hfd)
    · obtain ⟨ht, hout⟩ := returned_cases (mainStep_cases hmain) hr
      rcases hout with ⟨hpc, hcleared, _⟩ | hcalls
      · intro i hactive hfd
        rcases hok hpc with hopen | hnone
        · omega
        · subst ht
          exact absurd ⟨hactive, hfd⟩ (hnone i)
      · rw [hcalls]
        exact reachedAll_sweep t p.calls

theorem waiting_of_reach (h : (processSystem x s).Reach p) : p.Waiting := by
  apply System.Reach.invariant (P := Waiting) _ _ h
  · intro _ fd hfd
    cases hfd
  · intro p l p' _ ih hstep hpc fd hfd
    rcases step_cases hstep with ⟨l', s', _, _, _, rfl⟩ | ⟨_, hc⟩ | ⟨rfl, hmain⟩
    · exact ih hpc fd hfd
    · obtain ⟨fds, hcalls⟩ := hc.calls
      rw [hcalls] at hfd
      rcases List.mem_append.1 hfd with hfd | hfd
      · exact ih (hc.main ▸ hpc) fd hfd
      · simp at hfd
    · exact waiting_mainStep ih (mainStep_cases hmain) hpc fd hfd

/-- When the guard has been overtaken, `server_shutdown` has shut no session down. -/
theorem missed_of_raced (h : (processSystem x s).Reach p) (hraced : ¬ Unraced p .main) :
    ∃ p' t, p.step x .main = some p' ∧ p'.main = .returned t ∧ ¬ ReachedAll t p'.calls := by
  obtain ⟨hpc, hrest⟩ := Classical.not_imp.1 hraced
  obtain ⟨hcleared, hsome⟩ := not_or.1 hrest
  obtain ⟨i, hi⟩ := not_forall.1 hsome
  obtain ⟨hactive, hfd⟩ := not_not.1 hi
  refine ⟨{ p with main := .returned p.server.sessions }, p.server.sessions, ?_, rfl, ?_⟩
  · show p.mainStep p.main = _
    rw [hpc]
    exact if_pos (Int.not_le.1 hcleared)
  · intro hall
    exact waiting_of_reach h (.inr (.inr hpc)) _ (hall i hactive hfd)

/-- `server_shutdown` leaves both globals clear. It reaches every session with an open socket when
    its guard was not overtaken by a signal handler, and no session at all when it was. -/
theorem serverShutdown_reachesAll (x : Externs) (s : Server) (hopen : 0 ≤ s.serverSockfd)
    (htop : s.accept = .top) :
    (∀ p t, (processSystem x s).Reach p → p.main = .returned t →
      p.server.running = false ∧ p.server.serverSockfd = -1) ∧
    (∀ p t, (processSystem x s).ReachUnder Unraced p → p.main = .returned t →
      ReachedAll t p.calls) ∧
    ∀ p, (processSystem x s).Reach p → ¬ Unraced p .main →
      ∃ p' t, p.step x .main = some p' ∧ p'.main = .returned t ∧ ¬ ReachedAll t p'.calls := by
  refine ⟨?_, ?_, ?_⟩
  · intro p t h hr
    have hp := orderly_of_reach hopen htop h
    exact ⟨hp.stopped (by simp [hr]), hp.closed (.inr ⟨t, hr⟩)⟩
  · intro p t h hr
    exact reachedAll_of_reachUnder h hr
  · intro p h hraced
    exact missed_of_raced h hraced

end Runs

/-! ## A signal while a client is connected -/

/-- The table that `server_shutdown` saw last. -/
def lastTable (p : Process) : Option Sessions :=
  match p.main with
  | .returned t => some t
  | _ => none

theorem returned_of_lastTable {t : Sessions} (h : p.lastTable = some t) : p.main = .returned t := by
  unfold lastTable at h
  split at h
  · rename_i hpc
    cases h
    exact hpc
  · cases h

/-- A signal arrives while `accept` waits; its handler has taken `n` steps when `accept` fails,
    and then `main` takes `m`. -/
def interrupted (n m : Nat) : List ProcessLabel :=
  (connects 4 ++ [Label.acceptor .go]).map .server ++ .raise :: List.replicate n (.handler 0) ++
    .server (.acceptor .error) :: List.replicate m .main

/-- The test of the guard, where it is not overtaken. -/
def unracedTest (p : Process) (l : ProcessLabel) : Bool :=
  match l, p.main with
  | .main, .testingSockfd => decide (0 ≤ p.server.serverSockfd)
  | _, _ => true

theorem unraced_of_test (p : Process) (l : ProcessLabel) (h : unracedTest p l = true) :
    Unraced p l := by
  cases l with
  | main =>
    intro hpc
    simp only [unracedTest, hpc] at h
    exact .inl (of_decide_eq_true h)
  | _ => trivial

theorem serverShutdown_reachesAll_late :
    ∃ p t, (processSystem managerExterns (serverInit 60)).ReachUnder Unraced p ∧
      p.main = .returned t ∧ (t 0).isActive = true ∧ (t 0).sockfd = 4 ∧
      .shutdown (t 0).sockfd ∈ p.calls := by
  obtain ⟨p, hp, htest⟩ := System.exists_reachUnder_of_runIf
    (S := processSystem managerExterns (serverInit 60)) Unraced
    (fun p l _ => unraced_of_test p l) (interrupted 1 9)
    (fun p => decide ((p.lastTable.map fun t => ((t 0).isActive, (t 0).sockfd)) = some (true, 4)))
    (by decide +kernel)
  obtain ⟨t, hlast, hslot⟩ := Option.map_eq_some_iff.1 (of_decide_eq_true htest)
  obtain ⟨hactive, hfd⟩ := Prod.mk.inj hslot
  have hr := returned_of_lastTable hlast
  have hall := (serverShutdown_reachesAll managerExterns (serverInit 60) (Int.le_refl 0) rfl).2.1
    p t hp hr
  exact ⟨p, t, hp, hr, hactive, hfd, hall 0 hactive (by omega)⟩

/-- The handler is through before `accept` fails: the client is never shut down. -/
theorem interrupted_missed :
    ¬ ∀ (x : Externs) (s : Server), 0 ≤ s.serverSockfd → s.accept = .top →
      ∀ p t, (processSystem x s).Reach p → p.main = .returned t →
        ReachedAll t p.calls ∧ p.server.running = false ∧ p.server.serverSockfd = -1 := by
  intro h
  obtain ⟨p, hp, htest⟩ := System.exists_reach_of_run
    (S := processSystem managerExterns (serverInit 60)) (interrupted 4 3)
    (fun p => decide ((p.lastTable.map fun t => ((t 0).isActive, (t 0).sockfd)) = some (true, 4) ∧
      .shutdown 4 ∉ p.calls))
    (by decide +kernel)
  obtain ⟨hlast, hmissed⟩ := of_decide_eq_true htest
  obtain ⟨t, hlast, hslot⟩ := Option.map_eq_some_iff.1 hlast
  obtain ⟨hactive, hfd⟩ := Prod.mk.inj hslot
  have hall := (h managerExterns (serverInit 60) (Int.le_refl 0) rfl p t hp
    (returned_of_lastTable hlast)).1
  have hshut := hall 0 hactive (by omega)
  rw [hfd] at hshut
  exact hmissed hshut

end Process

end ChatMultithread
