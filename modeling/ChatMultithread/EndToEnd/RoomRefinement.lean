import ChatMultithread.EndToEnd.RoomSteps

/-!
# The server is a room

When the server is done with each thing that happens before the next one does, its table and its
log display the room of `ChatRoom.step` throughout. What it does about each is a piece of a run;
the piece is determined by what happens, so that the server can do nothing else; and there is one,
whatever happens.
-/

namespace ChatMultithread

open Lib ChatRoom

namespace Server

/-- The server has dealt with something that happened to it: whose step it is to begin with, and all
    the steps that follow from it. -/
inductive Served (x : Externs) (s : Server) : Happening → Server → Prop
  | arrives {s₁ s₂ s₃ s' : Server} {fd : Int} {addr : InAddr} {now : Int}
      (top : s.step x (.acceptor .go) = some s₁)
      (accepted : s₁.step x (.acceptor (.connection fd addr now)) = some s₂)
      (seated : Accepts x s₂ s₃) (back : s₃.accept = .top)
      (greeted : Goes x s.nextConn now s₃ s') (parked : Parked s.nextConn s') :
      Served x s (.arrives s.nextConn addr now) s'
  | sends {s₁ s' : Server} {c : Conn} {raw : Bytes} {now : Int}
      (received : s.step x (.client c (.line raw)) = some s₁) (answered : Goes x c now s₁ s')
      (parked : Parked c s') : Served x s (.sends c (cstr raw) now) s'
  | leaves {s₁ s' : Server} {c : Conn} (hungUp : s.step x (.client c .hangup) = some s₁)
      (gone : Goes x c 0 s₁ s') (parked : Parked c s') : Served x s (.leaves c) s'
  | ticks {s₁ s' : Server} {now : Int} (marked : s.step x (.monitor now true) = some s₁)
      (notified : Notifies x now s₁ s') (back : s'.monitor = .tick) : Served x s (.ticks now) s'

/-- One thing after the other. -/
inductive Serves (x : Externs) (s : Server) : List Happening → Server → Prop
  | nil : Serves x s [] s
  | snoc {hs : List Happening} {happening : Happening} {s₁ s' : Server} (h : Serves x s hs s₁)
      (served : Served x s₁ happening s') : Serves x s (hs ++ [happening]) s'

variable {x : Externs} {s s₁ s' : Server} {r r' : ChatRoom} {i j : Slot} {o p : User} {c : Conn}
  {now timeout : Int} {t : Thread}

/-! ## Nothing else can happen -/

/-- Whose thread is at `recv_line` has a seat. -/
theorem Waits.occupant (h : Waits timeout s r) (ht : s.threads c = some t)
    (hpc : t.pc = .receiving) : ∃ i o, r.seats i = some o ∧ o.client = c := by
  by_contra hnone
  have habsent : r.Absent c := by
    intro i o hi hc
    exact hnone ⟨i, o, hi, hc⟩
  rw [h.gone c t ht habsent] at hpc
  cases hpc

/-- A thread that comes to its next line has had room for this one. -/
theorem inBounds_of_parked (h : Displays s r) (hi : r.seats t.slot = some o) {line : Bytes}
    (hlen : line.length < maxMsg) (hfd : t.sockfd = (s.sessions t.slot).sockfd)
    (hgoes : Goes x c now (s.setThread c { t with pc := .handling (clientLine t.sockfd line) }) s')
    (hparked : Parked c s') : InBounds line := by
  by_contra hin
  have hping : line ≠ ascii "PING\n" := by
    rintro rfl
    exact hin (by decide)
  have hquit : line ≠ ascii "QUIT\n" := by
    rintro rfl
    exact hin (by decide)
  have hbody : lineBody t.sockfd line = .call .undefinedBehaviour Empty.elim := by
    rw [lineBody, if_neg hping, if_neg hquit, if_pos hin]
  obtain ⟨target, s₁, hfinish, -, -⟩ := (yields_updateSessionActivity h hi :
    Yields x c now t s _ _ _)
  rw [← hfd] at hfinish
  have hstuck := goes_finish hfinish fun _ => lineBody t.sockfd line
  rw [← clientLine_eq t.sockfd hlen, hbody] at hstuck
  have hend := reflTransGen_end goes_unique hgoes hstuck (fun _ => not_go_of_parked hparked) ?_
  · rw [← hend] at hparked
    rcases hparked _ (setThread_threads_self ..) with hpc | hpc <;> cases hpc
  · intro s₂ hstep
    simp only [step, setThread_threads_self, clientStep, Server.perform] at hstep
    cases hstep

/-- Whatever the server has dealt with, it displays what that makes of the room. -/
theorem waits_served (hx : x.Manages) (h : Waits timeout s r) {happening : Happening}
    (hserved : Served x s happening s') : Waits timeout s' (ChatRoom.step timeout r happening) := by
  cases hserved with
  | @arrives s₁ s₂ s₃ _ fd addr now top accepted seated back greeted parked =>
    have hfd : 0 ≤ fd ∧ s.fds fd = none := by
      simp only [step, h.accept, acceptorStep, h.running, if_true, Option.some.injEq] at top
      subst top
      simp only [step, acceptorStep] at accepted
      split at accepted
      · assumption
      · cases accepted
    obtain ⟨u₁, u₂, u₃, u', hu₁, hu₂, hu₃, hback, hu', hparked, hwaits⟩ :=
      waits_arrives (x := x) h hfd.1 hfd.2 addr now
    obtain rfl := Option.some.inj (top.symm.trans hu₁)
    obtain rfl := Option.some.inj (accepted.symm.trans hu₂)
    obtain rfl := seated.end_unique back hu₃ hback
    obtain rfl := greeted.end_unique parked hu' hparked
    exact hwaits
  | @sends s₁ _ c raw now received answered parked =>
    cases step_cases received with
    | @line _ t _ ht hpc hraw =>
      obtain ⟨i, o, hi, rfl⟩ := h.occupant ht hpc
      rw [h.seated i o hi] at ht
      cases ht
      have hreceived : Displays { s with log := .received o.client (cstr raw) :: s.log } r :=
        h.displays.congr rfl rfl fun c => by simp [receivedBy]
      have hin := inBounds_of_parked (t := ⟨i, (s.sessions i).sockfd, .receiving, none⟩) hreceived hi
        (length_cstr_frame hraw) rfl answered parked
      obtain ⟨u₁, u', hu₁, hu', hparked, hwaits⟩ := waits_sends (x := x) hx h hi hraw hin now
      obtain rfl := Option.some.inj (received.symm.trans hu₁)
      obtain rfl := answered.end_unique parked hu' hparked
      exact hwaits
  | @leaves s₁ _ c hungUp gone parked =>
    have hseat : ∃ i o, r.seats i = some o ∧ o.client = c := by
      cases step_cases hungUp with
      | hangup ht hpc => exact h.occupant ht hpc
    obtain ⟨i, o, hi, rfl⟩ := hseat
    obtain ⟨u₁, u', hu₁, hu', hparked, hwaits⟩ := waits_leaves (x := x) h hi
    obtain rfl := Option.some.inj (hungUp.symm.trans hu₁)
    obtain rfl := gone.end_unique parked hu' hparked
    exact hwaits
  | @ticks s₁ _ now marked notified back =>
    obtain ⟨u₁, u', hu₁, hu', hback, hwaits⟩ := waits_ticks (x := x) h now
    obtain rfl := Option.some.inj (marked.symm.trans hu₁)
    obtain rfl := notified.end_unique back hu' hback
    exact hwaits

/-! ## Whole histories -/

theorem waits_init (timeout : Int) : Waits timeout (serverInit timeout) Room.empty where
  displays := {
    free := fun _ _ => rfl
    taken := fun _ _ hi => by cases hi
    owner := fun _ _ hi => by cases hi
    nonneg := fun _ _ hi => by cases hi
    heard := fun _ => rfl }
  running := rfl
  timeout_eq := rfl
  accept := rfl
  monitor := rfl
  came _ _ hi := by cases hi
  seated _ _ hi := by cases hi
  gone _ _ ht := by cases ht

theorem waits_serves (hx : x.Manages) {happenings : List Happening}
    (h : Serves x (serverInit timeout) happenings s) :
    Waits timeout s (happenings.foldl (ChatRoom.step timeout) Room.empty) := by
  induction h with
  | nil => exact waits_init timeout
  | snoc _ served ih =>
    rw [List.foldl_append]
    exact waits_served hx ih served

theorem Served.reach {happening : Happening} (h : Served x s happening s')
    (hs : (serverSystem x timeout).Reach s) : (serverSystem x timeout).Reach s' := by
  cases h with
  | arrives top accepted seated _ greeted _ =>
    have haccepted := reach_of_step (reach_of_step hs top) accepted
    have hseated := reach_of_reflTransGen (fun _ _ h => h.2) haccepted seated
    exact reach_of_reflTransGen (fun _ _ h => h) hseated greeted
  | sends received answered _ =>
    exact reach_of_reflTransGen (fun _ _ h => h) (reach_of_step hs received) answered
  | leaves hungUp gone _ => exact reach_of_reflTransGen (fun _ _ h => h) (reach_of_step hs hungUp) gone
  | ticks marked notified _ =>
    exact reach_of_reflTransGen (fun _ _ h => h.2) (reach_of_step hs marked) notified

theorem Serves.reach {happenings : List Happening}
    (h : Serves x (serverInit timeout) happenings s) : (serverSystem x timeout).Reach s := by
  induction h with
  | nil => exact System.Reach.init
  | snoc _ served ih => exact served.reach ih

/-- The server is a room: its history is a run of the transition system, its table and its log are
    those of the room that has the same history, and everybody waits for what comes next. -/
theorem serves_as_room (hx : x.Manages) (timeout : Int) (happenings : List Happening)
    (h : Serves x (serverInit timeout) happenings s) :
    (serverSystem x timeout).Reach s ∧
      Waits timeout s (happenings.foldl (ChatRoom.step timeout) Room.empty) :=
  ⟨h.reach, waits_serves hx h⟩

/-- A client that comes, registers and asks who is there. -/
def visit : List Happening :=
  [.arrives 0 ⟨10, 0, 0, 7⟩ 0] ++ [.sends 0 (ascii "REGISTER|ana\n") 1] ++
    [.sends 0 (ascii "LIST\n") 2]

theorem serves_visit : ∃ s, Serves managerExterns (serverInit 60) visit s := by
  have hsends : ∀ {happenings : List Happening} {s : Server} (raw : Bytes) (now : Int),
      Serves managerExterns (serverInit 60) happenings s →
      (((happenings.foldl (ChatRoom.step 60) Room.empty).seats 0).map Occupant.client) = some 0 →
      IsFrame msgTerminatorChar (maxLineLen - 1) raw → InBounds (cstr raw) → cstr raw = raw →
      ∃ s', Serves managerExterns (serverInit 60) (happenings ++ [.sends 0 raw now]) s' := by
    intro happenings s raw now h hseat hraw hin hcstr
    obtain ⟨o, ho, hclient⟩ := Option.map_eq_some_iff.1 hseat
    obtain ⟨s₁, s', hreceived, hanswered, hparked, -⟩ :=
      waits_sends managerExterns_manages (waits_serves managerExterns_manages h) ho hraw hin now
    have hserved := Served.sends hreceived hanswered hparked
    rw [hclient, hcstr] at hserved
    exact ⟨s', h.snoc hserved⟩
  obtain ⟨s₁, s₂, s₃, s, htop, haccepted, hseated, hback, hgreeted, hparked, -⟩ :=
    @waits_arrives managerExterns _ _ _ (waits_init 60) 4 (by decide) rfl ⟨10, 0, 0, 7⟩ 0
  have harrives := Serves.nil.snoc (.arrives htop haccepted hseated hback hgreeted hparked)
  obtain ⟨s', hregister⟩ := hsends (ascii "REGISTER|ana\n") 1 harrives
    (by decide +kernel) ⟨by decide, by decide, by decide, by decide⟩ (by decide +kernel)
    (by decide)
  exact hsends (ascii "LIST\n") 2 hregister (by decide +kernel)
    ⟨by decide, by decide, by decide, by decide⟩ (by decide +kernel) (by decide)

/-- What the visitor is told. -/
theorem serves_as_room_visit : ∃ s, (serverSystem managerExterns 60).Reach s ∧
    receivedBy 0 s.log = [ascii "WELCOME|CHAT/1.0\n", ascii "REGISTER_OK|ana|10.0.0.7|ACTIVO\n",
      ascii "LIST_OK|ana\n"] := by
  obtain ⟨s, hserves⟩ := serves_visit
  obtain ⟨hreach, hwaits⟩ := serves_as_room managerExterns_manages 60 visit hserves
  refine ⟨s, hreach, ?_⟩
  rw [hwaits.displays.heard]
  decide +kernel

/-- The server is never at a loss: after every history somebody can come, whoever is in the room can
    send a line that the parser has room for, or leave, and the clock can be looked at; and the
    server deals with it to its end. -/
theorem serves_whatever_happens (hx : x.Manages) (timeout : Int) (happenings : List Happening)
    (h : Serves x (serverInit timeout) happenings s) :
    (∀ fd addr now, 0 ≤ fd → s.fds fd = none →
      ∃ s', Served x s (.arrives s.nextConn addr now) s') ∧
    (∀ i o, (happenings.foldl (ChatRoom.step timeout) Room.empty).seats i = some o →
      (∀ raw now, IsFrame msgTerminatorChar (maxLineLen - 1) raw → InBounds (cstr raw) →
        ∃ s', Served x s (.sends o.client (cstr raw) now) s') ∧
      ∃ s', Served x s (.leaves o.client) s') ∧
    ∀ now, ∃ s', Served x s (.ticks now) s' := by
  have hwaits := waits_serves hx h
  refine ⟨fun fd addr now hfd hfree => ?_, fun i o hi => ⟨fun raw now hraw hin => ?_, ?_⟩,
    fun now => ?_⟩
  · obtain ⟨s₁, s₂, s₃, s', htop, haccepted, hseated, hback, hgreeted, hparked, -⟩ :=
      waits_arrives (x := x) hwaits hfd hfree addr now
    exact ⟨s', .arrives htop haccepted hseated hback hgreeted hparked⟩
  · obtain ⟨s₁, s', hreceived, hanswered, hparked, -⟩ := waits_sends hx hwaits hi hraw hin now
    exact ⟨s', .sends hreceived hanswered hparked⟩
  · obtain ⟨s₁, s', hungUp, hgone, hparked, -⟩ := waits_leaves (x := x) hwaits hi
    exact ⟨s', .leaves hungUp hgone hparked⟩
  · obtain ⟨s₁, s', hmarked, hnotified, hover, -⟩ := waits_ticks (x := x) hwaits now
    exact ⟨s', .ticks hmarked hnotified hover⟩

/-- Behind the visit, the visitor can ask about herself or leave, and the clock can be looked at. -/
theorem serves_whatever_happens_visit : ∃ s, Serves managerExterns (serverInit 60) visit s ∧
    (∃ s', Served managerExterns s (.sends 0 (ascii "INFO|ana\n") 3) s') ∧
    (∃ s', Served managerExterns s (.leaves 0) s') ∧
    ∃ s', Served managerExterns s (.ticks 100) s' := by
  obtain ⟨s, hserves⟩ := serves_visit
  obtain ⟨-, hseated, hticks⟩ :=
    serves_whatever_happens managerExterns_manages 60 visit hserves
  have hseat : ((visit.foldl (ChatRoom.step 60) Room.empty).seats 0).map Occupant.client = some 0 := by
    decide +kernel
  obtain ⟨o, ho, hclient⟩ := Option.map_eq_some_iff.1 hseat
  obtain ⟨hsends, hleaves⟩ := hseated 0 o ho
  have hline := hsends (ascii "INFO|ana\n") 3 ⟨by decide, by decide, by decide, by decide⟩
    (by decide +kernel)
  rw [hclient] at hline hleaves
  exact ⟨s, hserves, hline, hleaves, hticks 100⟩

end Server

end ChatMultithread
