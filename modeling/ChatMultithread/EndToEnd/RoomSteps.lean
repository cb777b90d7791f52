import ChatMultithread.EndToEnd.RoomServed
import ChatMultithread.Server.Proofs.Idle

/-!
# What the server does about something that happens

Somebody comes, sends a line or leaves, or time passes, while the server displays a room and
everybody waits: the accept loop, the monitor and the threads. For each of the four, the steps
that the server takes about it lead to a state in which everybody waits again, and which displays
the room of `ChatRoom.step`.
-/

namespace ChatMultithread

open Lib ChatRoom

namespace Server

/-- The server displays the room, and everybody waits: the accept loop for a connection, the monitor
    for the time, and each thread for its client, if that has not left. -/
structure Waits (timeout : Int) (s : Server) (r : ChatRoom) : Prop where
  displays : Displays s r
  running : s.running = true
  timeout_eq : s.inactivityTimeoutSeconds = timeout
  accept : s.accept = .top
  monitor : s.monitor = .tick
  came : ∀ i o, r.seats i = some o → o.client < s.nextConn
  seated : ∀ i o, r.seats i = some o →
    s.threads o.client = some ⟨i, (s.sessions i).sockfd, .receiving, none⟩
  gone : ∀ c t, s.threads c = some t → r.Absent c → t.pc = .done

variable {x : Externs} {s s₁ s' : Server} {r r' : ChatRoom} {i j : Slot} {o p : User} {c : Conn}
  {now timeout : Int} {t : Thread}

/-! ## Steps of a thread around a line -/

theorem setThread_twice (t' : Thread) : (s.setThread c t).setThread c t' = s.setThread c t' := by
  simp [setThread]

/-- Behind a line the thread waits for the next one. -/
theorem goes_continue (hrun : s.running = true) :
    Goes x c now (s.setThread c { t with pc := .handling (.ret .continue_) })
      (s.setThread c { t with pc := .receiving, target := none }) := by
  refine .head (b := s.setThread c { t with pc := .loop, target := none }) ?_ (.single ?_)
  · simp only [step, setThread_threads_self, clientStep, setThread_twice]
  · simp only [step, setThread_threads_self, clientStep, setThread_running, hrun, setThread_twice,
      if_true]

/-- The session is removed from the table, and its socket closed. -/
def dismiss (s : Server) (c : Conn) (i : Slot) : Server :=
  { s with sessions := Function.update s.sessions i (removedSession (s.sessions i)) }.close c
    (s.sessions i).sockfd

/-- A thread that leaves the loop dismisses its session and ends. -/
theorem goes_dismiss (h : Displays s r) (hi : r.seats t.slot = some o)
    (hfd : t.sockfd = (s.sessions t.slot).sockfd) :
    Goes x c now (s.setThread c { t with pc := .removing })
      ((s.dismiss c t.slot).setThread c { t with pc := .done }) := by
  have hfind : sessionsFindBySockfd s.sessions t.sockfd = some t.slot := by
    rw [hfd]
    exact sessionsFindBySockfd_onlyAt (h.onlyAt hi)
  have hpos := h.nonneg t.slot o hi
  refine .head (b := { s with
    sessions := Function.update s.sessions t.slot (removedSession (s.sessions t.slot)) }.setThread c
      { t with pc := .closing (s.sessions t.slot).sockfd }) ?_ (.single ?_)
  · simp only [step, setThread_threads_self, clientStep, setThread_sessions,
      sessionsRemoveBySockfd_eq, hfind, if_pos hpos]
    simp [setThread]
  · simp only [step, setThread_threads_self, clientStep, dismiss]
    simp [setThread, close]

theorem goes_break (h : Displays s r) (hi : r.seats t.slot = some o)
    (hfd : t.sockfd = (s.sessions t.slot).sockfd) :
    Goes x c now (s.setThread c { t with pc := .handling (.ret .break_) })
      ((s.dismiss c t.slot).setThread c { t with pc := .done, target := none }) := by
  refine .head (b := s.setThread c { t with pc := .removing, target := none }) ?_ ?_
  · simp only [step, setThread_threads_self, clientStep, setThread_twice]
  · exact goes_dismiss (t := { t with target := none }) h hi hfd

theorem parked_setThread (h : t.pc = .receiving ∨ t.pc = .done) : Parked c (s.setThread c t) := by
  intro t' ht'
  rw [setThread_threads_self] at ht'
  cases ht'
  exact h

/-! ## What is displayed then -/

theorem Displays.congr (h : Displays s r) (hsessions : s'.sessions = s.sessions)
    (hfds : s'.fds = s.fds) (hlog : ∀ c, receivedBy c s'.log = receivedBy c s.log) :
    Displays s' r where
  free i hi := by rw [hsessions, h.free i hi]
  taken i o hi := by
    rw [hsessions]
    exact h.taken i o hi
  owner i o hi := by rw [hsessions, hfds, h.owner i o hi]
  nonneg i o hi := by
    rw [hsessions]
    exact h.nonneg i o hi
  heard c := by rw [hlog, h.heard]

theorem Displays.setThread (h : Displays s r) : Displays (s.setThread c t) r :=
  h.congr rfl rfl fun _ => rfl

/-- Without a session its user has no seat. -/
theorem Displays.dismiss (h : Displays s r) (hi : r.seats i = some o) :
    Displays (s.dismiss c i) (r.vacate i) where
  free j hj := by
    by_cases hji : j = i
    · subst hji
      simp [Server.dismiss, removedSession]
    · rw [Room.vacate_seats, Function.update_of_ne hji] at hj
      simpa [Server.dismiss, hji] using h.free j hj
  taken j p hj := by
    by_cases hji : j = i
    · simp [hji] at hj
    · rw [Room.vacate_seats, Function.update_of_ne hji] at hj
      simpa [Server.dismiss, hji] using h.taken j p hj
  owner j p hj := by
    by_cases hji : j = i
    · simp [hji] at hj
    · rw [Room.vacate_seats, Function.update_of_ne hji] at hj
      have hne : (s.sessions j).sockfd ≠ (s.sessions i).sockfd :=
        fun heq => hji (h.sockfd_inj hj hi heq)
      simpa [Server.dismiss, hji, hne] using h.owner j p hj
  nonneg j p hj := by
    by_cases hji : j = i
    · simp [hji] at hj
    · rw [Room.vacate_seats, Function.update_of_ne hji] at hj
      simpa [Server.dismiss, hji] using h.nonneg j p hj
  heard d := by
    have hlog : receivedBy d (s.dismiss c i).log = receivedBy d s.log := by
      simp [Server.dismiss, receivedBy]
    rw [hlog, h.heard, Room.vacate_heard]

/-! ## What is waited for then -/

/-- In every seat sits who sat there. -/
def SameClients (r r' : ChatRoom) : Prop :=
  ∀ i, (r'.seats i).map Occupant.client = (r.seats i).map Occupant.client

theorem SameClients.seat (h : SameClients r r') (hi : r'.seats i = some p) :
    ∃ o, r.seats i = some o ∧ o.client = p.client := by
  have hclient := h i
  rw [hi] at hclient
  exact Option.map_eq_some_iff.1 hclient.symm

theorem SameClients.absent (h : SameClients r r') (hc : r'.Absent c) : r.Absent c := by
  intro i o hi
  have hclient := h i
  rw [Option.mem_def.1 hi] at hclient
  obtain ⟨p, hp, hop⟩ := Option.map_eq_some_iff.1 hclient
  rw [← hop]
  exact hc i p hp

theorem sameClients_amendAt {f : UserInfo → UserInfo} : SameClients r (r.amendAt i f) := by
  intro j
  rw [Room.amendAt, Room.amend_seats, Option.map_map]
  rfl

/-- Nobody but who quits loses the seat for what is said. -/
theorem sameClients_serve {request : Request} (hquit : request ≠ .quit) :
    SameClients r (serve r i o request) := by
  intro j
  cases request with
  | quit => exact absurd rfl hquit
  | ping | sayBye | unknown | list => rfl
  | register user =>
    simp only [serve]
    split
    · split
      · rw [Room.tell_seats, Room.christen_seats, Function.update_apply]
        split
        · rename_i hj
          rw [hj, Option.map_map]
          rfl
        · rfl
      · rfl
    · rfl
  | info user =>
    simp only [serve]
    split <;> rfl
  | status word =>
    simp only [serve]
    split
    · rfl
    · rw [Room.tellAll_seats, Room.tell_seats]
      split
      · exact sameClients_amendAt j
      · rfl
  | msg dst text =>
    simp only [serve]
    split <;> rfl
  | broadcast text => rfl

/-- A thread has served its user, who keeps the seat, and waits again. -/
theorem Waits.turn (h : Waits timeout s r) (hi : r.seats i = some o) (hkeeps : Keeps s s')
    (hdisplays : Displays s' r') (hsame : SameClients r r') :
    Waits timeout (s'.setThread o.client ⟨i, (s.sessions i).sockfd, .receiving, none⟩) r' where
  displays := hdisplays.setThread
  running := by
    rw [hkeeps.frame]
    exact h.running
  timeout_eq := by
    rw [hkeeps.frame]
    exact h.timeout_eq
  accept := by
    rw [hkeeps.frame]
    exact h.accept
  monitor := by
    rw [hkeeps.frame]
    exact h.monitor
  came j p hj := by
    obtain ⟨q, hq, hclient⟩ := hsame.seat hj
    rw [hkeeps.frame, ← hclient]
    exact h.came j q hq
  seated j p hj := by
    obtain ⟨q, hq, hclient⟩ := hsame.seat hj
    rw [← hclient, setThread_sessions, hkeeps.sockfd]
    by_cases hc : q.client = o.client
    · obtain rfl := r.client_inj j i q o hq hi hc
      rw [hc, setThread_threads_self]
    · rw [setThread_threads_ne _ _ _ hc, hkeeps.frame]
      exact h.seated j q hq
  gone c t ht hc := by
    have hne : c ≠ o.client := by
      rintro rfl
      exact hsame.absent hc i o hi rfl
    rw [setThread_threads_ne _ _ _ hne, hkeeps.frame] at ht
    exact h.gone c t ht (hsame.absent hc)

/-- A thread has dismissed its user. -/
theorem Waits.dismiss (h : Waits timeout (s.setThread o.client t) r) (hi : r.seats i = some o)
    {t' : Thread} (hpc : t'.pc = .done) :
    Waits timeout ((s.dismiss o.client i).setThread o.client t') (r.vacate i) where
  displays := by
    have hdisplays : Displays s r := h.displays.congr rfl rfl fun _ => rfl
    exact (hdisplays.dismiss hi).setThread
  running := h.running
  timeout_eq := h.timeout_eq
  accept := h.accept
  monitor := h.monitor
  came j p hj := by
    by_cases hji : j = i
    · simp [hji] at hj
    · rw [Room.vacate_seats, Function.update_of_ne hji] at hj
      exact h.came j p hj
  seated j p hj := by
    by_cases hji : j = i
    · simp [hji] at hj
    · rw [Room.vacate_seats, Function.update_of_ne hji] at hj
      have hne : p.client ≠ o.client := fun heq => hji (r.client_inj j i p o hj hi heq)
      have hseated := h.seated j p hj
      rw [setThread_threads_ne _ _ _ hne] at hseated ⊢
      simpa [Server.dismiss, hji] using hseated
  gone c t₁ ht hc := by
    by_cases hco : c = o.client
    · subst hco
      rw [setThread_threads_self] at ht
      cases ht
      exact hpc
    · refine h.gone c t₁ ?_ ?_
      · rw [setThread_threads_ne _ _ _ hco] at ht ⊢
        exact ht
      · intro j p hj hclient
        refine hc j p ?_ hclient
        have hji : j ≠ i := by
          rintro rfl
          rw [hi] at hj
          cases hj
          exact hco hclient.symm
        rw [Room.vacate_seats, Function.update_of_ne hji]
        exact hj

/-! ## Something is said -/

theorem step_sends (hi : r.seats i = some o) (line : Bytes) :
    ChatRoom.step timeout r (.sends o.client line now) =
      serve (r.amendAt i (alive now)) i { o with info := alive now o.info } (requestOf line) := by
  have hseat : r.seatOf o.client = some i := Room.seatOf_eq_some.2 ⟨o, hi, rfl⟩
  have hamended : (r.amendAt i (alive now)).seats i = some { o with info := alive now o.info } := by
    rw [Room.amendAt_seats, hi, Function.update_self]
    rfl
  simp only [ChatRoom.step, hseat, hamended]

/-- A user says something that the parser has room for. -/
theorem waits_sends (hx : x.Manages) (h : Waits timeout s r) (hi : r.seats i = some o) {raw : Bytes}
    (hraw : IsFrame msgTerminatorChar (maxLineLen - 1) raw) (hin : InBounds (cstr raw)) (now : Int) :
    ∃ s₁ s', s.step x (.client o.client (.line raw)) = some s₁ ∧ Goes x o.client now s₁ s' ∧
      Parked o.client s' ∧
      Waits timeout s' (ChatRoom.step timeout r (.sends o.client (cstr raw) now)) := by
  let t : Thread := ⟨i, (s.sessions i).sockfd, .receiving, none⟩
  let s₀ : Server := { s with log := .received o.client (cstr raw) :: s.log }
  have hstep : s.step x (.client o.client (.line raw)) = some (s₀.setThread o.client
      { t with pc := .handling (clientLine t.sockfd (cstr raw)) }) := by
    simp only [step, h.seated i o hi, clientStep]
    exact if_pos ⟨hraw.1, hraw.2, hraw.3, hraw.4⟩
  have h₀ : Displays s₀ r := h.displays.congr rfl rfl fun c => by simp [s₀, receivedBy]
  have hkeeps₀ : Keeps s s₀ := ⟨fun _ => rfl, rfl⟩
  rw [step_sends hi]
  have hi₁ : (r.amendAt i (alive now)).seats i = some { o with info := alive now o.info } := by
    rw [Room.amendAt_seats, hi, Function.update_self]
    rfl
  have hsame₁ : SameClients r (r.amendAt i (alive now)) := sameClients_amendAt
  have hactivity : Yields x o.client now t s₀ (updateSessionActivity t.sockfd) ()
      (r.amendAt i (alive now)) := yields_updateSessionActivity h₀ hi
  generalize r.amendAt i (alive now) = r₁ at hi₁ hsame₁ hactivity ⊢
  generalize ho₁ : ({ o with info := alive now o.info } : User) = o₁ at hi₁ ⊢
  have hclient : o₁.client = o.client := by rw [← ho₁]
  have hline := clientLine_eq t.sockfd (length_cstr_frame hraw)
  by_cases hquit : requestOf (cstr raw) = .quit
  · have hyields : Yields x o.client now t s₀ (clientLine t.sockfd (cstr raw)) .break_
        (r₁.tell o.client .bye) := by
      rw [hline]
      refine yields_bind hactivity fun target s₁ hkeeps h₁ => ?_
      have hbody := @yields_lineBody x _ _ _ o.client now { t with target := target } hx h₁ hi₁ _
        hin _ (hkeeps.sockfd i).symm
      rw [if_pos hquit, hclient] at hbody
      exact hbody
    obtain ⟨target, s₂, hfinish, hkeeps, h₂⟩ := hyields
    have hwaits := h.turn hi (hkeeps₀.trans hkeeps) h₂ hsame₁
    have hi₂ : (r₁.tell o.client .bye).seats i = some o₁ := hi₁
    refine ⟨_, (s₂.dismiss o.client i).setThread o.client { t with pc := .done }, hstep, ?_, ?_, ?_⟩
    · apply (goes_of_finish hfinish).trans
      exact goes_break h₂ hi₂ ((hkeeps₀.trans hkeeps).sockfd i).symm
    · exact parked_setThread (.inr rfl)
    · rw [hquit, serve, hclient]
      rw [← hclient] at hwaits ⊢
      exact hwaits.dismiss hi₂ rfl
  · have hyields : Yields x o.client now t s₀ (clientLine t.sockfd (cstr raw)) .continue_
        (serve r₁ i o₁ (requestOf (cstr raw))) := by
      rw [hline]
      refine yields_bind hactivity fun target s₁ hkeeps h₁ => ?_
      have hbody := @yields_lineBody x _ _ _ o.client now { t with target := target } hx h₁ hi₁ _
        hin _ (hkeeps.sockfd i).symm
      rw [if_neg hquit] at hbody
      exact hbody
    obtain ⟨target, s₂, hfinish, hkeeps, h₂⟩ := hyields
    have hrun : s₂.running = true := by
      rw [(hkeeps₀.trans hkeeps).frame]
      exact h.running
    refine ⟨_, s₂.setThread o.client t, hstep, (goes_of_finish hfinish).trans (goes_continue hrun),
      parked_setThread (.inl rfl), h.turn hi (hkeeps₀.trans hkeeps) h₂ ?_⟩
    intro j
    rw [sameClients_serve hquit j, hsame₁ j]

/-- A user is gone. -/
theorem waits_leaves (h : Waits timeout s r) (hi : r.seats i = some o) :
    ∃ s₁ s', s.step x (.client o.client .hangup) = some s₁ ∧ Goes x o.client 0 s₁ s' ∧
      Parked o.client s' ∧ Waits timeout s' (ChatRoom.step timeout r (.leaves o.client)) := by
  let t : Thread := ⟨i, (s.sessions i).sockfd, .receiving, none⟩
  have ht : s.threads o.client = some t := h.seated i o hi
  have hself : s.setThread o.client t = s := by
    rw [setThread, ← ht, Function.update_eq_self]
  have hstep : s.step x (.client o.client .hangup) =
      some (s.setThread o.client { t with pc := .removing }) := by
    simp only [step, ht, clientStep]
    rfl
  have hseat : r.seatOf o.client = some i := Room.seatOf_eq_some.2 ⟨o, hi, rfl⟩
  simp only [ChatRoom.step, hseat]
  refine ⟨_, (s.dismiss o.client i).setThread o.client { t with pc := .done }, hstep,
    goes_dismiss h.displays hi rfl, parked_setThread (.inr rfl), ?_⟩
  rw [← hself] at h
  exact h.dismiss hi rfl

/-! ## Somebody comes -/

/-- The first slot that the session manager finds is the first free seat. -/
theorem Displays.firstSlot_eq (h : Displays s r) :
    firstSlot (fun i => !(s.sessions i).isActive) = r.free := by
  rw [firstSlot, Room.free]
  congr 1
  funext i
  cases hi : r.seats i with
  | none => simp [h.free i hi]
  | some o => simp [(h.taken i o hi).active]

/-- The session that the accept loop has made is that of a user without a name. -/
theorem sessionOf_new (fd : Int) (addr : InAddr) (threadId : Nat) :
    SessionOf ⟨c, none, addr, .activo, now⟩
      { newSession fd addr now with isActive := true, threadId := threadId } :=
  ⟨rfl, rfl, rfl, rfl, rfl, rfl⟩

/-- A new client has a free seat and a descriptor that was not in use. -/
theorem Displays.enter (h : Displays s r) {fd : Int} (hfd : 0 ≤ fd) (hfree : s.fds fd = none)
    (hc : r.Absent c) (hseat : r.seats i = none) {info : UserInfo} {session : ClientSession}
    (hsession : SessionOf ⟨c, none, info⟩ session) (hsockfd : session.sockfd = fd)
    (hfds : s'.fds = Function.update s.fds fd (some c))
    (hsessions : s'.sessions = Function.update s.sessions i session)
    (hlog : s'.log = s.log) : Displays s' (r.enter i c info hc) where
  free j hj := by
    by_cases hji : j = i
    · simp [hji] at hj
    · rw [Room.enter_seats, Function.update_of_ne hji] at hj
      rw [hsessions, Function.update_of_ne hji, h.free j hj]
  taken j p hj := by
    by_cases hji : j = i
    · subst hji
      rw [Room.enter_seats, Function.update_self] at hj
      cases hj
      rw [hsessions, Function.update_self]
      exact hsession
    · rw [Room.enter_seats, Function.update_of_ne hji] at hj
      rw [hsessions, Function.update_of_ne hji]
      exact h.taken j p hj
  owner j p hj := by
    by_cases hji : j = i
    · subst hji
      rw [Room.enter_seats, Function.update_self] at hj
      cases hj
      rw [hsessions, Function.update_self, hfds, hsockfd, Function.update_self]
    · rw [Room.enter_seats, Function.update_of_ne hji] at hj
      have hown := h.owner j p hj
      have hne : (s.sessions j).sockfd ≠ fd := by
        intro heq
        rw [heq, hfree] at hown
        cases hown
      rw [hsessions, Function.update_of_ne hji, hfds, Function.update_of_ne hne, hown]
  nonneg j p hj := by
    by_cases hji : j = i
    · subst hji
      rw [hsessions, Function.update_self, hsockfd]
      exact hfd
    · rw [Room.enter_seats, Function.update_of_ne hji] at hj
      rw [hsessions, Function.update_of_ne hji]
      exact h.nonneg j p hj
  heard d := by rw [hlog, h.heard, Room.enter_heard]

/-- Whoever is to come has not come yet. -/
theorem Waits.absent (h : Waits timeout s r) : r.Absent s.nextConn := by
  intro i o hi
  exact Nat.ne_of_lt (h.came i o hi)

/-- The thread of a new client greets it. -/
theorem goes_greet (hrun : s.running = true) (hown : s.fds (s.sessions i).sockfd = some c) :
    Goes x c now (s.setThread c ⟨i, 0, .start, none⟩)
      ((s.deliver (.client c) (some c) (s.sessions i).sockfd
        (ascii "WELCOME|CHAT/1.0\n")).setThread c ⟨i, (s.sessions i).sockfd, .receiving, none⟩) := by
  refine .head (b := s.setThread c ⟨i, (s.sessions i).sockfd, .welcome, none⟩) ?_ ?_
  · simp only [step, setThread_threads_self, clientStep, setThread_twice, setThread_sessions]
  have hdeliver : ∀ t, (s.setThread c t).deliver (.client c) (some c) (s.sessions i).sockfd
      (ascii "WELCOME|CHAT/1.0\n") = (s.deliver (.client c) (some c) (s.sessions i).sockfd
        (ascii "WELCOME|CHAT/1.0\n")).setThread c t := by
    intro t
    simp only [deliver, setThread_fds, hown]
    rfl
  refine .head (b := (s.deliver (.client c) (some c) (s.sessions i).sockfd
    (ascii "WELCOME|CHAT/1.0\n")).setThread c ⟨i, (s.sessions i).sockfd, .loop, none⟩) ?_
    (.single ?_)
  · simp only [step, setThread_threads_self, clientStep, hdeliver, setThread_twice, if_true]
  · simp only [step, setThread_threads_self, clientStep, setThread_running, deliver_running, hrun,
      setThread_twice, if_true]

/-- A new client is served as those before it. -/
theorem Waits.greet (h : Waits timeout s r) {info : UserInfo} (hseat : r.seats i = none)
    (hdisplays : Displays s' r')
    (hseats : r'.seats = Function.update r.seats i (some ⟨s.nextConn, none, info⟩))
    (hrunning : s'.running = true) (htimeout : s'.inactivityTimeoutSeconds = timeout)
    (haccept : s'.accept = .top) (hmonitor : s'.monitor = .tick)
    (hnext : s'.nextConn = s.nextConn + 1) (hthreads : s'.threads = s.threads)
    (hsockfd : ∀ j, j ≠ i → (s'.sessions j).sockfd = (s.sessions j).sockfd) :
    Waits timeout (s'.setThread s.nextConn ⟨i, (s'.sessions i).sockfd, .receiving, none⟩) r' where
  displays := hdisplays.setThread
  running := hrunning
  timeout_eq := htimeout
  accept := haccept
  monitor := hmonitor
  came j p hj := by
    rw [setThread_nextConn, hnext]
    rw [hseats, Function.update_apply] at hj
    split at hj
    · cases hj
      exact Nat.lt_succ_self _
    · exact Nat.lt_succ_of_lt (h.came j p hj)
  seated j p hj := by
    rw [hseats] at hj
    by_cases hji : j = i
    · subst hji
      rw [Function.update_self] at hj
      cases hj
      rw [setThread_threads_self, setThread_sessions]
    · rw [Function.update_of_ne hji] at hj
      have hne : p.client ≠ s.nextConn := Nat.ne_of_lt (h.came j p hj)
      rw [setThread_threads_ne _ _ _ hne, hthreads, setThread_sessions, hsockfd j hji]
      exact h.seated j p hj
  gone c t ht hc := by
    have hne : c ≠ s.nextConn := by
      rintro rfl
      exact hc i ⟨s.nextConn, none, info⟩ (by rw [hseats, Function.update_self]; rfl) rfl
    rw [setThread_threads_ne _ _ _ hne, hthreads] at ht
    refine h.gone c t ht fun j p hj hclient => ?_
    by_cases hji : j = i
    · rw [hji, hseat] at hj
      cases hj
    · refine hc j p ?_ hclient
      rw [hseats, Function.update_of_ne hji]
      exact hj

/-- A connection for which there is no room is closed. -/
theorem accepts_reject {fd : Int} {session : ClientSession}
    (hfull : firstSlot (fun i => !(s.sessions i).isActive) = none) :
    Accepts x { s with accept := .adding fd c session } { s.close c fd with accept := .top } := by
  refine .head (b := { s with accept := .rejecting fd c }) ⟨AcceptPc.noConfusion, ?_⟩
    (.single ⟨AcceptPc.noConfusion, ?_⟩)
  · simp only [step, acceptorStep, sessionsAdd, hfull, Option.map_none]
  · simp only [step, acceptorStep, close]

/-- A session for which there is room is put into the table and given a thread. -/
theorem accepts_seat {fd : Int} {session : ClientSession}
    (hseat : firstSlot (fun i => !(s.sessions i).isActive) = some i)
    (hfind : sessionsFindBySockfd
      (Function.update s.sessions i { session with isActive := true }) fd = some i) :
    Accepts x { s with accept := .adding fd c session }
      ({ s with
        sessions := Function.update s.sessions i
          { session with isActive := true, threadId := c }
        accept := .top }.setThread c ⟨i, 0, .start, none⟩) := by
  let filled : Server :=
    { s with sessions := Function.update s.sessions i { session with isActive := true } }
  refine .head (b := { filled with accept := .finding fd c i }) ⟨AcceptPc.noConfusion, ?_⟩ ?_
  · simp only [step, acceptorStep, sessionsAdd, hseat, Option.map_some, filled]
  refine .head (b := { filled with accept := .creating fd c i }) ⟨AcceptPc.noConfusion, ?_⟩ ?_
  · simp only [step, acceptorStep, filled, hfind]
  refine .head (b := { filled.setThread c ⟨i, 0, .start, none⟩ with accept := .storing i c })
    ⟨AcceptPc.noConfusion, ?_⟩ (.single ⟨AcceptPc.noConfusion, ?_⟩)
  · simp only [step, acceptorStep, setThread]
  · simp [step, acceptorStep, setThread, filled]

/-- Somebody comes, behind a descriptor that is not in use. -/
theorem waits_arrives (h : Waits timeout s r) {fd : Int} (hfd : 0 ≤ fd) (hfree : s.fds fd = none)
    (addr : InAddr) (now : Int) :
    ∃ s₁ s₂ s₃ s', s.step x (.acceptor .go) = some s₁ ∧
      s₁.step x (.acceptor (.connection fd addr now)) = some s₂ ∧ Accepts x s₂ s₃ ∧
      s₃.accept = .top ∧ Goes x s.nextConn now s₃ s' ∧ Parked s.nextConn s' ∧
      Waits timeout s' (ChatRoom.step timeout r (.arrives s.nextConn addr now)) := by
  have htop : s.step x (.acceptor .go) = some { s with accept := .accepting } := by
    simp only [step, h.accept, acceptorStep, h.running, if_true]
  let connected : Server := { s with
    fds := Function.update s.fds fd (some s.nextConn)
    nextConn := s.nextConn + 1 }
  have haccepted : { s with accept := .accepting }.step x (.acceptor (.connection fd addr now)) =
      some { connected with accept := .adding fd s.nextConn (newSession fd addr now) } := by
    simp only [step, acceptorStep, hfd, hfree, and_self, if_true, connected]
  have hslot := h.displays.firstSlot_eq
  simp only [ChatRoom.step, dif_pos h.absent]
  cases hroom : r.free with
  | none =>
    rw [hroom] at hslot
    refine ⟨_, _, _, _, htop, haccepted, accepts_reject hslot, rfl, .refl, ?_, ?_⟩
    · intro t ht
      exact .inr (h.gone s.nextConn t ht h.absent)
    · have hfds : Function.update connected.fds fd none = s.fds := by
        simp only [connected, Function.update_idem]
        rw [← hfree, Function.update_eq_self]
      exact {
        displays := h.displays.congr rfl hfds fun c => by simp [connected, receivedBy]
        running := h.running
        timeout_eq := h.timeout_eq
        accept := rfl
        monitor := h.monitor
        came := fun i o hi => Nat.lt_succ_of_lt (h.came i o hi)
        seated := h.seated
        gone := h.gone }
  | some i =>
    rw [hroom] at hslot
    have hseat := Room.free_eq_some hroom
    let seated (threadId : Nat) : Server := { connected with
      sessions := Function.update s.sessions i
        { newSession fd addr now with isActive := true, threadId := threadId }
      accept := .top }
    have hseated : ∀ threadId, Displays (seated threadId)
        (r.enter i s.nextConn ⟨addr, .activo, now⟩ h.absent) := fun threadId =>
      h.displays.enter hfd hfree h.absent hseat (sessionOf_new fd addr threadId) rfl rfl rfl rfl
    have hi : (r.enter i s.nextConn ⟨addr, .activo, now⟩ h.absent).seats i =
        some ⟨s.nextConn, none, addr, .activo, now⟩ := Function.update_self ..
    have hsockfd : ∀ threadId, ((seated threadId).sessions i).sockfd = fd := by
      intro threadId
      simp only [seated, Function.update_self]
      rfl
    have hfind : sessionsFindBySockfd
        (Function.update s.sessions i { newSession fd addr now with isActive := true }) fd =
        some i := by
      have honly := (hseated 0).onlyAt hi
      rw [hsockfd] at honly
      exact sessionsFindBySockfd_onlyAt honly
    have hown := (hseated s.nextConn).owner i _ hi
    have hdelivered := @Displays.deliver _ _ _ _ (hseated s.nextConn) hi (.client s.nextConn)
      (some s.nextConn) _ .welcome rfl
    refine ⟨_, _, _, _, htop, haccepted, accepts_seat hslot hfind, rfl,
      goes_greet (s := seated s.nextConn) h.running hown, parked_setThread (.inl rfl), ?_⟩
    obtain ⟨log, hlog⟩ := (seated s.nextConn).deliver_eq (.client s.nextConn) (some s.nextConn)
      ((seated s.nextConn).sessions i).sockfd (ascii "WELCOME|CHAT/1.0\n")
    have hwaits := h.greet hseat hdelivered rfl
    simp only [Message.encode, hlog] at hwaits ⊢
    refine hwaits h.running h.timeout_eq rfl h.monitor rfl rfl fun j hj => ?_
    simp only [seated, Function.update_of_ne hj]

/-! ## Time passes -/

/-- What a user who has been silent for too long is told: the status the user has now. -/
def idleNotice (now timeout : Int) (o : User) : Option Message :=
  if Idle now timeout o.info then
    some (.fields (.statusChanged
      (if o.name.isSome then signature o else ascii "UNREGISTERED") statusInactive))
  else none

/-- What is prepared for the socket of a slot. -/
def preparedFor (s : Server) (now : Int) (i : Slot) : Option Notification :=
  (sessionMarkInactiveIfNeeded (s.sessions i) now s.inactivityTimeoutSeconds).map (noticeOf s.fds)

theorem mark_eq (hsession : SessionOf o (s.sessions i)) :
    sessionMarkInactiveIfNeeded (s.sessions i) now timeout =
      if Idle now timeout o.info then some { s.sessions i with status := .inactivo } else none := by
  simp only [sessionMarkInactiveIfNeeded, hsession.active, hsession.status, hsession.lastActivity,
    Idle]
  by_cases hstatus : o.info.status = .inactivo
  · simp [hstatus]
  · by_cases hidle : now - o.info.lastActivity < timeout <;> simp [hstatus, hidle]

/-- The notice of the monitor says what the room says. -/
theorem preparedFor_eq (hsession : SessionOf o (s.sessions i)) :
    s.preparedFor now i = (idleNotice now s.inactivityTimeoutSeconds o).map fun m =>
      ⟨(s.sessions i).sockfd, s.fds (s.sessions i).sockfd, m.encode⟩ := by
  rw [preparedFor, mark_eq hsession, idleNotice]
  split
  · rw [Option.map_some, Option.map_some, noticeOf, hsession.username, inactivityNotice]
    congr 2
    cases hname : o.name with
    | none =>
      have hsignature : signature o = [] := by rw [signature, hname]; rfl
      rw [hsignature]
      rfl
    | some u =>
      rw [if_neg (signature_some hname ▸ username_ne_nil u)]
      rfl
  · rfl

/-- The monitor's notices are what the users of the seats are told, one after the other. -/
theorem Displays.notify (h : Displays s r) (hseats : r'.seats = r.seats) (is : List Slot)
    (h' : Displays s' r') (hsessions : s'.sessions = s.sessions) (hfds : s'.fds = s.fds) :
    Displays ((is.filterMap (s.preparedFor now)).foldl
        (fun s n => s.deliver .monitor n.aim n.sockfd n.text) s')
      (is.foldl (Room.tellSeat fun _ => idleNotice now s.inactivityTimeoutSeconds) r') := by
  induction is generalizing s' r' with
  | nil => exact h'
  | cons i is ih =>
    rw [List.filterMap_cons, List.foldl_cons]
    cases hi : r.seats i with
    | none =>
      have hnone : s.preparedFor now i = none := by
        rw [preparedFor, sessionMarkInactiveIfNeeded, h.free i hi]
        rfl
      have hsame : Room.tellSeat (fun _ => idleNotice now s.inactivityTimeoutSeconds) r' i = r' := by
        rw [Room.tellSeat, hseats, hi]
      rw [hnone, hsame]
      exact ih hseats h' hsessions hfds
    | some o =>
      have hi' : r'.seats i = some o := by rw [hseats, hi]
      rw [preparedFor_eq (h.taken i o hi)]
      cases hm : idleNotice now s.inactivityTimeoutSeconds o with
      | none =>
        have hsame : Room.tellSeat (fun _ => idleNotice now s.inactivityTimeoutSeconds) r' i =
            r' := by
          simp only [Room.tellSeat, hi', hm]
        rw [hsame]
        exact ih hseats h' hsessions hfds
      | some m =>
        have htold : Room.tellSeat (fun _ => idleNotice now s.inactivityTimeoutSeconds) r' i =
            r'.tell o.client m := by
          simp only [Room.tellSeat, hi', hm]
        rw [htold, Option.map_some, List.foldl_cons]
        refine ih hseats ?_ ?_ ?_
        · rw [← hsessions]
          exact h'.deliver hi' rfl
        · rw [deliver_sessions, hsessions]
        · rw [deliver_fds, hfds]

theorem ticked_sockfd (session : ClientSession) :
    (ticked session now timeout).sockfd = session.sockfd := by
  rw [ticked]
  cases hmark : sessionMarkInactiveIfNeeded session now timeout with
  | none => rfl
  | some marked =>
    rw [(mark_eq_some hmark).1]
    rfl

theorem notified_eq (s : Server) (pending : List Notification) :
    ∃ log, pending.foldl (fun s n => s.deliver .monitor n.aim n.sockfd n.text) s =
      { s with log := log } := by
  induction pending generalizing s with
  | nil => exact ⟨s.log, rfl⟩
  | cons n rest ih =>
    obtain ⟨log, hlog⟩ := s.deliver_eq .monitor n.aim n.sockfd n.text
    rw [List.foldl_cons, hlog]
    exact ih _

/-- A round of the monitor marks whom it has found idle. -/
theorem Displays.mark (h : Displays s r) :
    Displays { s with sessions := fun i => ticked (s.sessions i) now timeout }
      (r.amend fun _ info =>
        if Idle now timeout info then { info with status := .inactivo } else info) := by
  exact {
    free := by
      intro i hi
      have hfree := h.free i (Option.map_eq_none_iff.1 hi)
      have hnone : sessionMarkInactiveIfNeeded (s.sessions i) now timeout = none := by
        rw [sessionMarkInactiveIfNeeded, hfree]
        rfl
      simpa [ticked, hnone] using hfree
    taken := by
      intro i p hi
      obtain ⟨o, ho, rfl⟩ := Option.map_eq_some_iff.1 hi
      have hsession := h.taken i o ho
      simp only [ticked, mark_eq hsession]
      split
      · exact ⟨hsession.active, hsession.registered, hsession.username, hsession.addr, rfl,
          hsession.lastActivity⟩
      · exact hsession
    owner := by
      intro i p hi
      obtain ⟨o, ho, rfl⟩ := Option.map_eq_some_iff.1 hi
      rw [ticked_sockfd]
      exact h.owner i o ho
    nonneg := by
      intro i p hi
      obtain ⟨o, ho, -⟩ := Option.map_eq_some_iff.1 hi
      rw [ticked_sockfd]
      exact h.nonneg i o ho
    heard := h.heard }

/-- The monitor sends its notices. -/
theorem notifies_pending {pending : List Notification} {sessions : Sessions}
    (hpending : ∀ n ∈ pending, 0 ≤ n.sockfd) :
    Notifies x now { s with sessions := sessions, monitor := .sending pending }
      { pending.foldl (fun s n => s.deliver .monitor n.aim n.sockfd n.text) s with
        sessions := sessions
        monitor := .tick } := by
  induction pending generalizing s with
  | nil => exact .single ⟨MonitorPc.noConfusion, rfl⟩
  | cons n rest ih =>
    refine .head (b := { s.deliver .monitor n.aim n.sockfd n.text with
      sessions := sessions, monitor := .sending rest }) ⟨MonitorPc.noConfusion, ?_⟩ ?_
    · simp only [step, monitorStep, hpending n List.mem_cons_self, and_self, if_true, deliver]
      split <;> rfl
    · exact ih fun m hm => hpending m (List.mem_cons_of_mem _ hm)

/-- The clock is looked at. -/
theorem waits_ticks (h : Waits timeout s r) (now : Int) :
    ∃ s₁ s', s.step x (.monitor now true) = some s₁ ∧ Notifies x now s₁ s' ∧ s'.monitor = .tick ∧
      Waits timeout s' (ChatRoom.step timeout r (.ticks now)) := by
  let pending := (List.finRange maxClients).filterMap (s.preparedFor now)
  let told := pending.foldl (fun s n => s.deliver .monitor n.aim n.sockfd n.text) s
  have hstep : s.step x (.monitor now true) = some { s with
      sessions := fun i => ticked (s.sessions i) now timeout
      monitor := .sending pending } := by
    have hprepared : (fun i => (sessionMarkInactiveIfNeeded (s.sessions i) now timeout).map
        (noticeOf s.fds)) = s.preparedFor now := by
      funext i
      rw [preparedFor, h.timeout_eq]
    simp only [step, h.monitor, monitorStep, h.running, if_true, markLoop_finRange, h.timeout_eq,
      hprepared, pending]
  have hpending : ∀ n ∈ pending, 0 ≤ n.sockfd := by
    intro n hn
    obtain ⟨i, -, hi⟩ := List.mem_filterMap.1 hn
    obtain ⟨marked, hmark, rfl⟩ := Option.map_eq_some_iff.1 hi
    obtain ⟨o, ho⟩ := h.displays.occupied (mark_eq_some hmark).2.1
    rw [noticeOf, (mark_eq_some hmark).1]
    exact h.displays.nonneg i o ho
  have htold : Displays told (r.tellAll fun _ => idleNotice now timeout) := by
    have hnotify := @Displays.notify _ _ _ _ now h.displays rfl (List.finRange maxClients)
      h.displays rfl rfl
    rw [Room.foldl_tellSeat, h.timeout_eq] at hnotify
    exact hnotify
  obtain ⟨log, hlog⟩ := notified_eq s pending
  have hmarked := @Displays.mark _ _ now timeout htold
  simp only [told, hlog] at hmarked
  refine ⟨_, _, hstep, notifies_pending hpending, rfl, ?_⟩
  rw [hlog]
  exact {
    displays := hmarked.congr rfl rfl fun _ => rfl
    running := h.running
    timeout_eq := h.timeout_eq
    accept := h.accept
    monitor := rfl
    came := by
      intro i p hi
      obtain ⟨o, ho, rfl⟩ := Option.map_eq_some_iff.1 hi
      exact h.came i o ho
    seated := by
      intro i p hi
      obtain ⟨o, ho, rfl⟩ := Option.map_eq_some_iff.1 hi
      rw [ticked_sockfd]
      exact h.seated i o ho
    gone := by
      intro c t ht hc
      refine h.gone c t ht fun i o ho => ?_
      have hne := hc i _ (Option.mem_map_of_mem _ ho)
      exact hne }

end Server

end ChatMultithread
