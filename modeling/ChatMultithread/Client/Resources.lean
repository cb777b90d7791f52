import ChatMultithread.Client.Process
import ChatMultithread.Lib.Lifetime

/-!
# What the client process holds

`main` initialises the mutex, opens the socket and creates the thread, and gives back on every path
what it has got. `Holdings` follows its code from call to call; the other thread uses the mutex and
the socket only while `main` keeps both.
-/

namespace ChatMultithread

open Lib

/-- What an entry of the log does with `print_mutex`. -/
def Act.mutexUse : Act → Option Use
  | .mutexInit => some .acquire
  | .printed | .showed _ => some .use
  | .mutexDestroy => some .release
  | _ => none

/-- What an entry of the log does with the socket. -/
def Act.socketUse : Act → Option Use
  | .opened => some .acquire
  | .touched | .sent _ _ => some .use
  | .closed => some .release
  | _ => none

/-- Where the receiver thread is for `main`. -/
inductive ReceiverThread where
  | notCreated
  | running
  | joined
  deriving DecidableEq, Repr

/-- What `main` holds, and whether it has registered. -/
structure Holdings where
  mutex : Life
  socket : Life
  thread : ReceiverThread
  registered : Bool
  deriving DecidableEq, Repr

namespace Holdings

/-- What `main` can do with what it holds: it gives nothing back while the thread runs, and does
    not read beside it. -/
def Allows (g : Holdings) : MainOp → Prop
  | .mutexInit => g.mutex = .unborn
  | .mutexDestroy => g.mutex = .alive ∧ g.thread ≠ .running
  | .socket => g.socket = .unborn
  | .connect _ | .send _ | .sockfd => g.socket = .alive
  | .recvLine => g.socket = .alive ∧ g.thread = .notCreated
  | .create => g.mutex = .alive ∧ g.socket = .alive ∧ g.thread = .notCreated
  | .join => g.thread = .running
  | .close => g.socket = .alive ∧ g.thread ≠ .running
  | .forget => g.socket ≠ .alive
  | .inetPton _ | .store _ | .welcome => True

/-- What it holds behind an operation. -/
def next (g : Holdings) : (o : MainOp) → o.Resp → Holdings
  | .mutexInit, r => if r then { g with mutex := .alive } else g
  | .mutexDestroy, _ => { g with mutex := .dead }
  | .socket, r => if r < 0 then g else { g with socket := .alive }
  | .store _, _ => { g with registered := true }
  | .create, r => if r then { g with thread := .running } else g
  | .join, _ => { g with thread := .joined }
  | .close, _ => { g with socket := .dead }
  | .inetPton _, _ | .connect _, _ | .recvLine, _ | .send _, _ | .welcome, _ | .sockfd, _
  | .forget, _ => g

/-- The descriptor of an open socket is read back as one. -/
def Answers (g : Holdings) : (o : MainOp) → o.Resp → Prop
  | .sockfd, r => g.socket = .alive → 0 ≤ r
  | _, _ => True

/-- The holdings as a monitor of `main`. -/
def monitor : Monitor MainOp MainOp.Resp Holdings where
  allows := Allows
  answers := Answers
  next := next

/-- Nothing is held any more, or has ever been. -/
def Empty (g : Holdings) : Prop := g.mutex ≠ .alive ∧ g.socket ≠ .alive ∧ g.thread ≠ .running

/-- What `main` holds with a connection. -/
def connected : Holdings := ⟨.alive, .alive, .notCreated, false⟩

/-- What `main` holds when it goes on to `input_loop`, or does not come so far. -/
def Starts (g : Holdings) : Started → Prop
  | .failure => g.Empty ∧ g.registered = false
  | .loop => g = ⟨.alive, .alive, .running, true⟩
  | .noThread => g = ⟨.alive, .alive, .notCreated, true⟩

/-- What `main` holds at its end. -/
def Ends (g : Holdings) (_ : Unit) : Prop := g.Empty ∧ g.registered = true

/-- `client_connect` closes the socket that it does not leave connected. -/
theorem safe_clientConnect (serverIp : Bytes) (serverPort : Int) :
    monitor.Safe (fun g r => if r = .ok then g = connected else
      g.mutex = .alive ∧ g.socket ≠ .alive ∧ g.thread = .notCreated ∧ g.registered = false)
      ⟨.alive, .unborn, .notCreated, false⟩ (clientConnect serverIp serverPort) := by
  have hgiveUp : monitor.Safe (fun g r => if r = .ok then g = connected else
      g.mutex = .alive ∧ g.socket ≠ .alive ∧ g.thread = .notCreated ∧ g.registered = false)
      connected giveUp := by
    refine ⟨⟨rfl, by decide⟩, fun _ _ => ⟨?_, fun _ _ => ?_⟩⟩
    · show Life.dead ≠ Life.alive
      decide
    · refine ⟨rfl, ?_, rfl, rfl⟩
      show Life.dead ≠ Life.alive
      decide
  refine ⟨rfl, fun sockfd _ => ?_⟩
  show monitor.Safe _ (next _ .socket sockfd) (if sockfd < 0 then _ else _)
  by_cases hfd : sockfd < 0
  · rw [if_pos hfd, next, if_pos hfd]
    exact ⟨rfl, by decide, rfl, rfl⟩
  · rw [if_neg hfd, next, if_neg hfd]
    refine ⟨trivial, fun known _ => ?_⟩
    cases known with
    | false => exact hgiveUp
    | true =>
      refine ⟨rfl, fun connected _ => ?_⟩
      cases connected with
      | false => exact hgiveUp
      | true => rfl

/-- `client_register` gives nothing back. -/
theorem safe_clientRegistration (state : ClientState) (username : Bytes) :
    monitor.Safe (fun g _ => g = connected) connected (clientRegistration state username) := by
  refine ⟨⟨rfl, rfl⟩, fun n _ => ?_⟩
  cases n with
  | closed | failed => rfl
  | line buffer =>
    show monitor.Safe _ connected (if _ then _ else _)
    split
    · rfl
    · refine ⟨rfl, fun sent _ => ?_⟩
      cases sent with
      | false => rfl
      | true =>
        refine ⟨⟨rfl, rfl⟩, fun n _ => ?_⟩
        cases n with
        | closed | failed | line buffer => rfl

theorem safe_clientRun :
    monitor.Safe Starts ⟨.alive, .alive, .notCreated, true⟩ clientRun := by
  refine ⟨⟨rfl, rfl, rfl⟩, fun created _ => ?_⟩
  cases created with
  | false => rfl
  | true => exact ⟨trivial, fun _ _ => rfl⟩

theorem safe_mainRegister (username : Bytes) :
    monitor.Safe Starts connected (mainRegister username) := by
  unfold mainRegister
  rw [Monitor.safe_bind]
  apply (safe_clientRegistration clientInit username).mono
  rintro g result rfl
  cases result with
  | error e =>
    refine ⟨⟨rfl, by decide⟩, fun _ _ => ⟨⟨rfl, ?_⟩, fun _ _ => ⟨?_, rfl⟩⟩⟩
    · simp [monitor, next, connected]
    · simp [monitor, next, connected, Empty]
  | ok state => exact ⟨trivial, fun _ _ => safe_clientRun⟩

theorem safe_mainConnect (username serverIp : Bytes) (port : Int) :
    monitor.Safe Starts ⟨.unborn, .unborn, .notCreated, false⟩
      (mainConnect username serverIp port) := by
  refine ⟨rfl, fun init _ => ?_⟩
  cases init with
  | false => exact ⟨⟨by decide, by decide, by decide⟩, rfl⟩
  | true =>
    show monitor.Safe Starts ⟨.alive, .unborn, .notCreated, false⟩
      (clientConnect serverIp port >>= _)
    rw [Monitor.safe_bind]
    apply (safe_clientConnect serverIp port).mono
    intro g result hresult
    by_cases hok : result = .ok
    · rw [if_pos hok] at hresult
      rw [hresult, if_neg (not_not.2 hok)]
      exact safe_mainRegister username
    · rw [if_neg hok] at hresult
      obtain ⟨hmutex, hsocket, hthread, hregistered⟩ := hresult
      rw [if_pos hok]
      refine ⟨⟨hmutex, by simp [hthread]⟩, fun _ _ => ?_⟩
      exact ⟨⟨by simp [monitor, next], hsocket, by simp [monitor, next, hthread]⟩, hregistered⟩

/-- `main` up to `input_loop`. -/
theorem safe_clientMain (argv : List Bytes) :
    monitor.Safe Starts ⟨.unborn, .unborn, .notCreated, false⟩ (clientMain argv) := by
  have hfailure : Starts ⟨.unborn, .unborn, .notCreated, false⟩ .failure :=
    ⟨⟨by decide, by decide, by decide⟩, rfl⟩
  unfold clientMain
  split
  · split
    · exact hfailure
    · split
      · exact hfailure
      · exact safe_mainConnect _ _ _
  · exact hfailure

/-- `client_disconnect` gives back all there is: the test of the descriptor never fails. -/
theorem safe_clientDisconnect {thread : ReceiverThread} (hthread : thread ≠ .running) :
    monitor.Safe Ends ⟨.alive, .alive, thread, true⟩ clientDisconnect := by
  refine ⟨rfl, fun sockfd hfd => ?_⟩
  show monitor.Safe Ends _ (if sockfd < 0 then _ else _)
  rw [if_neg (Int.not_lt.2 (hfd rfl))]
  refine ⟨rfl, fun _ _ => ⟨⟨rfl, hthread⟩, fun _ _ => ⟨?_, fun _ _ => ⟨⟨rfl, hthread⟩, ?_⟩⟩⟩⟩
  · show Life.dead ≠ Life.alive
    decide
  · exact fun _ _ => ⟨⟨by simp [monitor, next], by simp [monitor, next], hthread⟩, rfl⟩

/-- `main` behind `input_loop`. -/
theorem safe_clientLeave : monitor.Safe Ends ⟨.alive, .alive, .running, true⟩ clientLeave :=
  ⟨rfl, fun _ _ => safe_clientDisconnect (Ne.symm ReceiverThread.noConfusion)⟩

end Holdings

namespace Client

variable {argv : List Bytes} {stdin : Bytes} {eof : Bool} {network : List Recv} {closes : Bool}
  {s s' : Client} {g : Holdings}

/-- What `main` still has to do is in order with what it holds. -/
def OnCourse (g : Holdings) : ClientPc → Prop
  | .starting code => Holdings.monitor.Safe Holdings.Starts g code
  | .looping => g = ⟨.alive, .alive, .running, true⟩
  | .leaving code => Holdings.monitor.Safe Holdings.Ends g code
  | .exited success => g.Empty ∧ g.registered = success

/-- The process holds what `main` thinks it does. -/
structure Holds (g : Holdings) (s : Client) : Prop where
  mutex : Lived g.mutex (usesIn Act.mutexUse s.log)
  socket : Lived g.socket (usesIn Act.socketUse s.log)
  notCreated : g.thread = .notCreated → s.receiver = .notCreated
  running : g.thread = .running → s.receiver ≠ .notCreated ∧ g.mutex = .alive ∧ g.socket = .alive
  joined : g.thread = .joined → s.receiver = .done
  sockfd : g.socket = .alive → 0 ≤ s.sockfd
  registered : g.registered = true ↔ ∃ state, .registered state ∈ s.log

theorem holds_init :
    Holds ⟨.unborn, .unborn, .notCreated, false⟩ (clientSystem argv stdin eof network closes).init where
  mutex := lived_nil
  socket := lived_nil
  notCreated _ := rfl
  running h := nomatch h
  joined h := nomatch h
  sockfd h := nomatch h
  registered := by simp [clientSystem]

/-- Nothing but the log, the thread, the descriptor is looked at. -/
theorem Holds.congr {t : Client} (h : Holds g s) (hlog : t.log = s.log)
    (hreceiver : t.receiver = s.receiver) (hsockfd : t.sockfd = s.sockfd) : Holds g t := by
  obtain ⟨hmutex, hsocket, hnotCreated, hrunning, hjoined, hfd, hregistered⟩ := h
  rw [← hlog] at hmutex hsocket hregistered
  rw [← hreceiver] at hnotCreated hrunning hjoined
  rw [← hsockfd] at hfd
  exact ⟨hmutex, hsocket, hnotCreated, hrunning, hjoined, hfd, hregistered⟩

/-- An entry of the log that gives nothing back and gets nothing. -/
theorem Holds.record {a : Act} (h : Holds g s)
    (hmutex : ∀ u, a.mutexUse = some u → g.mutex.Step u g.mutex)
    (hsocket : ∀ u, a.socketUse = some u → g.socket.Step u g.socket)
    (hregistered : ∀ state, a ≠ .registered state) : Holds g (s.record a) where
  mutex := h.mutex.entry hmutex fun _ => rfl
  socket := h.socket.entry hsocket fun _ => rfl
  notCreated := h.notCreated
  running := h.running
  joined := h.joined
  sockfd := h.sockfd
  registered := by
    rw [h.registered]
    simp [Client.record, fun state => Ne.symm (hregistered state)]

/-- A call on the socket. -/
theorem Holds.touch {a : Act} (h : Holds g s) (halive : g.socket = .alive)
    (hmutex : a.mutexUse = none) (hsocket : a.socketUse = some .use) : Holds g (s.record a) := by
  apply h.record
  · intro u hu
    rw [hmutex] at hu
    cases hu
  · intro u hu
    rw [hsocket] at hu
    cases hu
    exact Life.step_use halive
  · rintro state rfl
    cases hsocket

/-- A critical section. -/
theorem Holds.section {a : Act} (h : Holds g s) (halive : g.mutex = .alive)
    (hmutex : a.mutexUse = some .use) (hsocket : a.socketUse = none) : Holds g (s.record a) := by
  apply h.record
  · intro u hu
    rw [hmutex] at hu
    cases hu
    exact Life.step_use halive
  · intro u hu
    rw [hsocket] at hu
    cases hu
  · rintro state rfl
    cases hmutex

/-- `main` has got the mutex. -/
theorem Holds.mutexInit (h : Holds g s) (hunborn : g.mutex = .unborn) :
    Holds { g with mutex := .alive } (s.record .mutexInit) := by
  have hstep : g.mutex.Step .acquire .alive := by
    rw [hunborn]
    exact .acquire
  exact { h with
    mutex := h.mutex.entry (fun u hu => by cases hu; exact hstep) fun hu => by cases hu
    socket := h.socket.entry (fun u hu => by cases hu) fun _ => rfl
    running := fun hthread => ⟨(h.running hthread).1, rfl, (h.running hthread).2.2⟩
    registered := by simpa [Client.record] using h.registered }

/-- `main` gives the mutex back. -/
theorem Holds.mutexDestroy (h : Holds g s) (halive : g.mutex = .alive)
    (hthread : g.thread ≠ .running) :
    Holds { g with mutex := .dead } (s.record .mutexDestroy) := by
  have hstep : g.mutex.Step .release .dead := by
    rw [halive]
    exact .release
  exact { h with
    mutex := h.mutex.entry (fun u hu => by cases hu; exact hstep) fun hu => by cases hu
    socket := h.socket.entry (fun u hu => by cases hu) fun _ => rfl
    running := fun hrunning => absurd hrunning hthread
    registered := by simpa [Client.record] using h.registered }

/-- No thread runs that `main` has not given a socket. -/
theorem Holds.not_running (h : Holds g s) (hunborn : g.socket = .unborn) :
    g.thread ≠ .running := by
  intro hrunning
  have halive := (h.running hrunning).2.2
  rw [hunborn] at halive
  cases halive

/-- `main` has opened the socket. -/
theorem Holds.opened (h : Holds g s) (hunborn : g.socket = .unborn) (fd : Nat) :
    Holds { g with socket := .alive } ({ s with sockfd := fd }.record .opened) := by
  have hstep : g.socket.Step .acquire .alive := by
    rw [hunborn]
    exact .acquire
  exact { h with
    mutex := h.mutex.entry (fun u hu => by cases hu) fun _ => rfl
    socket := h.socket.entry (fun u hu => by cases hu; exact hstep) fun hu => by cases hu
    running := fun hrunning => absurd hrunning (h.not_running hunborn)
    sockfd := fun _ => Int.natCast_nonneg fd
    registered := by simpa [Client.record] using h.registered }

/-- `main` has not got a socket. -/
theorem Holds.notOpened (h : Holds g s) (hunborn : g.socket = .unborn) :
    Holds g { s with sockfd := -1 } :=
  { h with
    sockfd := fun halive => by
      rw [hunborn] at halive
      cases halive }

/-- `main` closes the socket. -/
theorem Holds.closed (h : Holds g s) (halive : g.socket = .alive) (hthread : g.thread ≠ .running) :
    Holds { g with socket := .dead } (s.record .closed) := by
  have hstep : g.socket.Step .release .dead := by
    rw [halive]
    exact .release
  exact { h with
    mutex := h.mutex.entry (fun u hu => by cases hu) fun _ => rfl
    socket := h.socket.entry (fun u hu => by cases hu; exact hstep) fun hu => by cases hu
    running := fun hrunning => absurd hrunning hthread
    sockfd := fun hdead => by cases hdead
    registered := by simpa [Client.record] using h.registered }

/-- `main` has registered. -/
theorem Holds.store (h : Holds g s) (state : ClientState) :
    Holds { g with registered := true } ({ s with state := state }.record (.registered state)) :=
  { h with
    mutex := h.mutex.entry (fun u hu => by cases hu) fun _ => rfl
    socket := h.socket.entry (fun u hu => by cases hu) fun _ => rfl
    registered := by simp [Client.record] }

/-- `main` has created the thread. -/
theorem Holds.create (h : Holds g s) (hmutex : g.mutex = .alive) (hsocket : g.socket = .alive) :
    Holds { g with thread := .running } { s with receiver := .looping receiverTurn } :=
  { h with
    notCreated := fun hthread => by cases hthread
    running := fun _ => ⟨ReceiverPc.noConfusion, hmutex, hsocket⟩
    joined := fun hthread => by cases hthread }

/-- `main` has joined the thread. -/
theorem Holds.join (h : Holds g s) (hdone : s.receiver = .done) :
    Holds { g with thread := .joined } s :=
  { h with
    notCreated := fun hthread => by cases hthread
    running := fun hthread => by cases hthread
    joined := fun _ => hdone }

/-- An operation of `main` does what the monitor takes it for. -/
theorem Holds.perform {ok : Bool} {fd : Nat} {o : MainOp} {r : o.Resp} (h : Holds g s)
    (hallowed : g.Allows o) (hp : s.perform ok fd o = some (r, s')) :
    g.Answers o r ∧ Holds (g.next o r) s' := by
  cases o with
  | mutexInit =>
    cases hp
    cases ok with
    | false => exact ⟨trivial, h⟩
    | true => exact ⟨trivial, h.mutexInit hallowed⟩
  | mutexDestroy =>
    cases hp
    exact ⟨trivial, h.mutexDestroy hallowed.1 hallowed.2⟩
  | socket =>
    refine ⟨trivial, ?_⟩
    cases ok with
    | false =>
      cases hp
      exact h.notOpened hallowed
    | true =>
      cases hp
      have hfd : ¬ (fd : Int) < 0 := Int.not_lt.2 (Int.natCast_nonneg fd)
      rw [Holdings.next, if_neg hfd]
      exact h.opened hallowed fd
  | inetPton | welcome =>
    cases hp
    exact ⟨trivial, h⟩
  | connect | send =>
    cases hp
    exact ⟨trivial, h.touch hallowed rfl rfl⟩
  | recvLine =>
    obtain ⟨r, rest, -, hp⟩ := receive_some hp
    cases hp
    exact ⟨trivial, (h.touch (a := .touched) hallowed.1 rfl rfl).congr rfl rfl rfl⟩
  | store state =>
    cases hp
    exact ⟨trivial, h.store state⟩
  | create =>
    cases hp
    cases ok with
    | false => exact ⟨trivial, h⟩
    | true => exact ⟨trivial, h.create hallowed.1 hallowed.2.1⟩
  | join =>
    rw [Client.perform] at hp
    split at hp
    · rename_i hdone
      cases hp
      exact ⟨trivial, h.join hdone⟩
    · cases hp
  | sockfd =>
    cases hp
    exact ⟨h.sockfd, h⟩
  | close =>
    cases hp
    exact ⟨trivial, h.closed hallowed.1 hallowed.2⟩
  | forget =>
    cases hp
    exact ⟨trivial, { h with sockfd := fun halive => absurd halive hallowed }⟩

/-- A thread that is there and has not ended runs. -/
theorem Holds.thread_eq (h : Holds g s) (hcreated : s.receiver ≠ .notCreated)
    (hdone : s.receiver ≠ .done) : g.thread = .running := by
  cases hthread : g.thread with
  | notCreated => exact absurd (h.notCreated hthread) hcreated
  | running => rfl
  | joined => exact absurd (h.joined hthread) hdone

/-- A running thread goes on. -/
theorem Holds.move {t : Client} (h : Holds g s) (hrunning : g.thread = .running)
    (hlog : t.log = s.log) (hsockfd : t.sockfd = s.sockfd) (hcreated : t.receiver ≠ .notCreated) :
    Holds g t := by
  obtain ⟨hmutex, hsocket, -, halive, -, hfd, hregistered⟩ := h
  rw [← hlog] at hmutex hsocket hregistered
  rw [← hsockfd] at hfd
  refine ⟨hmutex, hsocket, ?_, fun _ => ⟨hcreated, (halive hrunning).2⟩, ?_, hfd, hregistered⟩
  · intro hthread
    rw [hrunning] at hthread
    cases hthread
  · intro hthread
    rw [hrunning] at hthread
    cases hthread

/-- One step of the process. -/
theorem holds_step {l : ClientLabel} (hs : Step s l s') (h : Holds g s) (hcourse : OnCourse g s.pc) :
    ∃ g', Holds g' s' ∧ OnCourse g' s'.pc := by
  cases hs with
  | failure hpc =>
    rw [hpc] at hcourse
    exact ⟨g, h.congr rfl rfl rfl, hcourse⟩
  | loop hpc =>
    rw [hpc] at hcourse
    exact ⟨g, h.congr rfl rfl rfl, hcourse⟩
  | noThread hpc =>
    rw [hpc] at hcourse
    refine ⟨g, h.congr rfl rfl rfl, ?_⟩
    rw [show g = ⟨.alive, .alive, .notCreated, true⟩ from hcourse]
    exact Holdings.safe_clientDisconnect (by decide)
  | start hpc hp =>
    rw [hpc] at hcourse
    obtain ⟨hanswers, hnext⟩ := h.perform hcourse.1 hp
    exact ⟨_, hnext.congr rfl rfl rfl, hcourse.2 _ hanswers⟩
  | returned hpc hr =>
    rw [hpc] at hcourse
    refine ⟨g, ?_, ?_⟩
    · apply (h.congr (t := { s with pc := .leaving clientLeave }) rfl rfl rfl).record
      · exact fun u hu => by cases hu
      · exact fun u hu => by cases hu
      · exact fun state => Act.noConfusion
    · rw [show g = ⟨.alive, .alive, .running, true⟩ from hcourse]
      exact Holdings.safe_clientLeave
  | pass hpc hcode => exact ⟨g, h.congr rfl rfl rfl, hcourse⟩
  | @input ok fd o k hpc hcode =>
    refine ⟨g, ?_, hcourse⟩
    have halive : g = ⟨.alive, .alive, .running, true⟩ := by rwa [hpc] at hcourse
    cases o with
    | running | fgets => exact h.congr (List.append_nil _) rfl rfl
    | stop =>
      refine Holds.congr (h.record (a := .stopped) ?_ ?_ ?_) rfl rfl rfl
      · exact fun u hu => by cases hu
      · exact fun u hu => by cases hu
      · exact fun state => Act.noConfusion
    | print ps =>
      exact Holds.congr (h.section (a := .printed) (by rw [halive]) rfl rfl) rfl rfl rfl
    | send buf =>
      exact Holds.congr (h.touch (a := .sent buf ok) (by rw [halive]) rfl rfl) rfl rfl rfl
  | exit hpc =>
    rw [hpc] at hcourse
    exact ⟨g, h.congr rfl rfl rfl, hcourse⟩
  | leave hpc hp =>
    rw [hpc] at hcourse
    obtain ⟨hanswers, hnext⟩ := h.perform hcourse.1 hp
    exact ⟨_, hnext.congr rfl rfl rfl, hcourse.2 _ hanswers⟩
  | again hr =>
    have hrunning := h.thread_eq (by rw [hr]; exact ReceiverPc.noConfusion)
      (by rw [hr]; exact ReceiverPc.noConfusion)
    exact ⟨g, h.move hrunning rfl rfl ReceiverPc.noConfusion, hcourse⟩
  | ended hr =>
    have hrunning := h.thread_eq (by rw [hr]; exact ReceiverPc.noConfusion)
      (by rw [hr]; exact ReceiverPc.noConfusion)
    exact ⟨g, h.move hrunning rfl rfl ReceiverPc.noConfusion, hcourse⟩
  | @hear t o k r hr hp =>
    have hrunning := h.thread_eq (by rw [hr]; exact ReceiverPc.noConfusion)
      (by rw [hr]; exact ReceiverPc.noConfusion)
    obtain ⟨-, hmutex, hsocket⟩ := h.running hrunning
    refine ⟨g, ?_, ?_⟩
    · cases o with
      | running =>
        cases hp
        exact h.move hrunning rfl rfl ReceiverPc.noConfusion
      | recvLine =>
        obtain ⟨r, rest, -, hp⟩ := receive_some hp
        cases hp
        have htouched := h.touch (a := .touched) hsocket rfl rfl
        exact htouched.move hrunning rfl rfl ReceiverPc.noConfusion
      | shows e =>
        cases hp
        have hshowed := h.section (a := .showed e) hmutex rfl rfl
        exact hshowed.move hrunning rfl rfl ReceiverPc.noConfusion
    · rwa [← (hear_console hp).2.1] at hcourse
  | stop hr =>
    have hrunning := h.thread_eq (by rw [hr]; exact ReceiverPc.noConfusion)
      (by rw [hr]; exact ReceiverPc.noConfusion)
    exact ⟨g, h.move hrunning rfl rfl ReceiverPc.noConfusion, hcourse⟩

theorem holds_reach (h : (clientSystem argv stdin eof network closes).Reach s) :
    ∃ g, Holds g s ∧ OnCourse g s.pc := by
  apply System.Reach.invariant (P := fun s => ∃ g, Holds g s ∧ OnCourse g s.pc) _ _ h
  · exact ⟨_, holds_init, Holdings.safe_clientMain argv⟩
  · intro s l s' _ ⟨g, hg, hcourse⟩ hstep
    exact holds_step (step_cases hstep) hg hcourse

/-- The process is tidy. Whatever the order of the threads' steps and the answers of the operating
    system, the mutex and the socket are got once, used while they are there and given back once;
    and where `main` has returned, both are given back, or have never been there, the receiver
    thread has ended, or has never been created, and the exit status is that of a registration. -/
theorem client_tidy (h : (clientSystem argv stdin eof network closes).Reach s) :
    ∃ mutex socket, Lived mutex (usesIn Act.mutexUse s.log) ∧
      Lived socket (usesIn Act.socketUse s.log) ∧
      ∀ success, s.pc = .exited success → mutex ≠ .alive ∧ socket ≠ .alive ∧
        (s.receiver = .notCreated ∨ s.receiver = .done) ∧
        (success = true ↔ ∃ state, .registered state ∈ s.log) := by
  obtain ⟨g, hg, hcourse⟩ := holds_reach h
  refine ⟨g.mutex, g.socket, hg.mutex, hg.socket, ?_⟩
  intro success hpc
  rw [hpc] at hcourse
  obtain ⟨⟨hmutex, hsocket, hthread⟩, hregistered⟩ := hcourse
  refine ⟨hmutex, hsocket, ?_, ?_⟩
  · cases hwhere : g.thread with
    | notCreated => exact .inl (hg.notCreated hwhere)
    | running => exact absurd hwhere hthread
    | joined => exact .inr (hg.joined hwhere)
  · rw [← hregistered]
    exact hg.registered

/-- What `main` has returned. -/
def exitStatus (s : Client) : Option Bool :=
  match s.pc with
  | .exited success => some success
  | _ => none

theorem exitStatus_eq {success : Bool} (h : s.exitStatus = some success) :
    s.pc = .exited success := by
  unfold exitStatus at h
  split at h
  · rename_i hpc
    cases h
    exact hpc
  · cases h

/-- A user who changes her status and leaves. -/
def session : System Client ClientLabel :=
  clientSystem [ascii "ana", ascii "10.0.0.1", ascii "5000"] (ascii "/status ocupado\n/quit\n") false
    (bytesIn (ascii "WELCOME|CHAT/1.0\nREGISTER_OK|ana|10.0.0.7|ACTIVO\nSTATUS_OK|OCUPADO\nBYE\n"))
    true

/-- The session up to the return of `input_loop`. -/
def sessionQuit : List ClientLabel :=
  List.replicate 18 (.main true 3) ++ List.replicate 4 .receiver ++ List.replicate 6 (.main true 3)

/-- The rest of the session. -/
def sessionRest : List ClientLabel := List.replicate 3 .receiver ++ List.replicate 7 (.main true 3)

theorem client_tidy_session :
    ∃ s mutex socket, session.Reach s ∧ s.exitStatus = some true ∧
      Lived mutex (usesIn Act.mutexUse s.log) ∧ Lived socket (usesIn Act.socketUse s.log) := by
  obtain ⟨s, hs, hp⟩ := System.exists_reach_of_run (S := session) (sessionQuit ++ sessionRest)
    (fun s => decide (s.exitStatus = some true)) (by decide +kernel)
  obtain ⟨mutex, socket, hmutex, hsocket, -⟩ := client_tidy hs
  exact ⟨s, mutex, socket, hs, of_decide_eq_true hp, hmutex, hsocket⟩

end Client

end ChatMultithread
