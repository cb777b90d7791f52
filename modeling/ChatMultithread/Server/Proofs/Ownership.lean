import ChatMultithread.Lib.HandleTable
import ChatMultithread.Server.Proofs.Steps

/-!
# Who owns a slot and a descriptor

The server's transition system is simulated by the life of the clients of a table of reusable
handles: an accepted connection is a client, its descriptor the handle, and its thread or the
accept loop knows in which stage of its life it is. The invariant of the abstract table then
gives the ownership of slots and descriptors in every reachable state of the server.
-/

namespace ChatMultithread

open Lib Lib.HandleTable

namespace Server

/-- The abstract state of the server's table and descriptors. -/
abbrev Lives := HandleTable.State Slot Int Conn

/-- The descriptor of a live session. -/
def key (session : ClientSession) : Option Int :=
  if session.isActive then some session.sockfd else none

/-- The calls of `close` recorded for a connection. -/
def closesOf (c : Conn) (log : List Event) : List (Option Conn) :=
  log.filterMap fun
    | .closed d owner => if d = c then some owner else none
    | _ => none

/-- The stage in which a thread at `pc` holds its connection. -/
def ThreadStage (t : Thread) (stage : Stage Slot Int) : Prop :=
  match t.pc with
  | .start => ∃ fd, stage = .placed fd t.slot
  | .welcome | .loop | .receiving | .handling _ | .removing => stage = .placed t.sockfd t.slot
  | .closing old => stage = .cleared old
  | .done => stage = .closed

/-- The connection the accept loop is working on, with the stage in which it holds it. The branch
    for a session that is not found holds none: it is not reached. -/
def acceptStage : AcceptPc → Option (Conn × Stage Slot Int)
  | .adding fd c _ | .rejecting fd c => some (c, .opened fd)
  | .finding fd c i | .creating fd c i | .createFailed fd c i => some (c, .placed fd i)
  | .closing fd c => some (c, .cleared fd)
  | .top | .accepting | .storing _ _ | .done | .slotMissing _ _ => none

/-- The calls of `close` for a connection in a stage. -/
def closesIn (c : Conn) : Stage Slot Int → List (Option Conn)
  | .closed => [some c]
  | .fresh | .opened _ | .placed _ _ | .cleared _ => []

/-- The abstract state describes the server's. -/
structure Tracks (s : Server) (a : Lives) : Prop where
  slots : ∀ i, a.slots i = key (s.sessions i)
  owner : a.owner = s.fds
  nonneg : ∀ fd c, s.fds fd = some c → 0 ≤ fd
  fresh : ∀ c, s.nextConn ≤ c → a.stage c = .fresh
  thread : ∀ c t, s.threads c = some t → ThreadStage t (a.stage c)
  accept : ∀ c stage, acceptStage s.accept = some (c, stage) →
    a.stage c = stage ∧ s.threads c = none
  adding : ∀ fd c session, s.accept = .adding fd c session → session.sockfd = fd
  reached : ∀ fd c, s.accept ≠ .slotMissing fd c
  closes : ∀ c, closesOf c s.log = closesIn c (a.stage c)
  inv : HandleTable.Inv a

variable {x : Externs}

/-! ## Lookups by descriptor -/

theorem key_eq_some {session : ClientSession} {fd : Int} :
    key session = some fd ↔ session.isActive = true ∧ session.sockfd = fd := by
  unfold key
  split <;> simp_all

theorem key_removedSession (session : ClientSession) : key (removedSession session) = none := rfl

namespace Tracks

variable {s s' : Server} {a : Lives}

/-- The slot of a placed connection is the only one with its descriptor. -/
theorem onlyAt (h : Tracks s a) {c : Conn} {fd : Int} {i : Slot}
    (hc : a.stage c = .placed fd i) : OnlyAt s.sessions fd i := by
  intro j
  rw [← key_eq_some, ← h.slots]
  constructor
  · exact fun hj => h.inv.slot_unique hj (h.inv.slots_of_placed hc)
  · rintro rfl
    exact h.inv.slots_of_placed hc

theorem find_placed (h : Tracks s a) {c : Conn} {fd : Int} {i : Slot}
    (hc : a.stage c = .placed fd i) : sessionsFindBySockfd s.sessions fd = some i := by
  have honly := h.onlyAt hc
  apply firstSlot_unique
  · simpa using (honly i).2 rfl
  · intro j hj
    exact (honly j).1 (by simpa using hj)

theorem sockfd_placed (h : Tracks s a) {c : Conn} {fd : Int} {i : Slot}
    (hc : a.stage c = .placed fd i) :
    (s.sessions i).isActive = true ∧ (s.sessions i).sockfd = fd :=
  (h.onlyAt hc i).2 rfl

theorem fds_placed (h : Tracks s a) {c : Conn} {fd : Int} {i : Slot}
    (hc : a.stage c = .placed fd i) : s.fds fd = some c := by
  rw [← h.owner]
  exact h.inv.owner_of_placed hc

end Tracks

theorem setThread_threads_cases {s : Server} {c d : Conn} {t t' : Thread}
    (h : (s.setThread c t).threads d = some t') :
    d = c ∧ t' = t ∨ d ≠ c ∧ s.threads d = some t' := by
  by_cases hd : d = c
  · subst hd
    rw [setThread_threads_self] at h
    exact .inl ⟨rfl, (Option.some.inj h).symm⟩
  · rw [setThread_threads_ne _ _ _ hd] at h
    exact .inr ⟨hd, h⟩

theorem setThread_threads_none {s : Server} {c d : Conn} {t t' : Thread}
    (ht : s.threads c = some t) (hd : s.threads d = none) :
    (s.setThread c t').threads d = none := by
  have hdc : d ≠ c := by
    rintro rfl
    rw [ht] at hd
    cases hd
  rw [setThread_threads_ne _ _ _ hdc, hd]

/-! ## Steps that leave the abstract state alone -/

namespace Tracks

variable {s s' : Server} {a : Lives}

/-- A step that touches no key, no descriptor and no close, and leaves each thread in its
    stage. -/
theorem stutter (h : Tracks s a) (hkey : ∀ i, key (s'.sessions i) = key (s.sessions i))
    (hfds : s'.fds = s.fds) (hnext : s'.nextConn = s.nextConn)
    (hthread : ∀ c t, s'.threads c = some t → ThreadStage t (a.stage c))
    (hnone : ∀ c, s.threads c = none → s'.threads c = none) (haccept : s'.accept = s.accept)
    (hclose : ∀ c, closesOf c s'.log = closesOf c s.log) : Tracks s' a where
  slots i := (h.slots i).trans (hkey i).symm
  owner := h.owner.trans hfds.symm
  nonneg := hfds ▸ h.nonneg
  fresh := hnext ▸ h.fresh
  thread := hthread
  accept c stage hc := by
    obtain ⟨hstage, hthr⟩ := h.accept c stage (haccept ▸ hc)
    exact ⟨hstage, hnone c hthr⟩
  adding := haccept ▸ h.adding
  reached := haccept ▸ h.reached
  closes c := (hclose c).trans (h.closes c)
  inv := h.inv

/-- A thread moves within its stage, and the table keeps its keys. -/
theorem move (h : Tracks s a) {c : Conn} {t t' : Thread} (ht : s.threads c = some t)
    (hkey : ∀ i, key (s'.sessions i) = key (s.sessions i)) (hfds : s'.fds = s.fds)
    (hnext : s'.nextConn = s.nextConn) (hthreads : s'.threads = s.threads)
    (haccept : s'.accept = s.accept) (hclose : ∀ c, closesOf c s'.log = closesOf c s.log)
    (hstage : ThreadStage t (a.stage c) → ThreadStage t' (a.stage c)) :
    Tracks (s'.setThread c t') a := by
  refine h.stutter hkey hfds hnext (fun d u hd => ?_) (fun d hd => ?_) haccept hclose
  · rcases setThread_threads_cases hd with ⟨rfl, rfl⟩ | ⟨-, hd⟩
    · exact hstage (h.thread d t ht)
    · exact h.thread d u (hthreads ▸ hd)
  · exact setThread_threads_none (hthreads ▸ ht) (hthreads ▸ hd)

/-- The accept loop moves on, holding the same connection in the same stage or none. -/
theorem moveAccept (h : Tracks s a) {pc : AcceptPc} {sessions : Sessions}
    (hkey : ∀ i, key (sessions i) = key (s.sessions i))
    (hpc : acceptStage pc = none ∨ acceptStage pc = acceptStage s.accept)
    (hadding : ∀ fd c session, pc ≠ .adding fd c session)
    (hreached : ∀ fd c, pc ≠ .slotMissing fd c) :
    Tracks { s with sessions := sessions, accept := pc } a where
  slots i := (h.slots i).trans (hkey i).symm
  owner := h.owner
  nonneg := h.nonneg
  fresh := h.fresh
  thread := h.thread
  accept c stage hc := by
    rcases hpc with hpc | hpc
    · rw [hpc] at hc; cases hc
    · exact h.accept c stage (hpc ▸ hc)
  adding fd c session hc := absurd hc (hadding fd c session)
  reached := hreached
  closes := h.closes
  inv := h.inv

end Tracks

/-! ## What the operations of a thread leave alone -/

theorem key_touched (session : ClientSession) (now : Int) :
    key (touched session now) = key session := by
  unfold touched
  split <;> simp_all [key]

@[simp] theorem closesOf_closed (c d : Conn) (owner : Option Conn) (log : List Event) :
    closesOf c (.closed d owner :: log) =
      if d = c then owner :: closesOf c log else closesOf c log := by
  by_cases h : d = c <;> simp [closesOf, h]

@[simp] theorem closesOf_received (c d : Conn) (line : Bytes) (log : List Event) :
    closesOf c (.received d line :: log) = closesOf c log := rfl

@[simp] theorem closesOf_named (c d : Conn) (user : Bytes) (log : List Event) :
    closesOf c (.named d user :: log) = closesOf c log := rfl

@[simp] theorem closesOf_delivered (c : Conn) (src : Source) (aim : Option Conn) (dst : Conn)
    (buf : Bytes) (log : List Event) :
    closesOf c (.delivered src aim dst buf :: log) = closesOf c log := rfl

theorem closesOf_deliver (s : Server) (src : Source) (aim : Option Conn) (fd : Int) (buf : Bytes)
    (c : Conn) : closesOf c (s.deliver src aim fd buf).log = closesOf c s.log := by
  rw [deliver_log]
  split <;> simp

theorem closesOf_deliverAll (s : Server) (src : Source) (sends : List (Int × Bytes)) (c : Conn) :
    closesOf c (s.deliverAll src sends).log = closesOf c s.log := by
  induction sends generalizing s with
  | nil => rfl
  | cons p sends ih =>
    have hstep : s.deliverAll src (p :: sends) =
        (s.deliver src (s.fds p.1) p.1 p.2).deliverAll src sends := rfl
    rw [hstep, ih, closesOf_deliver]

/-- The operations keep the keys of the table and close nothing. -/
theorem perform_keys (hx : x.KeepsSlots) {s s' : Server} {c : Conn} {t : Thread} {now : Int}
    {sent : Bool} {o : Op} {r : o.Resp} {target : Option (Int × Option Conn)}
    (h : s.perform x c t now sent o = some (r, s', target)) :
    (∀ i, key (s'.sessions i) = key (s.sessions i)) ∧
      ∀ c, closesOf c s'.log = closesOf c s.log := by
  cases o
  case undefinedBehaviour => cases h
  case touchActivity i =>
    cases h
    exact ⟨field_update key (key_touched _ _), fun _ => rfl⟩
  case addSession user fd =>
    cases h
    refine ⟨fun i => ?_, fun _ => rfl⟩
    simp only [key, hx.addSession_isActive, hx.addSession_sockfd]
  case setUserStatus user status =>
    cases h
    refine ⟨fun i => ?_, fun _ => rfl⟩
    simp only [key, hx.setUserStatus_isActive, hx.setUserStatus_sockfd]
  case broadcastAll msg =>
    cases h
    exact ⟨fun i => by rw [deliverAll_eq], closesOf_deliverAll _ _ _⟩
  case broadcastExcept msg fd =>
    cases h
    exact ⟨fun i => by rw [deliverAll_eq], closesOf_deliverAll _ _ _⟩
  case send fd buf =>
    cases h
    split
    · exact ⟨fun i => by rw [deliver_sessions], closesOf_deliver _ _ _ _ _⟩
    · exact ⟨fun _ => rfl, fun _ => rfl⟩
  all_goals
    cases h
    exact ⟨fun _ => rfl, fun _ => rfl⟩

/-- Marking a session writes its status. -/
theorem sessionMarkInactiveIfNeeded_eq {session session' : ClientSession} {now timeout : Int}
    (h : sessionMarkInactiveIfNeeded session now timeout = some session') :
    session.isActive = true ∧ session' = { session with status := .inactivo } := by
  unfold sessionMarkInactiveIfNeeded at h
  split at h
  · cases h
  · rename_i hactive
    split at h
    · cases h
    · split at h
      · cases h
      · cases h
        exact ⟨by simpa using hactive, rfl⟩

/-- The monitor's loop writes nothing but statuses. -/
theorem markLoop_frame {α : Type} (f : ClientSession → α)
    (hf : ∀ session : ClientSession, f { session with status := .inactivo } = f session)
    (fds : Int → Option Conn) (now timeout : Int) (is : List Slot) (t : Sessions)
    (pending : List Notification) (j : Slot) :
    f ((markLoop fds now timeout is t pending).1 j) = f (t j) := by
  induction is generalizing t pending with
  | nil => rfl
  | cons i is ih =>
    unfold markLoop
    split
    · exact ih _ _
    · rename_i session hmark
      rw [ih]
      by_cases hj : j = i
      · subst hj
        rw [Function.update_self]
        split at hmark
        · rw [(sessionMarkInactiveIfNeeded_eq hmark).2, hf]
        · cases hmark
      · rw [Function.update_of_ne hj]

/-- What holds of the notifications for the live sessions of a table holds of all that the
    monitor prepares. -/
theorem markLoop_pending {P : Notification → Prop} (fds : Int → Option Conn) (now timeout : Int)
    (is : List Slot) {t : Sessions} {pending : List Notification}
    (ht : ∀ i, (t i).isActive = true →
      P ⟨(t i).sockfd, fds (t i).sockfd, inactivityNotice (t i).username⟩)
    (hpending : ∀ n ∈ pending, P n) : ∀ n ∈ (markLoop fds now timeout is t pending).2, P n := by
  induction is generalizing t pending with
  | nil => exact hpending
  | cons i is ih =>
    unfold markLoop
    split
    · exact ih ht hpending
    · rename_i session hmark
      split at hmark
      · rename_i hactive
        obtain ⟨-, rfl⟩ := sessionMarkInactiveIfNeeded_eq hmark
        refine ih (fun j hj => ?_) fun n hn => ?_
        · by_cases hji : j = i
          · subst hji
            simpa using ht j hactive
          · rw [Function.update_of_ne hji] at hj ⊢
            exact ht j hj
        · rcases List.mem_append.1 hn with hn | hn
          · exact hpending n hn
          · obtain rfl := List.mem_singleton.1 hn
            exact ht i hactive
      · cases hmark

/-! ## Steps of a client's life -/

namespace Tracks

variable {s : Server} {a : Lives} {c : Conn} {slots : Slot → Option Int}
  {owner fds : Int → Option Conn} {stage : Stage Slot Int} {sessions : Sessions}
  {log : List Event}

/-- A thread takes its connection to the next stage. -/
theorem advance (h : Tracks s a) {t t' : Thread} (ht : s.threads c = some t)
    (hstep : HandleTable.Step a ⟨slots, owner, Function.update a.stage c stage⟩)
    (howner : owner = fds) (hslots : ∀ i, slots i = key (sessions i))
    (hnonneg : ∀ fd d, fds fd = some d → 0 ≤ fd) (hstage : ThreadStage t' stage)
    (hfresh : a.stage c ≠ .fresh)
    (hclose : ∀ d, closesOf d log = closesIn d (Function.update a.stage c stage d)) :
    Tracks ({ s with sessions := sessions, fds := fds, log := log }.setThread c t')
      ⟨slots, owner, Function.update a.stage c stage⟩ where
  slots := hslots
  owner := howner
  nonneg := hnonneg
  fresh d hd := by
    have hdc : d ≠ c := by
      rintro rfl
      exact hfresh (h.fresh d hd)
    exact (Function.update_of_ne hdc _ _).trans (h.fresh d hd)
  thread d u hd := by
    rcases setThread_threads_cases hd with ⟨rfl, rfl⟩ | ⟨hdc, hd⟩
    · simpa using hstage
    · change ThreadStage u (Function.update a.stage c stage d)
      rw [Function.update_of_ne hdc]
      exact h.thread d u hd
  accept d st hd := by
    obtain ⟨hst, hnone⟩ := h.accept d st hd
    have hdc : d ≠ c := by
      rintro rfl
      rw [ht] at hnone
      cases hnone
    refine ⟨(Function.update_of_ne hdc _ _).trans hst, ?_⟩
    rw [setThread_threads_ne _ _ _ hdc]
    exact hnone
  adding := h.adding
  reached := h.reached
  closes := hclose
  inv := inv_step hstep h.inv

/-- The accept loop takes the connection it works on to the next stage. -/
theorem advanceAccept (h : Tracks s a) {pc : AcceptPc} {nextConn : Conn}
    (hnone : s.threads c = none)
    (hstep : HandleTable.Step a ⟨slots, owner, Function.update a.stage c stage⟩)
    (howner : owner = fds) (hslots : ∀ i, slots i = key (sessions i))
    (hnonneg : ∀ fd d, fds fd = some d → 0 ≤ fd)
    (hfresh : ∀ d, nextConn ≤ d → s.nextConn ≤ d ∧ d ≠ c)
    (hpc : ∀ d st, acceptStage pc = some (d, st) → d = c ∧ st = stage)
    (hadding : ∀ fd d session, pc = .adding fd d session → session.sockfd = fd)
    (hreached : ∀ fd d, pc ≠ .slotMissing fd d)
    (hclose : ∀ d, closesOf d log = closesIn d (Function.update a.stage c stage d)) :
    Tracks { s with
        sessions := sessions, fds := fds, nextConn := nextConn, accept := pc, log := log }
      ⟨slots, owner, Function.update a.stage c stage⟩ where
  slots := hslots
  owner := howner
  nonneg := hnonneg
  fresh d hd := by
    obtain ⟨hle, hdc⟩ := hfresh d hd
    exact (Function.update_of_ne hdc _ _).trans (h.fresh d hle)
  thread d u hd := by
    have hdc : d ≠ c := by
      rintro rfl
      change s.threads d = some u at hd
      rw [hnone] at hd
      cases hd
    change ThreadStage u (Function.update a.stage c stage d)
    rw [Function.update_of_ne hdc]
    exact h.thread d u hd
  accept d st hd := by
    obtain ⟨rfl, rfl⟩ := hpc d st hd
    exact ⟨Function.update_self .., hnone⟩
  adding := hadding
  reached := hreached
  closes := hclose
  inv := inv_step hstep h.inv

/-- The closes after a step that closes nothing and leaves the connection open. -/
theorem closes_open (h : Tracks s a) (hc : closesIn c (a.stage c) = [])
    (hst : closesIn c stage = []) (d : Conn) :
    closesOf d s.log = closesIn d (Function.update a.stage c stage d) := by
  by_cases hdc : d = c
  · subst hdc
    rw [h.closes, hc, Function.update_self, hst]
  · rw [h.closes, Function.update_of_ne hdc]

/-- The closes after the close of a connection's own descriptor. -/
theorem closes_close (h : Tracks s a) {fd : Int} (hc : closesIn c (a.stage c) = [])
    (hfd : s.fds fd = some c) (d : Conn) :
    closesOf d (.closed c (s.fds fd) :: s.log) =
      closesIn d (Function.update a.stage c .closed d) := by
  by_cases hdc : d = c
  · subst hdc
    rw [closesOf_closed, if_pos rfl, h.closes, hc, Function.update_self, hfd]
    rfl
  · rw [closesOf_closed, if_neg (Ne.symm hdc), h.closes, Function.update_of_ne hdc]

theorem nonneg_close (h : Tracks s a) (fd : Int) (fd' : Int) (d : Conn)
    (hd : Function.update s.fds fd none fd' = some d) : 0 ≤ fd' := by
  by_cases hfd : fd' = fd
  · subst hfd
    simp at hd
  · rw [Function.update_of_ne hfd] at hd
    exact h.nonneg fd' d hd

/-- A connection that holds a descriptor has been accepted before the next one. -/
theorem next_ne (h : Tracks s a) {fd : Int} (hc : (a.stage c).handle = some fd) {d : Conn}
    (hd : s.nextConn ≤ d) : d ≠ c := by
  rintro rfl
  rw [h.fresh d hd] at hc
  cases hc

/-- The slot that `sessions_remove_by_sockfd` clears holds no key. -/
theorem slots_removed (h : Tracks s a) (i j : Slot) :
    Function.update a.slots i none j =
      key (Function.update s.sessions i (removedSession (s.sessions i)) j) := by
  by_cases hj : j = i
  · subst hj
    simp [key_removedSession]
  · simp [hj, h.slots]

/-- A thread that leaves its loop still holds its slot. -/
theorem placed_removing (h : Tracks s a) {t : Thread} (ht : s.threads c = some t)
    (hpc : t.pc = .removing) : a.stage c = .placed t.sockfd t.slot := by
  simpa [ThreadStage, hpc] using h.thread c t ht

theorem not_neg_placed (h : Tracks s a) {fd : Int} {i : Slot} (hst : a.stage c = .placed fd i) :
    ¬ (s.sessions i).sockfd < 0 := by
  rw [(h.sockfd_placed hst).2]
  exact Int.not_lt.2 (h.nonneg _ _ (h.fds_placed hst))

/-- The accept loop closes the descriptor of the connection it works on. -/
theorem closeAccept (h : Tracks s a) {fd : Int} {pc : AcceptPc} (hnone : s.threads c = none)
    (hhandle : (a.stage c).handle = some fd) (hopen : closesIn c (a.stage c) = [])
    (hstep : HandleTable.Step a ⟨a.slots, Function.update a.owner fd none,
      Function.update a.stage c .closed⟩)
    (hpc : acceptStage pc = none) (hadding : ∀ fd d session, pc ≠ .adding fd d session)
    (hreached : ∀ fd d, pc ≠ .slotMissing fd d) :
    Tracks { s.close c fd with accept := pc }
      ⟨a.slots, Function.update a.owner fd none, Function.update a.stage c .closed⟩ := by
  have hown : s.fds fd = some c := by rw [← h.owner, h.inv.owner_iff, hhandle]
  exact h.advanceAccept hnone hstep (by rw [h.owner, close_fds]) h.slots (h.nonneg_close fd)
    (fun d hd => ⟨hd, h.next_ne hhandle hd⟩) (by simp [hpc])
    (fun _ _ _ he => absurd he (hadding _ _ _)) hreached (h.closes_close hopen hown)

/-- The accept loop hands a placed connection over to its thread. -/
theorem spawn (h : Tracks s a) {fd : Int} {i : Slot} (hst : a.stage c = .placed fd i) :
    Tracks { s.setThread c { slot := i, sockfd := 0, pc := .start, target := none } with
      accept := .storing i c } a where
  slots := h.slots
  owner := h.owner
  nonneg := h.nonneg
  fresh := h.fresh
  thread d t ht := by
    rcases setThread_threads_cases ht with ⟨rfl, rfl⟩ | ⟨-, ht⟩
    · exact ⟨fd, hst⟩
    · exact h.thread d t ht
  accept d stage hd := by cases hd
  adding fd d session hd := by cases hd
  reached fd d hd := by cases hd
  closes := h.closes
  inv := h.inv

/-- A new connection is open and belongs to no thread yet. -/
theorem connect (h : Tracks s a) {fd : Int} (addr : InAddr) (now : Int) (hfd : 0 ≤ fd)
    (hfree : s.fds fd = none) :
    ∃ a', HandleTable.Step a a' ∧
      Tracks { s with
        fds := Function.update s.fds fd (some s.nextConn)
        nextConn := s.nextConn + 1
        accept := .adding fd s.nextConn (newSession fd addr now) } a' := by
  have hfresh := h.fresh s.nextConn (Nat.le_refl _)
  have hnone : s.threads s.nextConn = none := by
    cases ht : s.threads s.nextConn with
    | none => rfl
    | some t =>
      have := h.thread _ t ht
      rw [hfresh] at this
      cases hpc : t.pc <;> simp [ThreadStage, hpc] at this
  have hstep : HandleTable.Step a _ := .open_ hfresh (by rw [h.owner]; exact hfree)
  refine ⟨_, hstep, h.advanceAccept hnone hstep (by rw [h.owner]) h.slots ?_ ?_ ?_ ?_ ?_
    (h.closes_open (by rw [hfresh]; rfl) rfl)⟩
  · intro fd' d hd
    by_cases hfd' : fd' = fd
    · rw [hfd']; exact hfd
    · rw [Function.update_of_ne hfd'] at hd
      exact h.nonneg fd' d hd
  · intro d hd
    exact ⟨Nat.le_of_succ_le hd, Nat.ne_of_gt hd⟩
  · intro d st hd
    cases hd
    exact ⟨rfl, rfl⟩
  · intro fd' d session hd
    cases hd
    rfl
  · intro fd' d hd
    cases hd

/-- The session of the connection is put into a free slot. -/
theorem addSession (h : Tracks s a) {fd : Int} {session : ClientSession} {i : Slot}
    (hpc : s.accept = .adding fd c session) (hfree : (s.sessions i).isActive = false) :
    ∃ a', HandleTable.Step a a' ∧
      Tracks { s with
        sessions := Function.update s.sessions i { session with isActive := true }
        accept := .finding fd c i } a' := by
  obtain ⟨hst, hnone⟩ := h.accept c (.opened fd) (by rw [hpc]; rfl)
  have hslot : a.slots i = none := by simp [h.slots, key, hfree]
  have hstep : HandleTable.Step a _ := .place hst hslot
  refine ⟨_, hstep, h.advanceAccept hnone hstep h.owner (fun j => ?_) h.nonneg
    (fun d hd => ⟨hd, h.next_ne (by rw [hst]; rfl) hd⟩) ?_ (by simp) (by simp)
    (h.closes_open (by rw [hst]; rfl) rfl)⟩
  · by_cases hj : j = i
    · subst hj
      simp [key, h.adding fd c session hpc]
    · simp [hj, h.slots]
  · intro d st hd
    cases hd
    exact ⟨rfl, rfl⟩

/-- The slot is cleared again when no thread could be created. -/
theorem undo (h : Tracks s a) {fd : Int} {i j : Slot} (hpc : s.accept = .createFailed fd c j)
    (hfind : sessionsFindBySockfd s.sessions fd = some i) :
    ∃ a', HandleTable.Step a a' ∧
      Tracks { s with
        sessions := Function.update s.sessions i (removedSession (s.sessions i))
        accept := .closing (s.sessions i).sockfd c } a' := by
  obtain ⟨hst, hnone⟩ := h.accept c (.placed fd j) (by rw [hpc]; rfl)
  obtain rfl : j = i := Option.some.inj ((h.find_placed hst).symm.trans hfind)
  rw [(h.sockfd_placed hst).2]
  have hstep : HandleTable.Step a _ := .clear hst
  refine ⟨_, hstep, h.advanceAccept hnone hstep h.owner (h.slots_removed j) h.nonneg
    (fun d hd => ⟨hd, h.next_ne (by rw [hst]; rfl) hd⟩) ?_ (by simp) (by simp)
    (h.closes_open (by rw [hst]; rfl) rfl)⟩
  intro d st hd
  cases hd
  exact ⟨rfl, rfl⟩

end Tracks

/-- The server at the start is the empty table. -/
theorem tracks_init (timeout : Int) : Tracks (serverInit timeout) HandleTable.initial where
  slots _ := rfl
  owner := rfl
  nonneg fd c hc := by cases hc
  fresh _ _ := rfl
  thread c t ht := by cases ht
  accept c stage hc := by cases hc
  adding fd c session hc := by cases hc
  reached fd c hc := by cases hc
  closes _ := rfl
  inv := inv_initial

/-- A step of a client's thread is a step of that client's life or none. -/
theorem Tracks.clientStep (hx : x.KeepsSlots) {s s' : Server} {c : Conn} {choice : ClientChoice}
    {a : Lives} (h : Tracks s a) (hs : Step x s (.client c choice) s') :
    ∃ a', Relation.ReflTransGen HandleTable.Step a a' ∧ Tracks s' a' := by
  cases hs with
  | @start c t _ _ ht hpc =>
    refine ⟨a, .refl, h.move ht (fun _ => rfl) rfl rfl rfl rfl (fun _ => rfl) fun hst => ?_⟩
    obtain ⟨fd, hst⟩ : ∃ fd, a.stage c = .placed fd t.slot := by simpa [ThreadStage, hpc] using hst
    simp only [ThreadStage, hst, (h.sockfd_placed hst).2]
  | @welcome c t _ ht hpc =>
    refine ⟨a, .refl, h.move ht (fun _ => by simp) (by simp) (by simp) (by simp) (by simp)
      (closesOf_deliver _ _ _ _ _) fun hst => ?_⟩
    simpa [ThreadStage, hpc] using hst
  | @welcomeFailed c t _ ht hpc =>
    refine ⟨a, .refl, h.move ht (fun _ => rfl) rfl rfl rfl rfl (fun _ => rfl) fun hst => ?_⟩
    simpa [ThreadStage, hpc] using hst
  | @turn c t _ _ pc ht hpc hto =>
    refine ⟨a, .refl, h.move ht (fun _ => rfl) rfl rfl rfl rfl (fun _ => rfl) fun hst => ?_⟩
    rcases hto with ⟨-, rfl⟩ | ⟨-, rfl⟩ <;> simpa [ThreadStage, hpc] using hst
  | @line c t raw ht hpc =>
    refine ⟨a, .refl, h.move ht ?_ ?_ ?_ ?_ ?_ ?_ fun hst => ?_⟩
    pick_goal 7
    · simpa [ThreadStage, hpc] using hst
    all_goals intros; rfl
  | @hangup c t ht hpc =>
    refine ⟨a, .refl, h.move ht (fun _ => rfl) rfl rfl rfl rfl (fun _ => rfl) fun hst => ?_⟩
    simpa [ThreadStage, hpc] using hst
  | @perform c t _ _ o k r s₁ target ht hpc hop =>
    obtain ⟨hkey, hclose⟩ := perform_keys hx hop
    have hframe := perform_frame hop
    refine ⟨a, .refl, h.move ht hkey ?_ ?_ ?_ ?_ hclose fun hst => ?_⟩
    · rw [hframe]
    · rw [hframe]
    · rw [hframe]
    · rw [hframe]
    · simpa [ThreadStage, hpc] using hst
  | @continue_ c t _ _ ht hpc =>
    refine ⟨a, .refl, h.move ht (fun _ => rfl) rfl rfl rfl rfl (fun _ => rfl) fun hst => ?_⟩
    simpa [ThreadStage, hpc] using hst
  | @break_ c t _ _ ht hpc =>
    refine ⟨a, .refl, h.move ht (fun _ => rfl) rfl rfl rfl rfl (fun _ => rfl) fun hst => ?_⟩
    simpa [ThreadStage, hpc] using hst
  | @remove c t _ _ i ht hpc hfind hfd =>
    have hst := h.placed_removing ht hpc
    obtain rfl : t.slot = i := Option.some.inj ((h.find_placed hst).symm.trans hfind)
    rw [(h.sockfd_placed hst).2]
    exact ⟨_, .single (.clear hst), h.advance ht (.clear hst) h.owner (h.slots_removed t.slot)
      h.nonneg rfl (by simp [hst]) (h.closes_open (by rw [hst]; rfl) rfl)⟩
  | @removeInvalid c t _ _ i ht hpc hfind hfd =>
    have hst := h.placed_removing ht hpc
    obtain rfl : t.slot = i := Option.some.inj ((h.find_placed hst).symm.trans hfind)
    exact absurd hfd (h.not_neg_placed hst)
  | @removeMissing c t _ _ ht hpc hfind =>
    rw [h.find_placed (h.placed_removing ht hpc)] at hfind
    cases hfind
  | @close c t _ _ old ht hpc =>
    have hst : a.stage c = .cleared old := by simpa [ThreadStage, hpc] using h.thread c t ht
    have hown : s.fds old = some c := by
      rw [← h.owner, h.inv.owner_iff, hst]; rfl
    exact ⟨_, .single (.close hst), h.advance ht (.close hst) (by rw [h.owner]) h.slots
      (h.nonneg_close old) rfl (by simp [hst]) (h.closes_close (by rw [hst]; rfl) hown)⟩

/-- A step of the accept loop is a step of the life of the connection it works on or none. -/
theorem Tracks.acceptorStep {s s' : Server} {choice : AcceptChoice} {a : Lives} (h : Tracks s a)
    (hs : Step x s (.acceptor choice) s') :
    ∃ a', Relation.ReflTransGen HandleTable.Step a a' ∧ Tracks s' a' := by
  cases hs with
  | @acceptMove pc _ hfrom hto =>
    refine ⟨a, .refl, h.moveAccept (fun _ => rfl) (.inl ?_) ?_ ?_⟩ <;>
      rcases hto with rfl | rfl | rfl <;> simp [acceptStage]
  | @connection fd addr now hpc hfd hfree =>
    obtain ⟨a', hstep, htracks⟩ := h.connect addr now hfd hfree
    exact ⟨a', .single hstep, htracks⟩
  | @addFull fd c session hpc =>
    refine ⟨a, .refl, h.moveAccept (fun _ => rfl) (.inr ?_) (by simp) (by simp)⟩
    rw [hpc]
    rfl
  | @add fd c session i hpc hfree =>
    obtain ⟨a', hstep, htracks⟩ := h.addSession hpc hfree
    exact ⟨a', .single hstep, htracks⟩
  | @reject fd c hpc =>
    obtain ⟨hst, hnone⟩ := h.accept c (.opened fd) (by rw [hpc]; rfl)
    exact ⟨_, .single (.reject hst),
      h.closeAccept hnone (by rw [hst]; rfl) (by rw [hst]; rfl) (.reject hst) rfl (by simp)
        (by simp)⟩
  | @findNone fd c filled hpc hfind =>
    obtain ⟨hst, -⟩ := h.accept c (.placed fd filled) (by rw [hpc]; rfl)
    rw [h.find_placed hst] at hfind
    cases hfind
  | @find fd c filled i hpc hfind =>
    obtain ⟨hst, -⟩ := h.accept c (.placed fd filled) (by rw [hpc]; rfl)
    obtain rfl : filled = i := Option.some.inj ((h.find_placed hst).symm.trans hfind)
    refine ⟨a, .refl, h.moveAccept (fun _ => rfl) (.inr ?_) (by simp) (by simp)⟩
    rw [hpc]
    rfl
  | @create fd c i hpc =>
    obtain ⟨hst, hnone⟩ := h.accept c (.placed fd i) (by rw [hpc]; rfl)
    exact ⟨a, .refl, h.spawn hst⟩
  | @createFailed fd c i hpc =>
    refine ⟨a, .refl, h.moveAccept (fun _ => rfl) (.inr ?_) (by simp) (by simp)⟩
    rw [hpc]
    rfl
  | @undoMissing fd c hpc hfind =>
    obtain ⟨i, hpc⟩ := hpc.resolve_left (h.reached fd c)
    obtain ⟨hst, -⟩ := h.accept c (.placed fd i) (by rw [hpc]; rfl)
    rw [h.find_placed hst] at hfind
    cases hfind
  | @undo fd c i hpc hfind hfd =>
    obtain ⟨j, hpc⟩ := hpc.resolve_left (h.reached fd c)
    obtain ⟨a', hstep, htracks⟩ := h.undo hpc hfind
    exact ⟨a', .single hstep, htracks⟩
  | @undoInvalid fd c i hpc hfind hfd =>
    obtain ⟨j, hpc⟩ := hpc.resolve_left (h.reached fd c)
    obtain ⟨hst, -⟩ := h.accept c (.placed fd j) (by rw [hpc]; rfl)
    obtain rfl : j = i := Option.some.inj ((h.find_placed hst).symm.trans hfind)
    exact absurd hfd (h.not_neg_placed hst)
  | @undoClose fd c hpc =>
    obtain ⟨hst, hnone⟩ := h.accept c (.cleared fd) (by rw [hpc]; rfl)
    exact ⟨_, .single (.close hst),
      h.closeAccept hnone (by rw [hst]; rfl) (by rw [hst]; rfl) (.close hst) rfl (by simp)
        (by simp)⟩
  | @store i threadId hpc =>
    have hkey : key { s.sessions i with threadId := threadId } = key (s.sessions i) := rfl
    exact ⟨a, .refl, h.moveAccept (field_update key hkey) (.inl rfl) (by simp) (by simp)⟩

/-- The monitor leaves every client where it is. -/
theorem Tracks.monitorStep {s s' : Server} {now : Int} {sent : Bool} {a : Lives} (h : Tracks s a)
    (hs : Step x s (.monitor now sent) s') : Tracks s' a := by
  cases hs with
  | @tick now _ sessions pending hpc hrun hmark =>
    refine h.stutter (fun i => ?_) rfl rfl h.thread (fun _ => id) rfl fun _ => rfl
    have := markLoop_frame key (fun _ => rfl) s.fds now s.inactivityTimeoutSeconds
      (List.finRange maxClients) s.sessions [] i
    rwa [hmark] at this
  | monitorMove hmove =>
    exact h.stutter (fun _ => rfl) rfl rfl h.thread (fun _ => id) rfl fun _ => rfl
  | @notify now n rest hpc hfd =>
    refine h.stutter (fun _ => by simp) (by simp) (by simp) (by simpa using h.thread)
      (by simp) (by simp) ?_
    exact closesOf_deliver _ _ _ _ _

/-- Every step of the server is a step of a client's life or none. -/
theorem tracks_step (hx : x.KeepsSlots) {s s' : Server} {l : Label} {a : Lives} (h : Tracks s a)
    (hs : Step x s l s') :
    ∃ a', Relation.ReflTransGen HandleTable.Step a a' ∧ Tracks s' a' := by
  cases l with
  | client c choice => exact h.clientStep hx hs
  | acceptor choice => exact h.acceptorStep hs
  | monitor now sent => exact ⟨a, .refl, h.monitorStep hs⟩
  | signal =>
    cases hs
    exact ⟨a, .refl, h.stutter (fun _ => rfl) rfl rfl h.thread (fun _ => id) rfl fun _ => rfl⟩

/-- The simulation. -/
theorem tracks_simulation (hx : x.KeepsSlots) (timeout : Int) :
    Simulation (serverSystem x timeout) HandleTable.initial HandleTable.Step Tracks where
  init := tracks_init timeout
  step _ _ _ _ h hs := tracks_step hx h (step_cases hs)

/-- Every reachable state of the server is described by an abstract state. -/
theorem tracks_reach (hx : x.KeepsSlots) {timeout : Int} {s : Server}
    (hs : (serverSystem x timeout).Reach s) : ∃ a, Tracks s a := by
  refine hs.invariant (P := fun s => ∃ a, Tracks s a) ⟨_, tracks_init timeout⟩ ?_
  rintro s l s' - ⟨a, h⟩ hstep
  obtain ⟨a', -, h'⟩ := (tracks_simulation hx timeout).step s l s' a h hstep
  exact ⟨a', h'⟩

end Server

end ChatMultithread
