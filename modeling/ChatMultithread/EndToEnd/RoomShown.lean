import ChatMultithread.EndToEnd.ChatRoom
import ChatMultithread.Server.Proofs.Log
import ChatMultithread.Server.Serving

/-!
# The server displays a room

The session table and the log display a room: a live session is an occupied seat, and what was
written to a connection is what its client has heard, line by line. Every operation of a client
thread displays an operation on the room, and a thread that handles a request alone displays how
the room serves it.
-/

namespace ChatMultithread

open Lib ChatRoom

namespace Server

/-- The session of a user. -/
structure SessionOf (o : User) (session : ClientSession) : Prop where
  active : session.isActive = true
  registered : session.isRegistered = o.name.isSome
  username : session.username = signature o
  addr : session.addr = o.info.addr
  status : session.status = o.info.status
  lastActivity : session.lastActivity = o.info.lastActivity

/-- The table and the log display the room. -/
structure Displays (s : Server) (r : ChatRoom) : Prop where
  free : ∀ i, r.seats i = none → (s.sessions i).isActive = false
  taken : ∀ i o, r.seats i = some o → SessionOf o (s.sessions i)
  owner : ∀ i o, r.seats i = some o → s.fds (s.sessions i).sockfd = some o.client
  nonneg : ∀ i o, r.seats i = some o → 0 ≤ (s.sessions i).sockfd
  heard : ∀ c, receivedBy c s.log = (r.heard c).map Message.encode

variable {x : Externs} {s s₁ s' : Server} {r r' : ChatRoom} {i j : Slot} {o p : User} {c : Conn}

/-! ## Reading the table -/

theorem find_eq_some {user : Bytes} :
    find r user = some o ↔ ∃ i u, r.seats i = some o ∧ o.name = some u ∧ u.1 = user := by
  unfold find
  constructor
  · intro h
    split at h
    · rename_i huser
      obtain ⟨i, hi, ho⟩ := Option.bind_eq_some_iff.1 h
      obtain ⟨o', ho', hname⟩ := Room.holder_eq_some.1 hi
      obtain rfl := Option.some.inj (ho.symm.trans ho')
      exact ⟨i, _, ho, hname, rfl⟩
    · cases h
  · rintro ⟨i, u, hi, hname, rfl⟩
    rw [dif_pos u.2]
    exact Option.bind_eq_some_iff.2 ⟨i, Room.holder_eq_some.2 ⟨o, hi, hname⟩, hi⟩

theorem find_eq_none {user : Bytes} :
    find r user = none ↔ ∀ i o u, r.seats i = some o → o.name = some u → u.1 ≠ user := by
  constructor
  · rintro h i o u hi hname rfl
    rw [find_eq_some.2 ⟨i, u, hi, hname, rfl⟩] at h
    cases h
  · intro h
    cases hfind : find r user with
    | none => rfl
    | some o =>
      obtain ⟨i, u, hi, hname, huser⟩ := find_eq_some.1 hfind
      exact absurd huser (h i o u hi hname)

theorem signature_some {u : Username} (h : o.name = some u) : signature o = u.1 := by
  rw [signature, h]
  rfl

theorem username_ne_nil (u : Username) : u.1 ≠ [] := (isValidUsername_iff.1 u.2).1

namespace Displays

theorem occupied (h : Displays s r) (hi : (s.sessions i).isActive = true) :
    ∃ o, r.seats i = some o := by
  cases hseat : r.seats i with
  | some o => exact ⟨o, rfl⟩
  | none =>
    rw [h.free i hseat] at hi
    cases hi

/-- Two users have different descriptors. -/
theorem sockfd_inj (h : Displays s r) (hi : r.seats i = some o) (hj : r.seats j = some p)
    (hij : (s.sessions i).sockfd = (s.sessions j).sockfd) : i = j := by
  apply r.client_inj i j o p hi hj
  have hown := h.owner i o hi
  rw [hij, h.owner j p hj] at hown
  exact (Option.some.inj hown).symm

theorem onlyAt (h : Displays s r) (hi : r.seats i = some o) :
    OnlyAt s.sessions (s.sessions i).sockfd i := by
  intro j
  constructor
  · rintro ⟨hj, hfd⟩
    obtain ⟨p, hp⟩ := h.occupied hj
    exact h.sockfd_inj hp hi hfd
  · rintro rfl
    exact ⟨(h.taken j o hi).active, rfl⟩

theorem registered_iff (h : Displays s r) :
    Registered s.sessions i ↔ ∃ o u, r.seats i = some o ∧ o.name = some u := by
  constructor
  · rintro ⟨hi, hreg⟩
    obtain ⟨o, ho⟩ := h.occupied hi
    rw [(h.taken i o ho).registered] at hreg
    obtain ⟨u, hu⟩ := Option.isSome_iff_exists.1 hreg
    exact ⟨o, u, ho, hu⟩
  · rintro ⟨o, u, ho, hu⟩
    have hsession := h.taken i o ho
    exact ⟨hsession.active, by rw [hsession.registered, hu]; rfl⟩

theorem named_iff (h : Displays s r) {user : Bytes} :
    Named s.sessions i user ↔ ∃ o u, r.seats i = some o ∧ o.name = some u ∧ u.1 = user := by
  constructor
  · rintro ⟨hreg, rfl⟩
    obtain ⟨o, u, ho, hu⟩ := h.registered_iff.1 hreg
    refine ⟨o, u, ho, hu, ?_⟩
    rw [(h.taken i o ho).username, signature_some hu]
  · rintro ⟨o, u, ho, hu, rfl⟩
    refine ⟨h.registered_iff.2 ⟨o, u, ho, hu⟩, ?_⟩
    rw [(h.taken i o ho).username, signature_some hu]

theorem named_unique (h : Displays s r) {user : Bytes} (hi : Named s.sessions i user)
    (hj : Named s.sessions j user) : j = i := by
  obtain ⟨o, u, ho, hu, rfl⟩ := h.named_iff.1 hi
  obtain ⟨p, v, hp, hv, huv⟩ := h.named_iff.1 hj
  rw [Subtype.ext huv] at hv
  exact r.name_inj j i p o u hp ho hv hu

/-- The list of the session manager has the names of the room. -/
theorem usernames_eq (h : Displays s r) : usernames s.sessions = r.names.map Subtype.val := by
  rw [usernames, usernamesIn, Room.names, List.map_filterMap, ← List.filterMap_eq_map,
    List.filterMap_filter]
  congr 1
  funext i
  cases hseat : r.seats i with
  | none =>
    have hlisted : listed s.sessions i = false := by simp [listed, h.free i hseat]
    simp [hlisted]
  | some o =>
    have hsession := h.taken i o hseat
    cases hname : o.name with
    | none =>
      have hlisted : listed s.sessions i = false := by
        simp [listed, hsession.registered, hname]
      simp [hlisted, hname]
    | some u =>
      have husername : (s.sessions i).username = u.1 := by
        rw [hsession.username, signature_some hname]
      have hlisted : listed s.sessions i = true := by
        simp [listed, hsession.active, hsession.registered, hname, husername, username_ne_nil u]
      simp [hlisted, hname, husername]

/-! ## Writing to the table and to the log -/

/-- A user's session is written. -/
theorem write (h : Displays s r) {session : ClientSession} (hi : r.seats i = some o)
    (hsockfd : session.sockfd = (s.sessions i).sockfd) (hclient : p.client = o.client)
    (hsession : SessionOf p session) (hseats : r'.seats = Function.update r.seats i (some p))
    (hheard : r'.heard = r.heard) {log : List Event}
    (hlog : ∀ c, receivedBy c log = receivedBy c s.log) :
    Displays { s with sessions := Function.update s.sessions i session, log := log } r' where
  free j hj := by
    rw [hseats] at hj
    by_cases hji : j = i
    · subst hji
      simp at hj
    · rw [Function.update_of_ne hji] at hj
      simpa [hji] using h.free j hj
  taken j q hj := by
    rw [hseats] at hj
    by_cases hji : j = i
    · subst hji
      rw [Function.update_self] at hj
      cases hj
      simpa using hsession
    · rw [Function.update_of_ne hji] at hj
      simpa [hji] using h.taken j q hj
  owner j q hj := by
    rw [hseats] at hj
    by_cases hji : j = i
    · subst hji
      rw [Function.update_self] at hj
      cases hj
      simpa [hsockfd, hclient] using h.owner j o hi
    · rw [Function.update_of_ne hji] at hj
      simpa [hji] using h.owner j q hj
  nonneg j q hj := by
    rw [hseats] at hj
    by_cases hji : j = i
    · subst hji
      simpa [hsockfd] using h.nonneg j o hi
    · rw [Function.update_of_ne hji] at hj
      simpa [hji] using h.nonneg j q hj
  heard c := by
    rw [hheard, hlog]
    exact h.heard c

/-- Something is said. -/
theorem say (h : Displays s r) {said : Conn → List Message} {log : List Event}
    (hlog : ∀ c, receivedBy c log = receivedBy c s.log ++ (said c).map Message.encode) :
    Displays { s with log := log } (r.tellBy said) where
  free := h.free
  taken := h.taken
  owner := h.owner
  nonneg := h.nonneg
  heard c := by
    rw [hlog, h.heard, Room.tellBy_heard, List.map_append]

/-- A user is sent a message. -/
theorem deliver (h : Displays s r) (hj : r.seats j = some p) {src : Source} {aim : Option Conn}
    {buf : Bytes} {m : Message} (hbuf : buf = m.encode) :
    Displays (s.deliver src aim (s.sessions j).sockfd buf) (r.tell p.client m) := by
  have hown := h.owner j p hj
  rw [Server.deliver, hown]
  refine h.say fun c => ?_
  rw [← List.singleton_append, receivedBy_append, hbuf]
  by_cases hc : p.client = c
  · subst hc
    simp [receivedBy]
  · simp [receivedBy, hc, Ne.symm hc]

/-- The users of a kind are sent a message. -/
theorem deliverAll (h : Displays s r) {src : Source} {sends : List (Int × Bytes)} {m : Message}
    {f : Slot → User → Bool} (hnodup : (sends.map Prod.fst).Nodup)
    (hsends : ∀ q, q ∈ sends ↔ q.2 = m.encode ∧
      ∃ j p, r.seats j = some p ∧ f j p = true ∧ (s.sessions j).sockfd = q.1) :
    Displays (s.deliverAll src sends) (r.tellAll fun j p => if f j p then some m else none) := by
  rw [Server.deliverAll_eq]
  refine h.say fun c => ?_
  show receivedBy c (s.deliveries src sends ++ s.log) = _
  rw [receivedBy_append]
  congr 1
  have hmsg : ∀ q ∈ sends, q.2 = m.encode := fun q hq => ((hsends q).1 hq).1
  have hseat : ∀ q ∈ sends, s.fds q.1 = some c →
      ∃ j p, r.seats j = some p ∧ f j p = true ∧ (s.sessions j).sockfd = q.1 ∧ p.client = c := by
    intro q hq hown
    obtain ⟨-, j, p, hj, hf, hfd⟩ := (hsends q).1 hq
    rw [← hfd, h.owner j p hj] at hown
    exact ⟨j, p, hj, hf, hfd, Option.some.inj hown⟩
  have hsame : ∀ q ∈ sends, ∀ q' ∈ sends, s.fds q.1 = some c → s.fds q'.1 = some c →
      q.1 = q'.1 := by
    intro q hq q' hq' hown hown'
    obtain ⟨j, p, hj, -, hfd, hclient⟩ := hseat q hq hown
    obtain ⟨j', p', hj', -, hfd', hclient'⟩ := hseat q' hq' hown'
    rw [← hfd, ← hfd', r.client_inj j j' p p' hj hj' (hclient.trans hclient'.symm)]
  have honce := @receivedBy_broadcast s src c _ _ hsame hnodup hmsg
  have hreceives : receivedBy c (s.deliveries src sends) ≠ [] ↔
      ∃ j p, r.seats j = some p ∧ f j p = true ∧ p.client = c := by
    rw [receivedBy_deliveries, Ne, List.filterMap_eq_nil_iff]
    constructor
    · intro hne
      simp only [not_forall] at hne
      obtain ⟨q, hq, hne⟩ := hne
      obtain ⟨j, p, hj, hf, -, hclient⟩ := hseat q hq (by simpa using hne)
      exact ⟨j, p, hj, hf, hclient⟩
    · rintro ⟨j, p, hj, hf, rfl⟩ hnone
      have hq := hnone ((s.sessions j).sockfd, m.encode) ((hsends _).2 ⟨rfl, j, p, hj, hf, rfl⟩)
      simp [h.owner j p hj] at hq
  cases hc : r.seatOf c with
  | none =>
    have hno : ¬ ∃ j p, r.seats j = some p ∧ f j p = true ∧ p.client = c := by
      rintro ⟨j, p, hj, -, hclient⟩
      rw [Room.seatOf_eq_some.2 ⟨p, hj, hclient⟩] at hc
      cases hc
    simpa using mt hreceives.1 hno
  | some j =>
    obtain ⟨p, hj, hclient⟩ := Room.seatOf_eq_some.1 hc
    simp only [hj, Option.bind_some]
    by_cases hf : f j p = true
    · rw [if_pos hf]
      exact honce.resolve_left (hreceives.2 ⟨j, p, hj, hf, hclient⟩)
    · have hno : ¬ ∃ j p, r.seats j = some p ∧ f j p = true ∧ p.client = c := by
        rintro ⟨k, q, hk, hq, hclient'⟩
        obtain rfl := r.client_inj k j q p hk hj (hclient'.trans hclient.symm)
        rw [hj] at hk
        cases hk
        exact hf hq
      rw [if_neg hf]
      simpa using mt hreceives.1 hno

end Displays

/-! ## A program run to its end -/

/-- The descriptors stay where they are, and nobody else moves. -/
structure Keeps (s s' : Server) : Prop where
  sockfd : ∀ i, (s'.sessions i).sockfd = (s.sessions i).sockfd
  frame : s' = { s with sessions := s'.sessions, log := s'.log }

theorem Keeps.refl (s : Server) : Keeps s s := ⟨fun _ => rfl, rfl⟩

theorem Keeps.trans (h : Keeps s s₁) (h' : Keeps s₁ s') : Keeps s s' where
  sockfd i := (h'.sockfd i).trans (h.sockfd i)
  frame := by
    rw [h'.frame, h.frame]

/-- Run by the thread `t` on its own, the program returns `a` and leaves a server that displays
    `r`. -/
def Yields (x : Externs) (c : Conn) (now : Int) (t : Thread) (s : Server) {α : Type}
    (p : ServerProg α) (a : α) (r : ChatRoom) : Prop :=
  ∃ target s', finish x c now p t s = some (a, { t with target := target }, s') ∧ Keeps s s' ∧
    Displays s' r

variable {now : Int} {t : Thread} {α β : Type} {a : α} {b : β}

theorem yields_ret (h : Displays s r) : Yields x c now t s (.ret a) a r :=
  ⟨t.target, s, rfl, Keeps.refl s, h⟩

theorem yields_call {op : Op} {k : op.Resp → ServerProg α} {res : op.Resp}
    {target : Option (Int × Option Conn)}
    (hop : s.perform x c t now true op = some (res, s₁, target)) (hkeeps : Keeps s s₁)
    (hrest : Yields x c now { t with target := target } s₁ (k res) a r) :
    Yields x c now t s (.call op k) a r := by
  obtain ⟨target', s', hfinish, hkeeps', h'⟩ := hrest
  refine ⟨target', s', ?_, hkeeps.trans hkeeps', h'⟩
  simp only [finish, hop]
  exact hfinish

/-- One program behind the other. -/
theorem yields_bind {p : ServerProg α} {f : α → ServerProg β}
    (hp : Yields x c now t s p a r)
    (hf : ∀ target s₁, Keeps s s₁ → Displays s₁ r →
      Yields x c now { t with target := target } s₁ (f a) b r') :
    Yields x c now t s (p >>= f) b r' := by
  obtain ⟨target, s₁, hfinish, hkeeps, h⟩ := hp
  obtain ⟨target', s', hfinish', hkeeps', h'⟩ := hf target s₁ hkeeps h
  refine ⟨target', s', ?_, hkeeps.trans hkeeps', h'⟩
  rw [finish_bind, hfinish]
  exact hfinish'

end Server

end ChatMultithread
