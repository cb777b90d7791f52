import ChatMultithread.Server.Handlers

/-!
# The functions `handlers.c` declares `extern`

They are declared but not defined in the repository, so the server is modelled over arbitrary
ones. Each is one atomic step on the session table. What a result needs of them is a structure of
its own below, stated in the words in which the handlers rely on it; `managerExterns`, which
implements them with the session manager's own functions, satisfies all of them.
-/

namespace ChatMultithread

open Lib

/-- The declared functions. A broadcast is the list of the strings it writes to descriptors. -/
structure Externs where
  usernameExists : Sessions → Bytes → Bool
  addSession : Sessions → Bytes → Int → Sessions
  findUserFd : Sessions → Bytes → Int
  broadcastAll : Sessions → Bytes → List (Int × Bytes)
  broadcastExcept : Sessions → Bytes → Int → List (Int × Bytes)
  getAllUsers : Sessions → Nat → Bytes
  getUserInfo : Sessions → Bytes → Option (Bytes × Bytes)
  setUserStatus : Sessions → Bytes → Bytes → Sessions

/-- Slot `i` holds a live session that is registered. -/
def Registered (t : Sessions) (i : Slot) : Prop :=
  (t i).isActive = true ∧ (t i).isRegistered = true

/-- Slot `i` holds a live session that is registered as `u`. -/
def Named (t : Sessions) (i : Slot) (u : Bytes) : Prop :=
  Registered t i ∧ (t i).username = u

instance (t : Sessions) (i : Slot) : Decidable (Registered t i) :=
  inferInstanceAs (Decidable (_ ∧ _))

/-- Slot `i` is the one whose live session has descriptor `fd`. -/
def OnlyAt (t : Sessions) (fd : Int) (i : Slot) : Prop :=
  ∀ j, (t j).isActive = true ∧ (t j).sockfd = fd ↔ j = i

/-- The status a protocol word stands for. -/
def statusOfString (s : Bytes) : Option UserStatus :=
  if s = statusActive then some .activo
  else if s = statusBusy then some .ocupado
  else if s = statusInactive then some .inactivo
  else none

namespace Externs

variable (x : Externs)

/-- They do not add, remove or re-key slots. -/
structure KeepsSlots : Prop where
  addSession_isActive : ∀ t u fd i, (x.addSession t u fd i).isActive = (t i).isActive
  addSession_sockfd : ∀ t u fd i, (x.addSession t u fd i).sockfd = (t i).sockfd
  setUserStatus_isActive : ∀ t u st i, (x.setUserStatus t u st i).isActive = (t i).isActive
  setUserStatus_sockfd : ∀ t u st i, (x.setUserStatus t u st i).sockfd = (t i).sockfd

/-- `add_session(u, fd)` makes `u` the username of the session with descriptor `fd` and
    registers it, `set_user_status` names nobody, and `username_exists(u)` is true iff some live
    session has been given the name `u`. -/
structure Registry : Prop where
  addSession_eq : ∀ t u fd i, OnlyAt t fd i →
    x.addSession t u fd = Function.update t i { t i with username := u, isRegistered := true }
  setUserStatus_username : ∀ t u st i, (x.setUserStatus t u st i).username = (t i).username
  setUserStatus_isRegistered : ∀ t u st i,
    (x.setUserStatus t u st i).isRegistered = (t i).isRegistered
  usernameExists_iff : ∀ t u, u ≠ [] → (x.usernameExists t u = true ↔ ∃ i, Named t i u)

/-- `find_user_fd(u)` is the descriptor of a session registered as `u`, and negative when there
    is none. -/
structure FindsUsers : Prop where
  findUserFd_named : ∀ t u, 0 ≤ x.findUserFd t u →
    ∃ i, Named t i u ∧ (t i).sockfd = x.findUserFd t u

/-- A broadcast writes the given string to every session registered at that moment, the excluded
    one apart, and to nobody else. -/
structure Broadcasts : Prop where
  mem_broadcastAll : ∀ t m p, p ∈ x.broadcastAll t m ↔
    p.2 = m ∧ ∃ i, Registered t i ∧ (t i).sockfd = p.1
  mem_broadcastExcept : ∀ t m fd p, p ∈ x.broadcastExcept t m fd ↔
    p.2 = m ∧ p.1 ≠ fd ∧ ∃ i, Registered t i ∧ (t i).sockfd = p.1

/-- It writes to each of them once, where their descriptors are distinct. -/
structure BroadcastsOnce : Prop where
  nodup_broadcastAll : ∀ t m, Set.InjOn (fun i => (t i).sockfd) {i | Registered t i} →
    ((x.broadcastAll t m).map Prod.fst).Nodup
  nodup_broadcastExcept : ∀ t m fd, Set.InjOn (fun i => (t i).sockfd) {i | Registered t i} →
    ((x.broadcastExcept t m fd).map Prod.fst).Nodup

/-- `set_user_status(u, s)` writes the status of the session registered as `u`, and nothing
    else. -/
structure WritesStatus : Prop where
  setUserStatus_frame : ∀ t u st i,
    { x.setUserStatus t u st i with status := (t i).status } = t i
  setUserStatus_unnamed : ∀ t u st i, ¬ Named t i u → x.setUserStatus t u st i = t i
  setUserStatus_named : ∀ t u st i v, u ≠ [] → Named t i u → (∀ j, Named t j u → j = i) →
    statusOfString st = some v → (x.setUserStatus t u st i).status = v

/-- The lists and descriptions of users are lines of text as long as the names in the table are. -/
structure PlainText : Prop where
  getAllUsers_plain : ∀ t n, (∀ i, Registered t i → msgTerminatorChar ∉ (t i).username) →
    msgTerminatorChar ∉ x.getAllUsers t n
  getUserInfo_plain : ∀ t u ip st, x.getUserInfo t u = some (ip, st) →
    msgTerminatorChar ∉ ip ∧ msgTerminatorChar ∉ st

/-- The lists and descriptions of users are those of the session manager, and a name that is borne
    once is found. Nobody bears the empty one. -/
structure Describes : Prop where
  getAllUsers_eq : ∀ t n, x.getAllUsers t n = sessionsListUsernames t n
  getUserInfo_eq : ∀ t u i, u ≠ [] → Named t i u → (∀ j, Named t j u → j = i) →
    x.getUserInfo t u = some (sockaddrToIpString (t i).addr, statusToString (t i).status)
  findUserFd_eq : ∀ t u i, u ≠ [] → Named t i u → (∀ j, Named t j u → j = i) →
    x.findUserFd t u = (t i).sockfd
  usernameExists_nil : ∀ t, x.usernameExists t [] = false

/-- Everything that the text of a reply rests on. -/
def Plain : Prop := x.Registry ∧ x.FindsUsers ∧ x.PlainText

/-- Everything that the handlers rely on. -/
structure Manages : Prop extends KeepsSlots x, Registry x, FindsUsers x, Broadcasts x,
  BroadcastsOnce x, WritesStatus x, Describes x

end Externs

/-! ## An implementation with the session manager -/

/-- The descriptors of the registered sessions, in slot order. -/
def registeredFds (t : Sessions) : List Int :=
  ((List.finRange maxClients).filter fun i => (t i).isActive && (t i).isRegistered).map
    fun i => (t i).sockfd

/-- The declared functions, written with the functions of `session_manager.c`. -/
def managerExterns : Externs where
  usernameExists := sessionUsernameExists
  addSession t u fd :=
    match sessionsFindBySockfd t fd with
    | none => t
    | some i => Function.update t i { t i with username := u, isRegistered := true }
  findUserFd t u :=
    match sessionsFindByUsername t u with
    | none => -1
    | some i => (t i).sockfd
  broadcastAll t m := (registeredFds t).map fun fd => (fd, m)
  broadcastExcept t m fd := ((registeredFds t).filter (· ≠ fd)).map fun fd => (fd, m)
  getAllUsers := sessionsListUsernames
  getUserInfo t u :=
    (sessionsFindByUsername t u).map fun i =>
      (sockaddrToIpString (t i).addr, statusToString (t i).status)
  setUserStatus t u st :=
    match sessionsFindByUsername t u, statusOfString st with
    | some i, some v => Function.update t i { t i with status := v }
    | _, _ => t

/-! ## The implementation satisfies the assumptions -/

theorem sessionsFindBySockfd_onlyAt {t : Sessions} {fd : Int} {i : Slot} (h : OnlyAt t fd i) :
    sessionsFindBySockfd t fd = some i := by
  apply firstSlot_unique
  · simpa using (h i).2 rfl
  · intro j hj
    exact (h j).1 (by simpa using hj)

theorem sessionsFindByUsername_named {t : Sessions} {u : Bytes} {i : Slot}
    (h : sessionsFindByUsername t u = some i) : Named t i u := by
  unfold sessionsFindByUsername at h
  split at h
  · cases h
  · have := firstSlot_eq_some h
    simp only [Bool.and_eq_true, beq_iff_eq] at this
    exact ⟨⟨this.1.1, this.1.2⟩, this.2⟩

theorem sessionsFindByUsername_isSome {t : Sessions} {u : Bytes} (hu : u ≠ []) {i : Slot}
    (h : Named t i u) : ∃ j, sessionsFindByUsername t u = some j := by
  cases hfind : sessionsFindByUsername t u with
  | some j => exact ⟨j, rfl⟩
  | none =>
    rw [sessionsFindByUsername, if_neg hu] at hfind
    have := firstSlot_eq_none.1 hfind i
    simp [h.1.1, h.1.2, h.2] at this

theorem mem_registeredFds {t : Sessions} {fd : Int} :
    fd ∈ registeredFds t ↔ ∃ i, Registered t i ∧ (t i).sockfd = fd := by
  simp [registeredFds, Registered]

theorem field_update {t : Sessions} {i : Slot} {session : ClientSession} {α : Type}
    (f : ClientSession → α) (h : f session = f (t i)) (j : Slot) :
    f (Function.update t i session j) = f (t j) := by
  by_cases hj : j = i
  · subst hj
    simpa using h
  · rw [Function.update_of_ne hj]

theorem managerExterns_addSession (t : Sessions) (u : Bytes) (fd : Int) :
    managerExterns.addSession t u fd = t ∨ ∃ i, managerExterns.addSession t u fd =
      Function.update t i { t i with username := u, isRegistered := true } := by
  simp only [managerExterns]
  split
  · exact .inl rfl
  · exact .inr ⟨_, rfl⟩

theorem managerExterns_setUserStatus (t : Sessions) (u st : Bytes) :
    managerExterns.setUserStatus t u st = t ∨ ∃ i v, Named t i u ∧
      managerExterns.setUserStatus t u st = Function.update t i { t i with status := v } := by
  simp only [managerExterns]
  split
  · rename_i i v hi hv
    exact .inr ⟨i, v, sessionsFindByUsername_named hi, rfl⟩
  · exact .inl rfl

theorem managerExterns_keepsSlots : managerExterns.KeepsSlots where
  addSession_isActive t u fd i := by
    rcases managerExterns_addSession t u fd with h | ⟨j, h⟩
    · rw [h]
    · rw [h]; exact field_update (·.isActive) (by rfl) i
  addSession_sockfd t u fd i := by
    rcases managerExterns_addSession t u fd with h | ⟨j, h⟩
    · rw [h]
    · rw [h]; exact field_update (·.sockfd) (by rfl) i
  setUserStatus_isActive t u st i := by
    rcases managerExterns_setUserStatus t u st with h | ⟨j, v, -, h⟩
    · rw [h]
    · rw [h]; exact field_update (·.isActive) (by rfl) i
  setUserStatus_sockfd t u st i := by
    rcases managerExterns_setUserStatus t u st with h | ⟨j, v, -, h⟩
    · rw [h]
    · rw [h]; exact field_update (·.sockfd) (by rfl) i

theorem managerExterns_registry : managerExterns.Registry where
  addSession_eq t u fd i h := by
    simp only [managerExterns, sessionsFindBySockfd_onlyAt h]
  setUserStatus_username t u st i := by
    rcases managerExterns_setUserStatus t u st with h | ⟨j, v, -, h⟩
    · rw [h]
    · rw [h]; exact field_update (·.username) (by rfl) i
  setUserStatus_isRegistered t u st i := by
    rcases managerExterns_setUserStatus t u st with h | ⟨j, v, -, h⟩
    · rw [h]
    · rw [h]; exact field_update (·.isRegistered) (by rfl) i
  usernameExists_iff t u hu := by
    constructor
    · intro h
      obtain ⟨i, hi⟩ := Option.isSome_iff_exists.1 h
      exact ⟨i, sessionsFindByUsername_named hi⟩
    · rintro ⟨i, hi⟩
      obtain ⟨j, hj⟩ := sessionsFindByUsername_isSome hu hi
      exact Option.isSome_iff_exists.2 ⟨j, hj⟩

theorem managerExterns_findsUsers : managerExterns.FindsUsers where
  findUserFd_named t u h := by
    simp only [managerExterns] at h ⊢
    split at h
    · exact absurd h (by decide)
    · rename_i i hi
      exact ⟨i, sessionsFindByUsername_named hi, rfl⟩

theorem managerExterns_broadcasts : managerExterns.Broadcasts where
  mem_broadcastAll t m p := by
    obtain ⟨fd, buf⟩ := p
    simp only [managerExterns, List.mem_map, mem_registeredFds, Prod.mk.injEq]
    constructor
    · rintro ⟨_, hi, rfl, rfl⟩
      exact ⟨rfl, hi⟩
    · rintro ⟨rfl, hi⟩
      exact ⟨fd, hi, rfl, rfl⟩
  mem_broadcastExcept t m fd p := by
    obtain ⟨fd', buf⟩ := p
    simp only [managerExterns, List.mem_map, List.mem_filter, mem_registeredFds, Prod.mk.injEq,
      decide_eq_true_eq]
    constructor
    · rintro ⟨_, ⟨hi, hne⟩, rfl, rfl⟩
      exact ⟨rfl, hne, hi⟩
    · rintro ⟨rfl, hne, hi⟩
      exact ⟨fd', ⟨hi, hne⟩, rfl, rfl⟩

theorem nodup_registeredFds {t : Sessions}
    (ht : Set.InjOn (fun i => (t i).sockfd) {i | Registered t i}) : (registeredFds t).Nodup := by
  apply List.Nodup.map_on
  · intro i hi j hj hij
    simp only [List.mem_filter, Bool.and_eq_true] at hi hj
    exact ht hi.2 hj.2 hij
  · exact (List.nodup_finRange maxClients).filter _

theorem managerExterns_broadcastsOnce : managerExterns.BroadcastsOnce where
  nodup_broadcastAll t m ht := by
    simpa [managerExterns, Function.comp_def] using nodup_registeredFds ht
  nodup_broadcastExcept t m fd ht := by
    simpa [managerExterns, Function.comp_def] using (nodup_registeredFds ht).filter _

theorem managerExterns_writesStatus : managerExterns.WritesStatus where
  setUserStatus_frame t u st i := by
    rcases managerExterns_setUserStatus t u st with h | ⟨j, v, -, h⟩
    · rw [h]
    · rw [h]
      by_cases hj : i = j
      · subst hj
        simp
      · simp [hj]
  setUserStatus_unnamed t u st i hi := by
    rcases managerExterns_setUserStatus t u st with h | ⟨j, v, hj, h⟩
    · rw [h]
    · rw [h]
      have hne : i ≠ j := by
        rintro rfl
        exact hi hj
      simp [hne]
  setUserStatus_named t u st i v hu hi huniq hv := by
    obtain ⟨j, hj⟩ := sessionsFindByUsername_isSome hu hi
    obtain rfl := huniq j (sessionsFindByUsername_named hj)
    simp [managerExterns, hj, hv]

theorem managerExterns_describes : managerExterns.Describes where
  getAllUsers_eq _ _ := rfl
  getUserInfo_eq t u i hu hi huniq := by
    obtain ⟨j, hj⟩ := sessionsFindByUsername_isSome hu hi
    obtain rfl := huniq j (sessionsFindByUsername_named hj)
    simp [managerExterns, hj]
  findUserFd_eq t u i hu hi huniq := by
    obtain ⟨j, hj⟩ := sessionsFindByUsername_isSome hu hi
    obtain rfl := huniq j (sessionsFindByUsername_named hj)
    simp [managerExterns, hj]
  usernameExists_nil t := rfl

theorem not_mem_listUsernamesLoop {t : Sessions} {n : Nat}
    (ht : ∀ i, Registered t i → msgTerminatorChar ∉ (t i).username) (is : List Slot) {out : Bytes}
    (hout : msgTerminatorChar ∉ out) (first : Bool) :
    msgTerminatorChar ∉ listUsernamesLoop t n is out first := by
  induction is generalizing out first with
  | nil => exact hout
  | cons i is ih =>
    unfold listUsernamesLoop
    split
    · exact ih hout first
    · rename_i hi
      have hreg : Registered t i := by
        simp only [Bool.or_eq_true, Bool.not_eq_eq_eq_not, Bool.not_true, not_or] at hi
        exact ⟨by simpa using hi.1.1, by simpa using hi.1.2⟩
      have hpiece : msgTerminatorChar ∉ (if first then [] else [59]) ++ (t i).username := by
        rw [List.mem_append, not_or]
        exact ⟨by cases first <;> decide, ht i hreg⟩
      generalize (if first then ([] : Bytes) else [59]) ++ (t i).username = piece at hpiece ⊢
      dsimp only
      split
      · rw [List.mem_append, not_or]
        exact ⟨hout, fun h => hpiece (List.mem_of_mem_take h)⟩
      · exact ih (by rw [List.mem_append, not_or]; exact ⟨hout, hpiece⟩) false

theorem managerExterns_plainText : managerExterns.PlainText where
  getAllUsers_plain _ _ ht := not_mem_listUsernamesLoop ht _ List.not_mem_nil true
  getUserInfo_plain t u ip st h := by
    obtain ⟨i, -, hi⟩ := Option.map_eq_some_iff.1 h
    obtain ⟨rfl, rfl⟩ := Prod.mk.inj hi
    refine ⟨not_mem_sockaddrToIpString _ (by decide) (by decide), ?_⟩
    cases (t i).status <;> decide

theorem managerExterns_manages : managerExterns.Manages where
  toKeepsSlots := managerExterns_keepsSlots
  toRegistry := managerExterns_registry
  toFindsUsers := managerExterns_findsUsers
  toBroadcasts := managerExterns_broadcasts
  toBroadcastsOnce := managerExterns_broadcastsOnce
  toWritesStatus := managerExterns_writesStatus
  toDescribes := managerExterns_describes

end ChatMultithread
