import ChatMultithread.Common.Validation
import ChatMultithread.Common.Utils
import Mathlib.Data.Fin.Tuple.Basic
import Mathlib.Data.List.FinRange

/-!
# The session table

`include/session.h` and `src/server/session_manager.c`. Each function of the manager is one
critical section of `g_sessions_mutex`, here a function of the table; what
`sessions_remove_by_sockfd` does after it has released the mutex is a step of its own in the
server's transition system.
-/

namespace ChatMultithread

open Lib

/-- `user_status_t`. -/
inductive UserStatus where
  | activo | ocupado | inactivo
  deriving DecidableEq, Repr

/-- `status_to_string()`. -/
def statusToString : UserStatus → Bytes
  | .activo => statusActive
  | .ocupado => statusBusy
  | .inactivo => statusInactive

/-- `client_session_t`. -/
structure ClientSession where
  sockfd : Int
  addr : InAddr
  threadId : Nat
  username : Bytes
  status : UserStatus
  lastActivity : Int
  isRegistered : Bool
  isActive : Bool
  deriving DecidableEq, Repr

instance : NeZero maxClients := ⟨by decide⟩

/-- An index of `g_sessions`, which stands for a pointer to that element too. -/
abbrev Slot := Fin maxClients

/-- `g_sessions`. -/
abbrev Sessions := Slot → ClientSession

/-- `clear_session_slot()`. -/
def clearSessionSlot : ClientSession where
  sockfd := -1
  addr := ⟨0, 0, 0, 0⟩
  threadId := 0
  username := []
  status := .activo
  lastActivity := 0
  isRegistered := false
  isActive := false

/-- `sessions_init()`. -/
def sessionsInit : Sessions := fun _ => clearSessionSlot

/-- The first slot that satisfies `p`, in the order of the loops over `g_sessions`. -/
def firstSlot (p : Slot → Bool) : Option Slot := (List.finRange maxClients).find? p

/-- `sessions_add()`: the slot that was filled and the new table, or `none` for -1. -/
def sessionsAdd (t : Sessions) (session : ClientSession) : Option (Slot × Sessions) :=
  (firstSlot fun i => !(t i).isActive).map fun i =>
    (i, Function.update t i { session with isActive := true })

/-- What `sessions_remove_by_sockfd` leaves in the slot. -/
def removedSession (session : ClientSession) : ClientSession :=
  { session with
    isActive := false
    isRegistered := false
    threadId := 0
    status := .inactivo
    sockfd := -1
    username := []
    addr := ⟨0, 0, 0, 0⟩
    lastActivity := 0 }

/-- The slot of the session with descriptor `sockfd`: the loop that
    `sessions_remove_by_sockfd` and `sessions_find_by_sockfd` share. -/
def sessionsFindBySockfd (t : Sessions) (sockfd : Int) : Option Slot :=
  firstSlot fun i => (t i).isActive && (t i).sockfd == sockfd

/-- The critical section of `sessions_remove_by_sockfd()`: the descriptor it goes on to shut
    down and close, if it found one, and the new table. -/
def sessionsRemoveBySockfd (t : Sessions) (sockfd : Int) : Option Int × Sessions :=
  match sessionsFindBySockfd t sockfd with
  | none => (none, t)
  | some i => (some (t i).sockfd, Function.update t i (removedSession (t i)))

/-- `sessions_find_by_username()`. -/
def sessionsFindByUsername (t : Sessions) (username : Bytes) : Option Slot :=
  if username = [] then none
  else firstSlot fun i => (t i).isActive && (t i).isRegistered && (t i).username == username

/-- `session_username_exists()`. -/
def sessionUsernameExists (t : Sessions) (username : Bytes) : Bool :=
  (sessionsFindByUsername t username).isSome

/-- The loop of `sessions_list_usernames()`, with `used` bytes of `out` written. -/
def listUsernamesLoop (t : Sessions) (outSize : Nat) : List Slot → Bytes → Bool → Bytes
  | [], out, _ => out
  | i :: rest, out, first =>
      if !(t i).isActive || !(t i).isRegistered || (t i).username == [] then
        listUsernamesLoop t outSize rest out first
      else
        let piece := (if first then [] else [59]) ++ (t i).username
        if piece.length ≥ outSize - out.length then
          out ++ snprintf (outSize - out.length) piece
        else listUsernamesLoop t outSize rest (out ++ piece) false

/-- `sessions_list_usernames()`. -/
def sessionsListUsernames (t : Sessions) (outSize : Nat) : Bytes :=
  listUsernamesLoop t outSize (List.finRange maxClients) [] true

/-- `session_mark_inactive_if_needed()`: the session afterwards if it was marked. -/
def sessionMarkInactiveIfNeeded (session : ClientSession) (now timeoutSeconds : Int) :
    Option ClientSession :=
  if !session.isActive then none
  else if session.status = .inactivo then none
  else if now - session.lastActivity < timeoutSeconds then none
  else some { session with status := .inactivo }

/-! ## The first slot that satisfies a test -/

theorem firstSlot_eq_some {p : Slot → Bool} {i : Slot} (h : firstSlot p = some i) : p i = true :=
  List.find?_some h

theorem firstSlot_eq_none {p : Slot → Bool} : firstSlot p = none ↔ ∀ i, p i = false := by
  simp [firstSlot, List.find?_eq_none]

theorem firstSlot_unique {p : Slot → Bool} {i : Slot} (hi : p i = true)
    (huniq : ∀ j, p j = true → j = i) : firstSlot p = some i := by
  cases h : firstSlot p with
  | none =>
    rw [firstSlot_eq_none.1 h i] at hi
    cases hi
  | some j => rw [huniq j (firstSlot_eq_some h)]

end ChatMultithread
