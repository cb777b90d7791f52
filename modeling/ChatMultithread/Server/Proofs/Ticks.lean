import ChatMultithread.Server.System

/-!
# What a tick of the monitor does

One pass of the loop over `g_sessions` of `inactivity_monitor_main`, slot by slot: each session is
marked where it is due, whatever the others are, and a notice is prepared for each that was marked,
in slot order.
-/

namespace ChatMultithread

open Lib

/-- A session behind a tick. -/
def ticked (session : ClientSession) (now timeout : Int) : ClientSession :=
  (sessionMarkInactiveIfNeeded session now timeout).getD session

namespace Server

/-- What the monitor prepares for a session that it marks: an entry of `sockets` and one of
    `notifications`. -/
def noticeOf (fds : Int → Option Conn) (session : ClientSession) : Notification :=
  ⟨session.sockfd, fds session.sockfd, inactivityNotice session.username⟩

variable {fds : Int → Option Conn} {now timeout : Int} {session marked : ClientSession}

/-- The marking keeps everything but the status. -/
theorem mark_eq_some (h : sessionMarkInactiveIfNeeded session now timeout = some marked) :
    marked = { session with status := .inactivo } ∧ session.isActive = true ∧
      session.status ≠ .inactivo ∧ timeout ≤ now - session.lastActivity := by
  unfold sessionMarkInactiveIfNeeded at h
  split at h
  · cases h
  · rename_i hactive
    split at h
    · cases h
    · rename_i hstatus
      split at h
      · cases h
      · rename_i hidle
        cases h
        exact ⟨rfl, by simpa using hactive, hstatus, Int.not_lt.1 hidle⟩

/-- The monitor's loop over distinct slots. -/
theorem markLoop_eq {is : List Slot} (hnodup : is.Nodup) (t : Sessions)
    (pending : List Notification) :
    markLoop fds now timeout is t pending =
      (fun i => if i ∈ is then ticked (t i) now timeout else t i,
        pending ++ is.filterMap fun i =>
          (sessionMarkInactiveIfNeeded (t i) now timeout).map (noticeOf fds)) := by
  induction is generalizing t pending with
  | nil => simp [markLoop]
  | cons j is ih =>
    obtain ⟨hj, hrest⟩ := List.nodup_cons.1 hnodup
    have hguard : (if (t j).isActive then sessionMarkInactiveIfNeeded (t j) now timeout else none) =
        sessionMarkInactiveIfNeeded (t j) now timeout := by
      split
      · rfl
      · rename_i hinactive
        simp [sessionMarkInactiveIfNeeded, hinactive]
    unfold markLoop
    rw [hguard]
    cases hmark : sessionMarkInactiveIfNeeded (t j) now timeout with
    | none =>
      dsimp only
      rw [ih hrest, List.filterMap_cons, hmark, Option.map_none]
      refine congrArg (·, _) (funext fun i => ?_)
      by_cases hij : i = j
      · subst hij
        rw [if_neg hj, if_pos List.mem_cons_self, ticked, hmark, Option.getD_none]
      · simp [hij]
    | some marked =>
      have hother : ∀ i ∈ is, Function.update t j marked i = t i := by
        intro i hi
        exact Function.update_of_ne (by rintro rfl; exact hj hi) _ _
      have hnotices : (is.filterMap fun i => (sessionMarkInactiveIfNeeded
            (Function.update t j marked i) now timeout).map (noticeOf fds)) =
          is.filterMap fun i => (sessionMarkInactiveIfNeeded (t i) now timeout).map
            (noticeOf fds) := by
        apply List.filterMap_congr
        intro i hi
        rw [hother i hi]
      dsimp only
      rw [ih hrest, hnotices, List.filterMap_cons, hmark, Option.map_some, List.append_assoc]
      refine Prod.ext (funext fun i => ?_) rfl
      dsimp only
      by_cases hij : i = j
      · subst hij
        rw [if_neg hj, Function.update_self, if_pos List.mem_cons_self, ticked, hmark,
          Option.getD_some]
      · simp [hij]

/-- The whole table. -/
theorem markLoop_finRange (t : Sessions) :
    markLoop fds now timeout (List.finRange maxClients) t [] =
      (fun i => ticked (t i) now timeout,
        (List.finRange maxClients).filterMap fun i =>
          (sessionMarkInactiveIfNeeded (t i) now timeout).map (noticeOf fds)) := by
  rw [markLoop_eq (List.nodup_finRange maxClients)]
  simp

end Server

end ChatMultithread
