import ChatMultithread.Common.Fields
import ChatMultithread.Server.Handlers

/-!
# What a client thread does with a line

`src/server/client_thread.c`. The body of the `while` loop of `client_thread_main` for a line
that `recv_line` has returned; the loop itself and the code around it are steps of the server's
transition system.
-/

namespace ChatMultithread

open Lib

/-- How a pass through the loop of `client_thread_main` ends. -/
inductive LoopExit where
  | continue_
  | break_
  deriving DecidableEq, Repr

/-- `update_session_activity()`. -/
def updateSessionActivity (sockfd : Int) : ServerProg Unit := do
  let session ← perform (.sessionsFindBySockfd sockfd)
  match session with
  | none => return ()
  | some slot => perform (.touchActivity slot)

/-- `send_line` of a line whose failure ends the loop. -/
def sendOrBreak (sockfd : Int) (line : Bytes) : ServerProg LoopExit :=
  .call (.send sockfd line) fun sent => .ret (if sent then .continue_ else .break_)

/-- The answer to what the parser or the dispatcher turns down. -/
def protoPending : Bytes := ascii "ERROR|PROTO|NOT_IMPLEMENTED|Parser pending\n"

/-- The loop body of `client_thread_main` for a received line. -/
def clientLine (sockfd : Int) (buffer : Bytes) : ServerProg LoopExit := do
  updateSessionActivity sockfd
  if buffer = ascii "PING\n" then
    sendOrBreak sockfd (ascii "PONG\n")
  else if buffer = ascii "QUIT\n" then do
    sendIgnored sockfd (ascii "BYE\n")
    return .break_
  else
    match protocolParse buffer with
    | none => .call .undefinedBehaviour Empty.elim
    | some (rc, parsed) =>
        if rc = 0 then do
          let code ← handleParsedMessage parsed
          if code < 0 then sendOrBreak sockfd protoPending else return .continue_
        else sendOrBreak sockfd protoPending

/-! ## A line by its fields -/

theorem updateSessionActivity_eq (sockfd : Int) : updateSessionActivity sockfd =
    .call (.sessionsFindBySockfd sockfd) fun session =>
      match session with
      | none => .ret ()
      | some slot => .call (.touchActivity slot) fun _ => .ret () := rfl

/-- What the thread does with a line after the update of the activity. -/
def lineBody (sockfd : Int) (line : Bytes) : ServerProg LoopExit :=
  if line = ascii "PING\n" then sendOrBreak sockfd (ascii "PONG\n")
  else if line = ascii "QUIT\n" then
    .call (.send sockfd (ascii "BYE\n")) fun _ => .ret .break_
  else if ¬ InBounds line then .call .undefinedBehaviour Empty.elim
  else if lineCommand line = .invalid then sendOrBreak sockfd protoPending
  else handlerOf (lineMessage line) >>= fun _ => .ret .continue_

/-- The dispatcher never returns a negative code, so the thread goes on after every command that
    the parser accepts. -/
theorem clientLine_eq (sockfd : Int) {line : Bytes} (h : line.length < maxMsg) :
    clientLine sockfd line = updateSessionActivity sockfd >>= fun _ => lineBody sockfd line := by
  have hcode : ∀ msg : ParsedMessage, ¬ ((if msg.type = .quit then 1 else 0 : Int) < 0) := by
    intro msg
    split <;> decide
  have hdispatch : ∀ msg : ParsedMessage, (do
      let code ← handleParsedMessage msg
      if code < 0 then sendOrBreak sockfd protoPending
      else return .continue_ : ServerProg LoopExit) =
      handlerOf msg >>= fun _ => .ret .continue_ := by
    intro msg
    rw [handleParsedMessage_eq, Prog.bind_assoc]
    simp only [Prog.ret_bind, if_neg (hcode msg), Prog.pure_eq]
  unfold clientLine lineBody
  rw [protocolParse, parseMessage_eq h]
  by_cases hin : InBounds line
  · by_cases hcmd : lineCommand line = .invalid
    · simp [hin, hcmd]
    · simp only [if_neg hcmd, if_true, hdispatch, not_true_eq_false, hin, if_false]
      rfl
  · simp only [hin, not_false_eq_true, if_true]
    rfl

/-! ## A line within a monitor -/

section Monitored

variable {σ : Type} {M : Monitor Op Op.Resp σ} {post : σ → LoopExit → Prop} {g : σ} {sockfd : Int}
  {line : Bytes}

/-- A line is handled within a monitor when each of the ways through the loop body is. -/
theorem safe_lineBody
    (hping : line = ascii "PING\n" → M.Safe post g (sendOrBreak sockfd (ascii "PONG\n")))
    (hquit : line = ascii "QUIT\n" →
      M.Safe post g (.call (.send sockfd (ascii "BYE\n")) fun _ => .ret .break_))
    (hout : ¬ InBounds line → M.allows g .undefinedBehaviour)
    (hinvalid : line ≠ ascii "PING\n" → line ≠ ascii "QUIT\n" → lineCommand line = .invalid →
      M.Safe post g (sendOrBreak sockfd protoPending))
    (hhandler : line ≠ ascii "QUIT\n" → InBounds line → lineCommand line ≠ .invalid →
      M.Safe (fun g _ => post g .continue_) g (handlerOf (lineMessage line))) :
    M.Safe post g (lineBody sockfd line) := by
  unfold lineBody
  by_cases h1 : line = ascii "PING\n"
  · rw [if_pos h1]
    exact hping h1
  by_cases h2 : line = ascii "QUIT\n"
  · rw [if_neg h1, if_pos h2]
    exact hquit h2
  rw [if_neg h1, if_neg h2]
  by_cases h3 : InBounds line
  · rw [if_neg (not_not.2 h3)]
    by_cases h4 : lineCommand line = .invalid
    · rw [if_pos h4]
      exact hinvalid h1 h2 h4
    · rw [if_neg h4, Monitor.safe_bind]
      exact hhandler h2 h3 h4
  · rw [if_pos h3]
    exact ⟨hout h3, fun r => r.elim⟩

/-- In front of the loop body the thread looks its session up and touches it. -/
theorem safe_clientLine (hlen : line.length < maxMsg)
    (hfind : M.allows g (.sessionsFindBySockfd sockfd))
    (hnone : M.answers g (.sessionsFindBySockfd sockfd) none →
      M.Safe post (M.next g (.sessionsFindBySockfd sockfd) none) (lineBody sockfd line))
    (hsome : ∀ slot, M.answers g (.sessionsFindBySockfd sockfd) (some slot) →
      M.Safe post (M.next g (.sessionsFindBySockfd sockfd) (some slot))
        (.call (.touchActivity slot) fun _ => lineBody sockfd line)) :
    M.Safe post g (clientLine sockfd line) := by
  rw [clientLine_eq sockfd hlen, Monitor.safe_bind, updateSessionActivity_eq]
  refine ⟨hfind, fun session hsession => ?_⟩
  cases session with
  | none => exact hnone hsession
  | some slot => exact hsome slot hsession

end Monitored

end ChatMultithread
