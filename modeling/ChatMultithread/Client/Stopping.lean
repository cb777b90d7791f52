import ChatMultithread.Client.Passes

/-!
# Leaving the input loop

`client_run` joins the receiver thread when `input_loop` has returned, and relies on
`state->running` being clear then. Of the ways out of the loop, all but one have cleared the flag or
found it clear: a command that cannot be sent ends the loop with the flag as it is.
-/

namespace ChatMultithread

open Lib

namespace Console

variable {stdin : Bytes} {s : Console} {r : ClientResult}

/-- When the loop has returned, the flag is clear unless a command other than `/quit` could not be
    sent and the receiver has not cleared it. -/
theorem inputLoop_stopped_iff (h : (inputSystem stdin).Reach s) (hr : s.result = some r) :
    s.running = false ↔ s.disconnected = true ∨ ∀ t ∈ s.turns, ¬ t.Failed := by
  obtain ⟨g, hg⟩ := follows_of_reach h
  have hpost : Phase.Post g (some r) := by
    have hsafe := hg.safe
    rwa [code_of_result hr] at hsafe
  have htracks := hg.tracks
  rw [hg.flag]
  cases hpost with
  | disconn => exact ⟨fun _ => .inl htracks.1, fun _ => .inl htracks.1⟩
  | endQuit => exact ⟨fun _ => .inr htracks.2, fun _ => .inr rfl⟩
  | @quit line sent hquit =>
    obtain ⟨t, turns, rest, hturns, hline, _, _, _, hnone⟩ := htracks
    refine ⟨fun _ => .inr ?_, fun _ => .inr rfl⟩
    rw [hturns]
    refine List.forall_mem_cons.2 ⟨?_, hnone⟩
    rintro ⟨line', _, hline', hother, _⟩
    cases hline.symm.trans hline'
    exact hother hquit
  | @err line sent hquit hsent =>
    obtain ⟨t, turns, rest, hturns, hline, hout, _⟩ := htracks
    have hfailed : t.Failed := by
      rw [← hout] at hsent
      obtain ⟨⟨buf, _⟩, hmem, rfl⟩ := List.mem_map.1 hsent
      exact ⟨line, buf, hline, hquit, hmem⟩
    constructor
    · rintro (hdisc | hstop)
      · exact .inl hdisc
      · cases hstop
    · rintro (hdisc | hall)
      · exact .inl hdisc
      · refine absurd hfailed (hall t ?_)
        rw [hturns]
        exact List.mem_cons_self

/-- `/list` cannot be sent. -/
def listNotSent : List InputLabel :=
  List.replicate 5 (.input true) ++ [.input false]

/-- The receiver clears the flag before the loop has printed the error. -/
theorem inputLoop_stopped_disconnected :
    ∃ s, (inputSystem (ascii "/list\n")).Reach s ∧ s.result = some .err ∧ s.running = false := by
  obtain ⟨s, hs, htest⟩ := System.exists_reach_of_run (S := inputSystem (ascii "/list\n"))
    (listNotSent ++ [.receiver, .input true])
    (fun s => decide (s.result = some .err ∧ s.disconnected = true)) (by decide +kernel)
  obtain ⟨hr, hdisc⟩ := of_decide_eq_true htest
  exact ⟨s, hs, hr, (inputLoop_stopped_iff hs hr).2 (.inl hdisc)⟩

/-- The loop returns with the flag set. -/
theorem listNotSent_running :
    ¬ ∀ stdin s r, (inputSystem stdin).Reach s → s.result = some r → s.running = false := by
  intro h
  obtain ⟨s, hs, htest⟩ := System.exists_reach_of_run (S := inputSystem (ascii "/list\n"))
    (listNotSent ++ [.input true])
    (fun s => decide (s.result = some .err ∧ s.running = true)) (by decide +kernel)
  obtain ⟨hr, hrun⟩ := of_decide_eq_true htest
  rw [h _ s _ hs hr] at hrun
  cases hrun

end Console

end ChatMultithread
