import Mathlib.Data.List.Flatten
import Mathlib.Data.List.TakeDrop

/-!
# Sockets that take a part of what they are sent

A `send` gives the socket the first bytes of its argument, and says how many. What the sockets have
taken at the end of a run is what was sent, once and in order, exactly when every call gave its
socket everything.
-/

namespace ChatMultithread.Lib

/-- The result of one `send`: the socket takes so many bytes, where it is sent as many, the call is
    interrupted, or it fails otherwise. -/
inductive SendResult where
  | accepted (k : Nat)
  | interrupted
  | failed
  deriving DecidableEq, Repr

namespace SendResult

variable {α : Type}

/-- The call returns a number of bytes. -/
def ok : SendResult → Bool
  | accepted _ => true
  | interrupted | failed => false

/-- The bytes that the socket takes. -/
def bytes (buf : List α) : SendResult → List α
  | accepted k => buf.take k
  | interrupted | failed => []

/-- The socket takes everything it is sent. -/
def TakesAll (buf : List α) (r : SendResult) : Prop :=
  buf = [] ∨ ∃ k, r = accepted k ∧ buf.length ≤ k

/-- A socket that takes at least one byte whenever the call is not interrupted. -/
def Willing (r : SendResult) : Prop := r ≠ failed ∧ r ≠ accepted 0

instance (r : SendResult) : Decidable r.Willing := inferInstanceAs (Decidable (_ ∧ _))

theorem bytes_isPrefix (buf : List α) (r : SendResult) : r.bytes buf <+: buf := by
  cases r with
  | accepted k => exact List.take_prefix k buf
  | interrupted => exact List.nil_prefix
  | failed => exact List.nil_prefix

theorem bytes_eq_iff {buf : List α} {r : SendResult} : r.bytes buf = buf ↔ r.TakesAll buf := by
  cases r with
  | accepted k =>
    constructor
    · intro h
      exact .inr ⟨k, rfl, (List.take_eq_self_iff buf).1 h⟩
    · rintro (rfl | ⟨k', hk, hlen⟩)
      · exact List.take_nil
      · cases hk
        exact List.take_of_length_le hlen
  | interrupted =>
    constructor
    · intro h
      exact .inl h.symm
    · rintro (rfl | ⟨k, hk, _⟩)
      · rfl
      · cases hk
  | failed =>
    constructor
    · intro h
      exact .inl h.symm
    · rintro (rfl | ⟨k, hk, _⟩)
      · rfl
      · cases hk

end SendResult

/-- A call of `send`: its socket, its argument and its result. -/
structure Transmission (Sock α : Type) where
  sock : Sock
  line : List α
  result : SendResult
  deriving DecidableEq, Repr

namespace Transmission

variable {Sock α : Type} [DecidableEq Sock]

/-- What the socket has taken, in the order of the calls. -/
def stream (sock : Sock) (ts : List (Transmission Sock α)) : List α :=
  (ts.filter fun t => t.sock = sock).flatMap fun t => t.result.bytes t.line

/-- What the socket was sent. -/
def lines (sock : Sock) (ts : List (Transmission Sock α)) : List α :=
  (ts.filter fun t => t.sock = sock).flatMap fun t => t.line

omit [DecidableEq Sock] in
theorem length_flatMap_le (ts : List (Transmission Sock α)) :
    (ts.flatMap fun t => t.result.bytes t.line).length ≤ (ts.flatMap fun t => t.line).length := by
  induction ts with
  | nil => exact Nat.le_refl _
  | cons t ts ih =>
    rw [List.flatMap_cons, List.flatMap_cons, List.length_append, List.length_append]
    exact Nat.add_le_add (t.result.bytes_isPrefix t.line).length_le ih

omit [DecidableEq Sock] in
/-- What is missing of one line is missing of all of them together: no later line makes up for
    it. -/
theorem flatMap_eq_iff (ts : List (Transmission Sock α)) :
    (ts.flatMap fun t => t.result.bytes t.line) = (ts.flatMap fun t => t.line) ↔
      ∀ t ∈ ts, t.result.TakesAll t.line := by
  induction ts with
  | nil => exact ⟨fun _ => List.forall_mem_nil _, fun _ => rfl⟩
  | cons t ts ih =>
    rw [List.flatMap_cons, List.flatMap_cons, List.forall_mem_cons]
    constructor
    · intro h
      have hlen := congrArg List.length h
      rw [List.length_append, List.length_append] at hlen
      have hle := length_flatMap_le ts
      have hfirst := t.result.bytes_isPrefix t.line
      have hwhole : t.result.bytes t.line = t.line := by
        apply hfirst.eq_of_length_le
        omega
      rw [hwhole] at h
      exact ⟨SendResult.bytes_eq_iff.1 hwhole, ih.1 (List.append_cancel_left h)⟩
    · rintro ⟨hfirst, hrest⟩
      rw [SendResult.bytes_eq_iff.2 hfirst, ih.2 hrest]

/-- The sockets have taken their lines, once and in order, exactly when every call gave its socket
    the whole line. -/
theorem stream_eq_lines_iff (ts : List (Transmission Sock α)) :
    (∀ sock, stream sock ts = lines sock ts) ↔ ∀ t ∈ ts, t.result.TakesAll t.line := by
  constructor
  · intro h t ht
    apply (flatMap_eq_iff _).1 (h t.sock) t
    exact List.mem_filter.2 ⟨ht, decide_eq_true rfl⟩
  · intro h sock
    apply (flatMap_eq_iff _).2
    intro t ht
    exact h t (List.mem_filter.1 ht).1

end Transmission

end ChatMultithread.Lib
