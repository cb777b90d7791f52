import ChatMultithread.Common.Parser

/-!
# Validators

`src/common/validation.c`. The locale is the initial `"C"` locale, in which `isalnum` accepts
the ASCII letters and digits.
-/

namespace ChatMultithread

open Lib

/-- `isalnum()` in the `"C"` locale. -/
def isalnum (c : UInt8) : Bool :=
  (48 ≤ c && c ≤ 57) || (65 ≤ c && c ≤ 90) || (97 ≤ c && c ≤ 122)

/-- `is_valid_username()`. -/
def isValidUsername (u : Bytes) : Bool :=
  if u.length = 0 ∨ u.length > maxUser then false
  else u.all fun c => isalnum c || c == 95

/-- `is_valid_status()`. -/
def isValidStatus (s : Bytes) : Bool :=
  s == statusActive || s == statusBusy || s == statusInactive

/-- `validate_message()`. Nothing in the repository calls it. -/
def validateMessage (msg : ParsedMessage) : Bool :=
  match msg.type with
  | .register => isValidUsername msg.arg1
  | .status => isValidStatus msg.arg1
  | .msg => msg.arg1.length > 0 && msg.arg2.length > 0
  | _ => true

/-- A valid username is a non-empty string of at most 32 letters, digits and underscores. -/
theorem isValidUsername_iff {u : Bytes} :
    isValidUsername u = true ↔
      u ≠ [] ∧ u.length ≤ 32 ∧ ∀ c ∈ u, isalnum c = true ∨ c = 95 := by
  unfold isValidUsername
  split
  · rename_i h
    simp only [Bool.false_eq_true, false_iff, not_and]
    intro hne hle
    rcases h with h | h
    · exact absurd (List.length_eq_zero_iff.1 h) hne
    · exact absurd hle (by simpa using h)
  · rename_i h
    obtain ⟨h0, h32⟩ := not_or.1 h
    have hne : u ≠ [] := fun e => h0 (by simp [e])
    simp only [maxUser, maxUsernameLen, not_lt] at h32
    simp [hne, h32]

/-- No byte of a valid username has a meaning in the protocol. -/
theorem not_mem_of_isValidUsername {u : Bytes} (h : isValidUsername u = true) {b : UInt8}
    (hb : isalnum b = false) (h95 : b ≠ 95) : b ∉ u := by
  intro hmem
  rcases (isValidUsername_iff.1 h).2.2 b hmem with h' | h'
  · rw [hb] at h'; cases h'
  · exact h95 h'

end ChatMultithread
