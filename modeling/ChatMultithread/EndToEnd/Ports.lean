import ChatMultithread.Client.Process
import ChatMultithread.Server.Startup

/-!
# The port on the two command lines

The server checks its port with `parse_positive_int` and the client with `validate_port`, which
looks neither at `errno` nor at the start of the number. They take the same strings for the same
port all the same.
-/

namespace ChatMultithread

open Lib

variable {s digits : Bytes} {port : Int}

/-- The numeral of a port is read by the server. -/
theorem parsePositiveInt_unsigned (h : Unsigned s digits)
    (hport : (decimalValue digits : Int) = port)
    (hpos : 1 ≤ port) (hmax : port ≤ 65535) : parsePositiveInt s = some port := by
  have hlong : (decimalValue digits : Int) ≤ longMax := by
    unfold longMax
    omega
  have hlen : ¬ 0 = s.length := by
    obtain ⟨⟨blanks, sign, rfl, -, -⟩, hne, -⟩ := h
    have hdigits := List.length_pos_iff.2 hne
    rw [List.length_append]
    omega
  have hrefused : ¬ (false = true ∨ ([] : Bytes).length = s.length ∨ ([] : Bytes) ≠ [] ∨ port ≤ 0 ∨
      port > 65535) := by
    rintro (h | h | h | h | h)
    · cases h
    · exact hlen h
    · exact h rfl
    · omega
    · omega
  rw [parsePositiveInt, h.strtol hlong, hport]
  simp only [if_neg hrefused, toInt_of_range (show -2147483648 ≤ port by omega) (by omega)]

/-- What the client accepts is such a numeral. -/
theorem unsigned_of_accepted (hstop : (strtol s).stop = []) (hpos : 1 ≤ (strtol s).value)
    (hmax : (strtol s).value ≤ 65535) :
    ∃ digits, Unsigned s digits ∧ (decimalValue digits : Int) = (strtol s).value := by
  obtain ⟨digits, hdigits, hvalue⟩ := unsigned_of_strtol hstop (by omega) (by unfold longMax; omega)
  exact ⟨digits, hdigits, hvalue.symm⟩

theorem parsePositiveInt_eq_some : parsePositiveInt s = some port ↔
    1 ≤ port ∧ port ≤ 65535 ∧ ∃ digits, Unsigned s digits ∧ (decimalValue digits : Int) = port := by
  constructor
  · intro h
    rw [parsePositiveInt] at h
    split at h
    · cases h
    · rename_i hrefused
      simp only [not_or, not_not, Int.not_le, gt_iff_lt, Int.not_lt] at hrefused
      obtain ⟨-, -, hstop, hpos, hmax⟩ := hrefused
      rw [toInt_of_range (by omega) (by omega)] at h
      cases h
      exact ⟨hpos, hmax, unsigned_of_accepted hstop hpos hmax⟩
  · rintro ⟨hpos, hmax, digits, hdigits, hport⟩
    exact parsePositiveInt_unsigned hdigits hport hpos hmax

theorem validatePort_eq (s : Bytes) : validatePort s = (parsePositiveInt s).getD (-1) := by
  rw [validatePort]
  split
  · rename_i hrefused
    have hnone : parsePositiveInt s = none :=
      if_pos (.inr (.inr (hrefused.imp_right fun h => h.imp_left Int.le_of_lt_add_one)))
    rw [hnone]
    rfl
  · rename_i haccepted
    simp only [not_or, not_not, Int.not_lt, gt_iff_lt] at haccepted
    obtain ⟨hstop, hpos, hmax⟩ := haccepted
    obtain ⟨digits, hdigits, hport⟩ := unsigned_of_accepted hstop hpos hmax
    rw [parsePositiveInt_unsigned hdigits hport hpos hmax,
      toInt_of_range (by omega) (by omega)]
    rfl

/-- Both ends take the same strings for a port, and for the same one: blanks, at most a plus, and
    the digits of a number up to 65535. So every port can be given to both by its numeral. -/
theorem ports_agree :
    (∀ s, validatePort s = (parsePositiveInt s).getD (-1)) ∧
      (∀ s port, parsePositiveInt s = some port ↔
        1 ≤ port ∧ port ≤ 65535 ∧ ∃ digits, Unsigned s digits ∧ (decimalValue digits : Int) = port) ∧
      ∀ port : Nat, parsePositiveInt (ascii (toString port)) = some (port : Int) ↔
        1 ≤ port ∧ port ≤ 65535 := by
  refine ⟨validatePort_eq, fun s port => parsePositiveInt_eq_some, fun port => ?_⟩
  obtain ⟨hvalue, hdigits⟩ := decimalValue_toString port
  rw [parsePositiveInt_eq_some]
  constructor
  · rintro ⟨hpos, hmax, -⟩
    exact ⟨by omega, by omega⟩
  · rintro ⟨hpos, hmax⟩
    exact ⟨by omega, by omega, _, hdigits, by rw [hvalue]⟩

/-- Both refuse what is behind the number. -/
example : validatePort (ascii "5000 ") = -1 ∧ parsePositiveInt (ascii " +5000") = some 5000 := by
  decide

end ChatMultithread
