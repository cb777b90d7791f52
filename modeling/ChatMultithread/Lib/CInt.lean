import Mathlib.Algebra.Ring.Nat

/-!
# The integer types of C

The values of a C expression are integers, and a conversion to a type of fewer values wraps: an
`int` has 32 bits and a sign, a `size_t` has 64 bits and none. Whether a `char` has a sign is left
to the platform.
-/

namespace ChatMultithread.Lib

/-- `INT_MAX`. -/
def intMax : Nat := 2147483647

/-- `(int)i`. -/
def toInt (i : Int) : Int := i.bmod 4294967296

/-- `(size_t)i`. -/
def toSizeT (i : Int) : Nat := (i % 18446744073709551616).toNat

/-- `a - b` of two `size_t`s. -/
def sizeSub (a b : Nat) : Nat := toSizeT ((a : Int) - b)

/-- The two kinds of `char`. -/
inductive CharSign where
  | signed
  | unsigned
  deriving DecidableEq, Repr

/-- The value of a `char`, as the integer that it is promoted to. -/
def CharSign.read : CharSign → UInt8 → Int
  | .signed, c => (c.toNat : Int).bmod 256
  | .unsigned, c => c.toNat

/-- `(unsigned char)i`. -/
def toUChar (i : Int) : UInt8 := UInt8.ofNat (i % 256).toNat

theorem toInt_of_range {i : Int} (hlo : -2147483648 ≤ i) (hhi : i ≤ 2147483647) : toInt i = i :=
  Int.bmod_eq_of_le (by omega) (by omega)

/-- Numbers up to `INT_MAX` are not changed. -/
theorem toInt_natCast {n : Nat} (h : n ≤ intMax) : toInt n = n := by
  simp only [intMax] at h
  exact toInt_of_range (by omega) (by omega)

theorem toSizeT_natCast {n : Nat} (h : n < 18446744073709551616) : toSizeT n = n := by
  simp only [toSizeT]
  omega

/-- A difference that does not underflow. -/
theorem sizeSub_of_le {a b : Nat} (hle : b ≤ a) (ha : a < 18446744073709551616) :
    sizeSub a b = a - b := by
  simp only [sizeSub, toSizeT]
  omega

namespace CharSign

variable (sign : CharSign) (c : UInt8)

/-- A `char` is its byte, or 256 less where a byte from 128 on is read with a sign. -/
theorem read_cases :
    sign.read c = c.toNat ∨ 128 ≤ c.toNat ∧ sign.read c = (c.toNat : Int) - 256 := by
  have hc : c.toNat < 256 := c.toNat_lt
  cases sign with
  | signed =>
    have hread : signed.read c = (c.toNat : Int).bmod 256 := rfl
    rw [hread, Int.bmod_def]
    split
    · left
      omega
    · right
      omega
  | unsigned => exact .inl rfl

/-- Comparisons with ASCII characters do not depend on the sign. -/
theorem read_between {lo hi : Nat} (hhi : hi ≤ 127) :
    ((lo : Int) ≤ sign.read c ∧ sign.read c ≤ hi) ↔ lo ≤ c.toNat ∧ c.toNat ≤ hi := by
  have hc : c.toNat < 256 := c.toNat_lt
  rcases sign.read_cases c with h | ⟨h128, h⟩
  · rw [h]
    omega
  · rw [h]
    omega

/-- `read_between` at a single character. -/
theorem read_eq_iff {b : Nat} (hb : b ≤ 127) : sign.read c = b ↔ c.toNat = b := by
  have h : (b : Int) ≤ sign.read c ∧ sign.read c ≤ b ↔ b ≤ c.toNat ∧ c.toNat ≤ b :=
    sign.read_between c hb
  omega

/-- A conversion to `unsigned char` gives the byte back. -/
@[simp] theorem toUChar_read : toUChar (sign.read c) = c := by
  have hc : c.toNat < 256 := c.toNat_lt
  have hbyte : (sign.read c % 256).toNat = c.toNat := by
    rcases sign.read_cases c with h | ⟨-, h⟩ <;> rw [h] <;> omega
  rw [toUChar, hbyte, UInt8.ofNat_toNat]

end CharSign

end ChatMultithread.Lib
