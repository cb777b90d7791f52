import ChatMultithread.Client.Usernames
import ChatMultithread.Lib.CInt

/-!
# The usernames that client and server admit

`validate_username` of `src/client/main_client.c` and `is_valid_username` of
`src/common/validation.c`, with the types of the source: a string is the memory from its pointer on,
with a NUL somewhere in it, a `char` has a sign or none, and the length that `strlen` counts is
converted to `int`.
-/

namespace ChatMultithread.Machine

open Lib

/-- The test of `validate_username` on a `char`. -/
def validUsernameChar (c : Int) : Bool :=
  (c ≥ 65 && c ≤ 90) || (c ≥ 97 && c ≤ 122) || (c ≥ 48 && c ≤ 57) || c == 95

/-- The loop of `validate_username` at `p`. The last case is a string without a NUL. -/
def validateUsernameLoop (sign : CharSign) : Int → Bytes → Bool
  | len, b :: p =>
      if sign.read b = 0 then len > 0
      else if len ≥ maxUsernameLen then false
      else if !validUsernameChar (sign.read b) then false
      else validateUsernameLoop sign (toInt (len + 1)) p
  | _, [] => false

/-- `validate_username()` of the client, of a null pointer or a string. -/
def validateUsername (sign : CharSign) : Option Bytes → Bool
  | none => false
  | some username =>
      if sign.read (username.getD 0 0) = 0 then false
      else validateUsernameLoop sign 0 username

/-- `strlen()`. -/
def strlen (s : Bytes) : Nat := (cstr s).length

/-- The rest of the loop of `is_valid_username`, with `left` bytes to go from `i` on. -/
def isValidUsernameLoop (sign : CharSign) (u : Bytes) (i : Nat) : Nat → Bool
  | 0 => true
  | left + 1 =>
      let c := sign.read (u.getD i 0)
      if !isalnum (toUChar c) && c != 95 then false
      else isValidUsernameLoop sign u (i + 1) left

/-- `is_valid_username()` of the server. The loop runs while `i < len`, which a negative `len`
    ends before its first pass. -/
def isValidUsername (sign : CharSign) : Option Bytes → Bool
  | none => false
  | some u =>
      let len := toInt (strlen u)
      if len = 0 ∨ len > maxUser then false
      else isValidUsernameLoop sign u 0 len.toNat

section Chars

variable (sign : CharSign) (b : UInt8)

theorem read_eq_zero : sign.read b = 0 ↔ b = 0 := by
  have hread : sign.read b = 0 ↔ b.toNat = 0 := sign.read_eq_iff b (by decide)
  rw [hread, ← UInt8.toNat_inj, UInt8.toNat_zero]

/-- The test does not depend on the sign: no `char` that is read as a negative number passes. -/
theorem validUsernameChar_read :
    validUsernameChar (sign.read b) = ChatMultithread.validUsernameChar b := by
  have hupper : 65 ≤ sign.read b ∧ sign.read b ≤ 90 ↔ 65 ≤ b.toNat ∧ b.toNat ≤ 90 :=
    sign.read_between b (by decide)
  have hlower : 97 ≤ sign.read b ∧ sign.read b ≤ 122 ↔ 97 ≤ b.toNat ∧ b.toNat ≤ 122 :=
    sign.read_between b (by decide)
  have hdigit : 48 ≤ sign.read b ∧ sign.read b ≤ 57 ↔ 48 ≤ b.toNat ∧ b.toNat ≤ 57 :=
    sign.read_between b (by decide)
  have hunderscore : sign.read b = 95 ↔ b.toNat = 95 := sign.read_eq_iff b (by decide)
  rw [Bool.eq_iff_iff]
  simp only [validUsernameChar, ChatMultithread.validUsernameChar, Bool.or_eq_true,
    Bool.and_eq_true, decide_eq_true_iff, beq_iff_eq, ge_iff_le, UInt8.le_iff_toNat_le,
    ← UInt8.toNat_inj, UInt8.toNat_ofNat]
  rw [hupper, hlower, hdigit, hunderscore]

/-- Neither does the test of `is_valid_username`. -/
theorem isalnum_read :
    (!isalnum (toUChar (sign.read b)) && sign.read b != 95) = !(isalnum b || b == 95) := by
  have hunderscore : sign.read b = 95 ↔ b = 95 := by
    have hread : sign.read b = 95 ↔ b.toNat = 95 := sign.read_eq_iff b (by decide)
    rw [hread, ← UInt8.toNat_inj]
    rfl
  have hbeq : (sign.read b == 95) = (b == 95) := by
    rw [Bool.eq_iff_iff, beq_iff_eq, beq_iff_eq]
    exact hunderscore
  rw [CharSign.toUChar_read, bne, hbeq, Bool.not_or]

end Chars

section Strings

variable (sign : CharSign)

theorem cstr_zero_cons (s : Bytes) : cstr (0 :: s) = [] := by
  simp [cstr]

theorem cstr_cons {b : UInt8} (hb : b ≠ 0) (s : Bytes) : cstr (b :: s) = b :: cstr s := by
  simp [cstr, hb]

/-- The loop of the client reads the bytes in front of the NUL. -/
theorem validateUsernameLoop_eq {len : Nat} (hlen : len ≤ maxUsernameLen) {p : Bytes}
    (hp : (0 : UInt8) ∈ p) :
    validateUsernameLoop sign len p = ChatMultithread.validateUsernameLoop len (cstr p) := by
  induction p generalizing len with
  | nil => exact absurd hp List.not_mem_nil
  | cons b p ih =>
    rw [validateUsernameLoop]
    by_cases hb : b = 0
    · rw [if_pos ((read_eq_zero sign b).2 hb), hb, cstr_zero_cons,
        ChatMultithread.validateUsernameLoop]
      simp
    · have hrest : (0 : UInt8) ∈ p := (List.mem_cons.1 hp).resolve_left (Ne.symm hb)
      rw [if_neg (mt (read_eq_zero sign b).1 hb), cstr_cons hb,
        ChatMultithread.validateUsernameLoop, validUsernameChar_read]
      by_cases hroom : len ≥ maxUsernameLen
      · rw [if_pos (Int.ofNat_le.2 hroom), if_pos hroom]
      · have hcount : toInt ((len : Int) + 1) = ((len + 1 : Nat) : Int) := by
          refine toInt_natCast (n := len + 1) ?_
          simp only [maxUsernameLen, intMax] at hlen ⊢
          omega
        rw [if_neg (mt Int.ofNat_le.1 hroom), if_neg hroom, hcount, ih (by omega) hrest]

theorem validateUsername_cstr {u : Bytes} (hu : (0 : UInt8) ∈ u) :
    validateUsername sign (some u) = ChatMultithread.validateUsername (cstr u) := by
  obtain ⟨b, p, rfl⟩ := List.exists_cons_of_ne_nil (List.ne_nil_of_mem hu)
  rw [validateUsername, ChatMultithread.validateUsername, List.getD_cons_zero]
  by_cases hb : b = 0
  · rw [if_pos ((read_eq_zero sign b).2 hb), hb, cstr_zero_cons, if_pos rfl]
  · have hloop := validateUsernameLoop_eq sign (Nat.zero_le _) hu
    rw [if_neg (mt (read_eq_zero sign b).1 hb), if_neg (by rw [cstr_cons hb]; simp)]
    exact hloop

/-- The loop of the server reads `s` from its index on. -/
theorem isValidUsernameLoop_eq (pre s rest : Bytes) :
    isValidUsernameLoop sign (pre ++ s ++ rest) pre.length s.length =
      s.all fun c => isalnum c || c == 95 := by
  induction s generalizing pre with
  | nil => rfl
  | cons b s ih =>
    have hat : (pre ++ b :: s ++ rest).getD pre.length 0 = b := by simp
    have hsplit : pre ++ [b] ++ s ++ rest = pre ++ b :: s ++ rest := by simp
    have hnext := ih (pre ++ [b])
    rw [hsplit, List.length_append, List.length_singleton] at hnext
    rw [List.length_cons, isValidUsernameLoop, hat, List.all_cons]
    simp only [isalnum_read]
    rw [hnext]
    cases isalnum b || b == 95 <;> rfl

theorem isValidUsername_cstr {u : Bytes} (hlen : strlen u < 2147483648) :
    isValidUsername sign (some u) = ChatMultithread.isValidUsername (cstr u) := by
  have hint : toInt (strlen u) = strlen u := toInt_natCast (Nat.le_of_lt_succ hlen)
  have hloop := isValidUsernameLoop_eq sign [] (cstr u) (u.dropWhile (· ≠ 0))
  rw [List.nil_append, cstr, List.takeWhile_append_dropWhile, List.length_nil] at hloop
  have hguard : ((strlen u : Int) = 0 ∨ (strlen u : Int) > maxUser) ↔
      ((cstr u).length = 0 ∨ (cstr u).length > maxUser) := by
    rw [strlen]
    omega
  rw [isValidUsername, ChatMultithread.isValidUsername, hint, Int.toNat_natCast]
  by_cases hbad : (cstr u).length = 0 ∨ (cstr u).length > maxUser
  · rw [if_pos (hguard.2 hbad), if_pos hbad]
  · rw [if_neg (mt hguard.1 hbad), if_neg hbad]
    exact hloop

end Strings

theorem isalnum_iff (c : UInt8) : isalnum c = true ∨ c = 95 ↔
    65 ≤ c ∧ c ≤ 90 ∨ 97 ≤ c ∧ c ≤ 122 ∨ 48 ≤ c ∧ c ≤ 57 ∨ c = 95 := by
  simp only [isalnum, Bool.or_eq_true, Bool.and_eq_true, decide_eq_true_iff]
  tauto

/-- Client and server admit the same names, whatever the sign of a `char`: the non-empty ones of at
    most 32 letters, digits and underscores. -/
theorem admitted_iff (sign : CharSign) {u : Bytes} (hu : (0 : UInt8) ∈ u)
    (hlen : strlen u < 2147483648) :
    validateUsername sign (some u) = isValidUsername sign (some u) ∧
      (isValidUsername sign (some u) = true ↔
        0 < strlen u ∧ strlen u ≤ 32 ∧
          ∀ c ∈ cstr u, 65 ≤ c ∧ c ≤ 90 ∨ 97 ≤ c ∧ c ≤ 122 ∨ 48 ≤ c ∧ c ≤ 57 ∨ c = 95) := by
  have hserver := isValidUsername_cstr sign hlen
  refine ⟨?_, ?_⟩
  · rw [validateUsername_cstr sign hu, hserver, validateUsername_eq]
  · rw [hserver, isValidUsername_iff, strlen, List.length_pos_iff]
    simp only [isalnum_iff]

/-- A name behind whose NUL the memory goes on. -/
theorem admitted_iff_ana :
    strlen (ascii "ana_1" ++ [0, 124]) < 2147483648 ∧
      validateUsername .signed (some (ascii "ana_1" ++ [0, 124])) =
        isValidUsername .signed (some (ascii "ana_1" ++ [0, 124])) ∧
      isValidUsername .signed (some (ascii "ana_1" ++ [0, 124])) = true := by
  have hlen : strlen (ascii "ana_1" ++ [0, 124]) < 2147483648 := by decide
  obtain ⟨hsame, hadmitted⟩ := admitted_iff .signed (u := ascii "ana_1" ++ [0, 124]) (by decide) hlen
  exact ⟨hlen, hsame, hadmitted.2 ⟨by decide, by decide, by decide +kernel⟩⟩

end ChatMultithread.Machine
