import ChatMultithread.Lib.CString

/-!
# Decimal numbers

`strtol` with base 10 in the `"C"` locale, and the `long` of 64 bits. It skips blanks, takes a sign
and reads digits as far as they go; a number outside of the `long`s is replaced by the nearest one.
-/

namespace ChatMultithread.Lib

/-- `isspace()` in the `"C"` locale. -/
def isspace (c : UInt8) : Bool := c == 32 || (9 ≤ c && c ≤ 13)

/-- `isdigit()`. -/
def isdigit (c : UInt8) : Bool := 48 ≤ c && c ≤ 57

/-- `LONG_MAX`. -/
def longMax : Int := 9223372036854775807

/-- `LONG_MIN`. -/
def longMin : Int := -9223372036854775808

/-- The number that digits stand for. -/
def decimalValue (digits : Bytes) : Nat := digits.foldl (fun n c => 10 * n + (c.toNat - 48)) 0

/-- The sign in front of a number, here whether it is a minus, and what stands behind it. -/
def takeSign : Bytes → Bool × Bytes
  | [] => (false, [])
  | b :: s => if b = 45 then (true, s) else if b = 43 then (false, s) else (false, b :: s)

/-- What `strtol` returns, the string behind its end pointer, and whether it sets `errno`. -/
structure Strtol where
  value : Int
  stop : Bytes
  erange : Bool
  deriving DecidableEq, Repr

/-- `strtol(s, &stop, 10)`. Where no number stands, the end pointer is `s` itself. -/
def strtol (s : Bytes) : Strtol :=
  let signed := takeSign (s.dropWhile isspace)
  let digits := signed.2.takeWhile isdigit
  let stop := signed.2.dropWhile isdigit
  let n : Int := if signed.1 then -(decimalValue digits) else decimalValue digits
  if digits = [] then ⟨0, s, false⟩
  else ⟨max longMin (min longMax n), stop, n < longMin || longMax < n⟩

/-- Blanks, an optional plus, and digits. -/
structure Unsigned (s digits : Bytes) : Prop where
  split : ∃ blanks sign, s = blanks ++ sign ++ digits ∧ (∀ b ∈ blanks, isspace b = true) ∧
    (sign = [] ∨ sign = [43])
  ne_nil : digits ≠ []
  digits : ∀ b ∈ digits, isdigit b = true

theorem not_isspace_of_isdigit {b : UInt8} (h : isdigit b = true) : isspace b = false := by
  simp only [isdigit, isspace, Bool.and_eq_true, decide_eq_true_eq, UInt8.le_iff_toNat_le,
    Bool.or_eq_false_iff, beq_eq_false_iff_ne, Bool.and_eq_false_iff, decide_eq_false_iff_not] at h ⊢
  have h48 : (48 : UInt8).toNat = 48 := rfl
  have h13 : (13 : UInt8).toNat = 13 := rfl
  refine ⟨?_, .inr ?_⟩
  · rintro rfl
    exact absurd h.1 (by decide)
  · omega

theorem takeSign_cases (s : Bytes) :
    s = 45 :: (takeSign s).2 ∧ (takeSign s).1 = true ∨
      ∃ sign, s = sign ++ (takeSign s).2 ∧ (sign = [] ∨ sign = [43]) ∧ (takeSign s).1 = false := by
  unfold takeSign
  split
  · exact .inr ⟨[], rfl, .inl rfl, rfl⟩
  · split
    · rename_i h
      exact .inl ⟨by rw [h], rfl⟩
    · split
      · rename_i h
        exact .inr ⟨[43], by rw [h]; rfl, .inr rfl, rfl⟩
      · exact .inr ⟨[], rfl, .inl rfl, rfl⟩

/-- The number of an unsigned numeral is read whole, unless no `long` is as big. -/
theorem Unsigned.strtol {s digits : Bytes} (h : Unsigned s digits)
    (hmax : (decimalValue digits : Int) ≤ longMax) :
    strtol s = ⟨decimalValue digits, [], false⟩ := by
  obtain ⟨⟨blanks, sign, rfl, hblanks, hsign⟩, hne, hdigits⟩ := h
  obtain ⟨d, ds, rfl⟩ := List.exists_cons_of_ne_nil hne
  have hd := hdigits d List.mem_cons_self
  have hdrop : (blanks ++ sign ++ d :: ds).dropWhile isspace = sign ++ d :: ds := by
    rw [List.append_assoc, List.dropWhile_append_of_pos hblanks]
    rcases hsign with rfl | rfl
    · exact List.dropWhile_cons_of_neg (by simp [not_isspace_of_isdigit hd])
    · exact List.dropWhile_cons_of_neg (by decide)
  have hsigned : takeSign (sign ++ d :: ds) = (false, d :: ds) := by
    rcases hsign with rfl | rfl
    · have hplain : d ≠ 45 ∧ d ≠ 43 := by
        constructor
        all_goals
          rintro rfl
          revert hd
          decide
      rw [List.nil_append, takeSign, if_neg hplain.1, if_neg hplain.2]
    · rfl
  have htake : (d :: ds).takeWhile isdigit = d :: ds := List.takeWhile_eq_self_iff.2 hdigits
  have hstop : (d :: ds).dropWhile isdigit = [] := List.dropWhile_eq_nil_iff.2 hdigits
  have hmin : longMin ≤ (decimalValue (d :: ds) : Int) := by
    unfold longMin
    omega
  unfold Lib.strtol
  simp only [hdrop, hsigned, htake, hstop, Bool.false_eq_true, if_false, if_neg (List.cons_ne_nil d ds),
    Int.min_eq_right hmax, Int.max_eq_right hmin, Int.not_lt.2 hmax, Int.not_lt.2 hmin, decide_false,
    Bool.or_self]

/-- A positive number behind which nothing stands comes from an unsigned numeral. -/
theorem unsigned_of_strtol {s : Bytes} (hstop : (strtol s).stop = []) (hpos : 0 < (strtol s).value)
    (hmax : (strtol s).value < longMax) :
    ∃ digits, Unsigned s digits ∧ (strtol s).value = decimalValue digits := by
  have hblanks : ∀ b ∈ s.takeWhile isspace, isspace b = true := fun b hb => List.mem_takeWhile_imp hb
  have hsplit := List.takeWhile_append_dropWhile (p := isspace) (l := s)
  have hsigned := takeSign_cases (s.dropWhile isspace)
  have hrest := List.takeWhile_append_dropWhile (p := isdigit) (l := (takeSign (s.dropWhile isspace)).2)
  have hdigits : ∀ b ∈ (takeSign (s.dropWhile isspace)).2.takeWhile isdigit, isdigit b = true :=
    fun b hb => List.mem_takeWhile_imp hb
  dsimp only [strtol] at hstop hpos hmax ⊢
  generalize (takeSign (s.dropWhile isspace)).1 = minus at *
  generalize (takeSign (s.dropWhile isspace)).2.takeWhile isdigit = digits at *
  by_cases hnil : digits = []
  · rw [if_pos hnil] at hpos
    exact absurd hpos (Int.lt_irrefl 0)
  rw [if_neg hnil] at hstop hpos hmax ⊢
  generalize hn : (if minus = true then -(decimalValue digits : Int) else decimalValue digits) =
    n at *
  have hvalue : max longMin (min longMax n) = n := by
    simp only [longMax, longMin] at *
    omega
  simp only [hvalue] at hstop hpos ⊢
  rw [hstop, List.append_nil] at hrest
  rcases hsigned with ⟨-, rfl⟩ | ⟨sign, hsign, hplus, rfl⟩
  · rw [if_pos rfl] at hn
    omega
  · refine ⟨digits, ⟨⟨s.takeWhile isspace, sign, ?_, hblanks, hplus⟩, hnil, hdigits⟩, hn.symm⟩
    rw [List.append_assoc, hrest, ← hsign, hsplit]

/-- The digits of a number stand for it. -/
theorem decimalValue_toString (n : Nat) :
    decimalValue (ascii (toString n)) = n ∧ Unsigned (ascii (toString n)) (ascii (toString n)) := by
  have hchars : ascii (toString n) = (Nat.toDigits 10 n).map fun c => UInt8.ofNat c.toNat := by
    rw [ascii]
    exact congrArg _ Nat.toList_repr
  have hdigit : ∀ c ∈ Nat.toDigits 10 n, 48 ≤ c.toNat ∧ c.toNat ≤ 57 := by
    intro c hc
    have h := Nat.isDigit_of_mem_toDigits (by decide) (by decide) hc
    simp only [Char.isDigit, Bool.and_eq_true, decide_eq_true_eq] at h
    exact h
  have hfold : ∀ (cs : List Char) (acc : Nat), (∀ c ∈ cs, 48 ≤ c.toNat ∧ c.toNat ≤ 57) →
      (cs.map fun c => UInt8.ofNat c.toNat).foldl (fun n c => 10 * n + (c.toNat - 48)) acc =
        Nat.ofDigitChars 10 cs acc := by
    intro cs
    induction cs with
    | nil => exact fun _ _ => Nat.ofDigitChars_nil.symm
    | cons c cs ih =>
      intro acc hcs
      have hc := hcs c List.mem_cons_self
      have hbyte : (UInt8.ofNat c.toNat).toNat = c.toNat := UInt8.toNat_ofNat_of_lt' (by
        show c.toNat < 256
        omega)
      rw [List.map_cons, List.foldl_cons, Nat.ofDigitChars_cons, hbyte]
      exact ih _ fun d hd => hcs d (List.mem_cons_of_mem _ hd)
  constructor
  · rw [decimalValue, hchars, hfold _ _ hdigit]
    exact Nat.ofDigitChars_toDigits (by decide) (by decide)
  · refine ⟨⟨[], [], rfl, List.forall_mem_nil _, .inl rfl⟩, ?_, ?_⟩
    · rw [hchars]
      exact fun h => Nat.toDigits_ne_nil (List.map_eq_nil_iff.1 h)
    · rw [hchars]
      intro b hb
      obtain ⟨c, hc, rfl⟩ := List.mem_map.1 hb
      have hrange := hdigit c hc
      simp only [isdigit, Bool.and_eq_true, decide_eq_true_eq, UInt8.le_iff_toNat_le]
      rw [UInt8.toNat_ofNat_of_lt' (by show c.toNat < 256; omega)]
      exact hrange

end ChatMultithread.Lib
