import Mathlib.Data.List.Basic

/-!
# Unsigned decimal numbers

A number is read digit by digit, and reading stops at the first character that is
no digit and at the first digit with which the number is out of bounds. A leading
plus sign and leading zeros are accepted, so a number has more than one spelling.
-/

namespace Decimal

inductive ParseIntError where
  | empty
  | invalidDigit
  | posOverflow
deriving DecidableEq

def ParseIntError.message : ParseIntError → String
  | .empty => "cannot parse integer from empty string"
  | .invalidDigit => "invalid digit found in string"
  | .posOverflow => "number too large to fit in target type"

def digitsBelow (bound acc : Nat) : List Char → Except ParseIntError Nat
  | [] => .ok acc
  | c :: cs =>
    if c.isDigit then
      if 10 * acc + (c.toNat - '0'.toNat) < bound then
        digitsBelow bound (10 * acc + (c.toNat - '0'.toNat)) cs
      else .error .posOverflow
    else .error .invalidDigit

def readChars (bound : Nat) : List Char → Except ParseIntError Nat
  | [] => .error .empty
  | ['+'] => .error .invalidDigit
  | '+' :: cs => digitsBelow bound 0 cs
  | cs => digitsBelow bound 0 cs

/-- The numbers below `bound`, as `from_str` of an unsigned type of that size reads them. -/
def fromStr (bound : Nat) (s : String) : Except ParseIntError Nat := readChars bound s.toList

theorem le_ofDigitChars (acc : Nat) (cs : List Char) : acc ≤ Nat.ofDigitChars 10 cs acc := by
  rw [Nat.ofDigitChars_eq_ofDigitChars_zero]
  have hPow : 0 < 10 ^ cs.length := Nat.pow_pos (by omega)
  exact Nat.le_add_right_of_le (Nat.le_mul_of_pos_left acc hPow)

theorem digitsBelow_of_lt {bound acc : Nat} {cs : List Char} (hDigits : ∀ c ∈ cs, c.isDigit)
    (hLt : Nat.ofDigitChars 10 cs acc < bound) :
    digitsBelow bound acc cs = .ok (Nat.ofDigitChars 10 cs acc) := by
  induction cs generalizing acc with
  | nil =>
    rw [Nat.ofDigitChars_nil]
    rfl
  | cons c cs ih =>
    rw [Nat.ofDigitChars_cons] at hLt ⊢
    have hHead := le_ofDigitChars (10 * acc + (c.toNat - '0'.toNat)) cs
    rw [digitsBelow, if_pos (hDigits c List.mem_cons_self), if_pos (by omega)]
    exact ih (fun d hd => hDigits d (List.mem_cons_of_mem c hd)) hLt

theorem digitsBelow_eq_ok_iff {bound acc n : Nat} {cs : List Char} (hAcc : acc < bound) :
    digitsBelow bound acc cs = .ok n ↔
      (∀ c ∈ cs, c.isDigit) ∧ Nat.ofDigitChars 10 cs acc = n ∧ n < bound := by
  constructor
  · intro hOk
    induction cs generalizing acc with
    | nil =>
      cases hOk
      exact ⟨fun c hc => absurd hc List.not_mem_nil, Nat.ofDigitChars_nil, hAcc⟩
    | cons c cs ih =>
      rw [digitsBelow] at hOk
      split at hOk
      · rename_i hDigit
        split at hOk
        · rename_i hLt
          obtain ⟨hDigits, hValue, hBound⟩ := ih hLt hOk
          rw [Nat.ofDigitChars_cons]
          exact ⟨List.forall_mem_cons.mpr ⟨hDigit, hDigits⟩, hValue, hBound⟩
        · cases hOk
      · cases hOk
  · rintro ⟨hDigits, rfl, hLt⟩
    exact digitsBelow_of_lt hDigits hLt

theorem readChars_of_digits {bound : Nat} {cs : List Char} (hCs : cs ≠ [])
    (hDigits : ∀ c ∈ cs, c.isDigit) : readChars bound cs = digitsBelow bound 0 cs := by
  unfold readChars
  split
  · exact absurd rfl hCs
  · exact absurd (hDigits '+' List.mem_cons_self) (by decide)
  · exact absurd (hDigits '+' List.mem_cons_self) (by decide)
  · rfl

/-- The digits of a number in decimal. -/
structure IsDecimal (digits : List Char) (n : Nat) : Prop where
  ne_nil : digits ≠ []
  isDigit : ∀ c ∈ digits, c.isDigit
  value : Nat.ofDigitChars 10 digits 0 = n

/-- The digits, after a plus sign or without one. -/
def IsNumber (cs : List Char) (n : Nat) : Prop :=
  ∃ digits, (cs = digits ∨ cs = '+' :: digits) ∧ IsDecimal digits n

theorem readChars_eq_ok_iff {bound n : Nat} {cs : List Char} (hBound : 0 < bound) :
    readChars bound cs = .ok n ↔ n < bound ∧ IsNumber cs n := by
  constructor
  · intro hOk
    unfold readChars at hOk
    split at hOk
    · cases hOk
    · cases hOk
    · rename_i digits hNe
      obtain ⟨hDigits, hValue, hLt⟩ := (digitsBelow_eq_ok_iff hBound).mp hOk
      exact ⟨hLt, digits, Or.inr rfl, hNe, hDigits, hValue⟩
    · rename_i hNil _ _
      obtain ⟨hDigits, hValue, hLt⟩ := (digitsBelow_eq_ok_iff hBound).mp hOk
      exact ⟨hLt, cs, Or.inl rfl, hNil, hDigits, hValue⟩
  · rintro ⟨hLt, digits, rfl | rfl, hNe, hDigits, hValue⟩
    · rw [readChars_of_digits hNe hDigits]
      exact (digitsBelow_eq_ok_iff hBound).mpr ⟨hDigits, hValue, hLt⟩
    · obtain ⟨c, cs, rfl⟩ := List.exists_cons_of_ne_nil hNe
      exact (digitsBelow_eq_ok_iff hBound).mpr ⟨hDigits, hValue, hLt⟩

theorem fromStr_toString {bound n : Nat} (h : n < bound) :
    fromStr bound (toString n) = .ok n := by
  have hChars : (toString n).toList = Nat.toDigits 10 n := Nat.toList_repr
  have hDigits : ∀ c ∈ Nat.toDigits 10 n, c.isDigit := fun c hc =>
    Nat.isDigit_of_mem_toDigits (by omega) (by omega) hc
  have hValue := Nat.ofDigitChars_ten_toDigits (n := n)
  rw [fromStr, hChars, readChars_of_digits Nat.toDigits_ne_nil hDigits,
    digitsBelow_of_lt hDigits (by omega), hValue]

def u64FromStr (s : String) : Except ParseIntError UInt64 := (fromStr UInt64.size s).map .ofNat

def u32FromStr (s : String) : Except ParseIntError UInt32 := (fromStr UInt32.size s).map .ofNat

theorem u32FromStr_eq_ok_iff {s : String} {n : UInt32} :
    u32FromStr s = .ok n ↔ IsNumber s.toList n.toNat := by
  have hRead : ∀ m, fromStr UInt32.size s = .ok m ↔ m < UInt32.size ∧ IsNumber s.toList m :=
    fun m => readChars_eq_ok_iff (by decide)
  constructor
  · intro hOk
    unfold u32FromStr at hOk
    cases hFrom : fromStr UInt32.size s with
    | error e =>
      rw [hFrom] at hOk
      cases hOk
    | ok m =>
      rw [hFrom] at hOk
      obtain rfl : UInt32.ofNat m = n := Except.ok.inj hOk
      obtain ⟨hLt, hDigits⟩ := (hRead m).mp hFrom
      rwa [UInt32.toNat_ofNat_of_lt' hLt]
  · intro hDigits
    rw [u32FromStr, (hRead n.toNat).mpr ⟨n.toNat_lt_size, hDigits⟩]
    exact congrArg Except.ok UInt32.ofNat_toNat

example : u64FromStr "+0018446744073709551615" = .ok 18446744073709551615 := by decide

end Decimal
