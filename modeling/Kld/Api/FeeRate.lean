import Kld.Ldk.OpenChannel
import Kld.Lib.Decimal
import Kld.Lib.Trim

/-!
# The text form of fee rates

A rate is a word, or a number with its unit. The unit is taken off as often as it is
there, and the number may have a plus sign.
-/

namespace Kld.OpenChannel.FeeRate

open Decimal Trim

section Texts

def serialize : FeeRate → String
  | .urgent => "urgent"
  | .normal => "normal"
  | .slow => "slow"
  | .perKw x => toString x.toNat ++ "perkw"
  | .perKb x => toString x.toNat ++ "perkb"

structure ParseFeeRateError where
  message : String
deriving DecidableEq

/-- The number before the unit. -/
def readRate (unit s : String) : Except ParseFeeRateError UInt32 :=
  (u32FromStr (String.ofList (trimEndMatches unit.toList s.toList))).mapError fun _ =>
    ⟨"expected u32 for " ++ unit⟩

def fromStr (s : String) : Except ParseFeeRateError FeeRate :=
  if s = "urgent" then .ok .urgent
  else if s = "normal" then .ok .normal
  else if s = "slow" then .ok .slow
  else if "perkw".toList <:+ s.toList then (readRate "perkw" s).map .perKw
  else if "perkb".toList <:+ s.toList then (readRate "perkb" s).map .perKb
  else .error
    ⟨"unknown fee rate. Expecting one of urgent/normal/slow/<sats>perkw/<sats>perkb"⟩

def visitStr (v : String) : Except String FeeRate := (fromStr v).mapError (·.message)

end Texts

def words : List (String × FeeRate) := [("urgent", .urgent), ("normal", .normal), ("slow", .slow)]

def units : List (String × (UInt32 → FeeRate)) := [("perkw", .perKw), ("perkb", .perKb)]

/-- A word, or the digits of a number and one unit. -/
def Spells (s : String) (r : FeeRate) : Prop :=
  (s, r) ∈ words ∨ ∃ unit ∈ units, ∃ digits x, s.toList = digits ++ unit.1.toList ∧
    IsDecimal digits x.toNat ∧ r = unit.2 x

/-- A number with a plus sign, or with its unit more than once. -/
def Lenient (s : String) : Prop :=
  ∃ unit ∈ units, ∃ number n, ∃ x : UInt32, s.toList = number ++ repeated n unit.1.toList ∧
    1 ≤ n ∧ IsNumber number x.toNat ∧ ('+' ∈ number ∨ 2 ≤ n)

section Reading

variable {unit s : String} {x : UInt32}

theorem IsNumber.isDigit_or {number : List Char} {n : Nat} (h : IsNumber number n) {c : Char}
    (hMem : c ∈ number) : c.isDigit ∨ c = '+' := by
  obtain ⟨digits, rfl | rfl, hDigits⟩ := h
  · exact Or.inl (hDigits.isDigit c hMem)
  · rcases List.mem_cons.mp hMem with hPlus | hMem
    · exact Or.inr hPlus
    · exact Or.inl (hDigits.isDigit c hMem)

theorem not_suffix_number (hUnit : 'p' ∈ unit.toList) {number : List Char} {n : Nat}
    (h : IsNumber number n) : ¬ unit.toList <:+ number := fun hEnds =>
  absurd (IsNumber.isDigit_or h (hEnds.mem hUnit)) (by decide)

theorem readRate_eq_ok_iff (hUnit : 'p' ∈ unit.toList) (hEnds : unit.toList <:+ s.toList) :
    readRate unit s = .ok x ↔ ∃ number n, s.toList = number ++ repeated n unit.toList ∧ 1 ≤ n ∧
      IsNumber number x.toNat := by
  have hRead : readRate unit s = .ok x ↔
      IsNumber (trimEndMatches unit.toList s.toList) x.toNat := by
    have hIff := u32FromStr_eq_ok_iff (n := x)
      (s := String.ofList (trimEndMatches unit.toList s.toList))
    rw [String.toList_ofList] at hIff
    rw [← hIff, readRate]
    cases u32FromStr (String.ofList (trimEndMatches unit.toList s.toList)) <;>
      simp [Except.mapError]
  have hTrim : ∀ number, trimEndMatches unit.toList s.toList = number ↔
      ¬ unit.toList <:+ number ∧ ∃ n, s.toList = number ++ repeated n unit.toList :=
    fun number => trimEndMatches_eq_iff (List.ne_nil_of_mem hUnit)
  rw [hRead]
  constructor
  · intro hNumber
    obtain ⟨hNot, n, hText⟩ := (hTrim _).mp rfl
    refine ⟨_, n, hText, Nat.one_le_iff_ne_zero.mpr ?_, hNumber⟩
    rintro rfl
    rw [repeated, List.replicate_zero, List.flatten_nil, List.append_nil] at hText
    exact hNot (hText ▸ hEnds)
  · rintro ⟨number, n, hText, _, hNumber⟩
    rwa [(hTrim number).mpr ⟨not_suffix_number hUnit hNumber, n, hText⟩]

theorem suffix_of_repeated {number : List Char} {n : Nat} (hn : 1 ≤ n)
    (hText : s.toList = number ++ repeated n unit.toList) : unit.toList <:+ s.toList := by
  obtain ⟨n, rfl⟩ : ∃ m, n = m + 1 := ⟨n - 1, by omega⟩
  rw [hText, repeated_succ, ← List.append_assoc]
  exact List.suffix_append _ _

theorem not_suffix_word {r : FeeRate} (hWord : (s, r) ∈ words) :
    ∀ unit ∈ units, ¬ unit.1.toList <:+ s.toList := by
  have hAll : ∀ word ∈ words.map Prod.fst, ∀ unit ∈ units.map Prod.fst,
      ¬ unit.toList <:+ word.toList := by decide
  exact fun unit hUnit => hAll s (List.mem_map_of_mem hWord) unit.1 (List.mem_map_of_mem hUnit)

/-- A text ends with one of the units at most. -/
theorem unit_unique {unit unit' : String × (UInt32 → FeeRate)} (hUnit : unit ∈ units)
    (hUnit' : unit' ∈ units) (hEnds : unit.1.toList <:+ s.toList)
    (hEnds' : unit'.1.toList <:+ s.toList) : unit = unit' := by
  have hAll : ∀ unit ∈ units.map Prod.fst, ∀ unit' ∈ units.map Prod.fst,
      unit.toList.length ≤ unit'.toList.length ∧
        (unit.toList <:+ unit'.toList → unit = unit') := by decide
  obtain ⟨hLength, hSame⟩ := hAll unit.1 (List.mem_map_of_mem hUnit) unit'.1
    (List.mem_map_of_mem hUnit')
  have hName := hSame (List.suffix_of_suffix_length_le hEnds hEnds' hLength)
  simp only [units, List.mem_cons, List.not_mem_nil, or_false] at hUnit hUnit'
  rcases hUnit with rfl | rfl <;> rcases hUnit' with rfl | rfl <;>
    first | rfl | exact absurd hName (by decide)

theorem mem_unit {unit : String × (UInt32 → FeeRate)} (hUnit : unit ∈ units) :
    'p' ∈ unit.1.toList := by
  have hAll : ∀ unit ∈ units.map Prod.fst, 'p' ∈ unit.toList := by decide
  exact hAll unit.1 (List.mem_map_of_mem hUnit)

theorem fromStr_word {r : FeeRate} (hWord : (s, r) ∈ words) : fromStr s = .ok r := by
  simp only [words, List.mem_cons, Prod.mk.injEq, List.not_mem_nil, or_false] at hWord
  rcases hWord with ⟨rfl, rfl⟩ | ⟨rfl, rfl⟩ | ⟨rfl, rfl⟩ <;> rfl

theorem fromStr_unit {unit : String × (UInt32 → FeeRate)} (hUnit : unit ∈ units)
    (hEnds : unit.1.toList <:+ s.toList) :
    fromStr s = (readRate unit.1 s).map unit.2 := by
  have hNot : ∀ word ∈ words.map Prod.fst, s ≠ word := by
    rintro word hWord rfl
    obtain ⟨⟨_, r⟩, hMem, rfl⟩ := List.mem_map.mp hWord
    exact not_suffix_word hMem unit hUnit hEnds
  rw [fromStr, if_neg (hNot "urgent" (by decide)), if_neg (hNot "normal" (by decide)),
    if_neg (hNot "slow" (by decide))]
  have hUnit' := hUnit
  simp only [units, List.mem_cons, List.not_mem_nil, or_false] at hUnit'
  rcases hUnit' with rfl | rfl
  · exact if_pos hEnds
  · have hOther : ¬ "perkw".toList <:+ s.toList := by
      intro hOther
      have hSame := unit_unique List.mem_cons_self hUnit hOther hEnds
      exact absurd (congrArg Prod.fst hSame) (by decide)
    rw [if_neg hOther]
    exact if_pos hEnds

theorem word_of_no_unit {r : FeeRate} (h : ∀ unit ∈ units, ¬ unit.1.toList <:+ s.toList)
    (hOk : fromStr s = .ok r) : (s, r) ∈ words := by
  have hKw : ¬ "perkw".toList <:+ s.toList := h ("perkw", .perKw) List.mem_cons_self
  have hKb : ¬ "perkb".toList <:+ s.toList :=
    h ("perkb", .perKb) (List.mem_cons_of_mem _ List.mem_cons_self)
  unfold fromStr at hOk
  rw [if_neg hKw, if_neg hKb] at hOk
  split at hOk
  · rename_i hUrgent
    cases hOk
    simp [words, hUrgent]
  · split at hOk
    · rename_i hNormal
      cases hOk
      simp [words, hNormal]
    · split at hOk
      · rename_i hSlow
        cases hOk
        simp [words, hSlow]
      · cases hOk

/-- What is read: a word, or a number and its unit some number of times. -/
theorem fromStr_eq_ok_iff {r : FeeRate} : fromStr s = .ok r ↔
    (s, r) ∈ words ∨ ∃ unit ∈ units, ∃ number n x, s.toList = number ++ repeated n unit.1.toList ∧
      1 ≤ n ∧ IsNumber number x.toNat ∧ r = unit.2 x := by
  constructor
  · intro hOk
    by_cases hSome : ∃ unit ∈ units, unit.1.toList <:+ s.toList
    · obtain ⟨unit, hUnit, hEnds⟩ := hSome
      rw [fromStr_unit hUnit hEnds] at hOk
      cases hRate : readRate unit.1 s with
      | error e =>
        rw [hRate] at hOk
        cases hOk
      | ok x =>
        rw [hRate] at hOk
        obtain ⟨number, n, hText, hn, hNumber⟩ :=
          (readRate_eq_ok_iff (mem_unit hUnit) hEnds).mp hRate
        exact Or.inr ⟨unit, hUnit, number, n, x, hText, hn, hNumber, (Except.ok.inj hOk).symm⟩
    · refine Or.inl (word_of_no_unit (fun unit hUnit hEnds => ?_) hOk)
      exact hSome ⟨unit, hUnit, hEnds⟩
  · rintro (hWord | ⟨unit, hUnit, number, n, x, hText, hn, hNumber, rfl⟩)
    · exact fromStr_word hWord
    · have hEnds := suffix_of_repeated hn hText
      rw [fromStr_unit hUnit hEnds, (readRate_eq_ok_iff (mem_unit hUnit) hEnds).mpr
        ⟨number, n, hText, hn, hNumber⟩]
      rfl

end Reading

section Grammar

variable {s : String} {r : FeeRate}

theorem fromStr_of_spells (h : Spells s r) : fromStr s = .ok r := by
  refine fromStr_eq_ok_iff.mpr (h.imp_right ?_)
  rintro ⟨unit, hUnit, digits, x, hText, hDigits, rfl⟩
  refine ⟨unit, hUnit, digits, 1, x, ?_, Nat.le_refl 1, ⟨digits, Or.inl rfl, hDigits⟩, rfl⟩
  rw [hText, repeated, List.replicate_one, List.flatten_singleton]

theorem spells_or_lenient (hOk : fromStr s = .ok r) : Spells s r ∨ Lenient s := by
  rcases fromStr_eq_ok_iff.mp hOk with hWord | ⟨unit, hUnit, number, n, x, hText, hn, hNumber, rfl⟩
  · exact Or.inl (Or.inl hWord)
  · rcases Nat.lt_or_ge 1 n with hMany | hOne
    · exact Or.inr ⟨unit, hUnit, number, n, x, hText, hn, hNumber, Or.inr hMany⟩
    · obtain rfl : n = 1 := by omega
      obtain ⟨digits, rfl | rfl, hDigits⟩ := hNumber
      · refine Or.inl (Or.inr ⟨unit, hUnit, number, x, ?_, hDigits, rfl⟩)
        rw [hText, repeated, List.replicate_one, List.flatten_singleton]
      · exact Or.inr ⟨unit, hUnit, _, 1, x, hText, hn, ⟨digits, Or.inr rfl, hDigits⟩,
          Or.inl List.mem_cons_self⟩

theorem not_spells_of_lenient (h : Lenient s) (r : FeeRate) : ¬ Spells s r := by
  obtain ⟨unit, hUnit, number, n, x, hText, hn, hNumber, hLenient⟩ := h
  have hEnds := suffix_of_repeated hn hText
  rintro (hWord | ⟨unit', hUnit', digits, y, hText', hDigits, rfl⟩)
  · exact not_suffix_word hWord unit hUnit hEnds
  · have hEnds' : unit'.1.toList <:+ s.toList := hText' ▸ List.suffix_append _ _
    obtain rfl := unit_unique hUnit hUnit' hEnds hEnds'
    obtain ⟨n, rfl⟩ : ∃ m, n = m + 1 := ⟨n - 1, by omega⟩
    have hSame : digits = number ++ repeated n unit.1.toList := by
      rw [hText', repeated_succ, ← List.append_assoc] at hText
      exact List.append_cancel_right hText
    rcases hLenient with hPlus | hMany
    · exact absurd (hDigits.isDigit '+' (hSame ▸ List.mem_append_left _ hPlus)) (by decide)
    · obtain ⟨n, rfl⟩ : ∃ m, n = m + 1 := ⟨n - 1, by omega⟩
      have hMem : 'p' ∈ digits := by
        rw [hSame, repeated_succ]
        exact List.mem_append_right _ (List.mem_append_right _ (mem_unit hUnit))
      exact absurd (hDigits.isDigit 'p' hMem) (by decide)

theorem fromStr_of_lenient (h : Lenient s) : ∃ r, fromStr s = .ok r := by
  obtain ⟨unit, hUnit, number, n, x, hText, hn, hNumber, _⟩ := h
  exact ⟨unit.2 x, fromStr_eq_ok_iff.mpr
    (Or.inr ⟨unit, hUnit, number, n, x, hText, hn, hNumber, rfl⟩)⟩

theorem spells_serialize (r : FeeRate) : Spells r.serialize r := by
  have hDecimal : ∀ n, IsDecimal (Nat.toDigits 10 n) n := fun n =>
    ⟨Nat.toDigits_ne_nil, fun c hc => Nat.isDigit_of_mem_toDigits (by omega) (by omega) hc,
      Nat.ofDigitChars_ten_toDigits⟩
  have hChars : ∀ n : Nat, (toString n).toList = Nat.toDigits 10 n := fun n => Nat.toList_repr
  cases r with
  | urgent | normal | slow => exact Or.inl (by simp [words, serialize])
  | perKw x =>
    refine Or.inr ⟨("perkw", .perKw), by simp [units], _, x, ?_, hDecimal x.toNat, rfl⟩
    rw [serialize, String.toList_append, hChars]
  | perKb x =>
    refine Or.inr ⟨("perkb", .perKb), by simp [units], _, x, ?_, hDecimal x.toNat, rfl⟩
    rw [serialize, String.toList_append, hChars]

/-- Every rate is read back. A text is read as it is spelled unless it is lenient. -/
theorem fromStr_spells_iff (rate : FeeRate) (s : String) :
    (fromStr rate.serialize = .ok rate ∧ visitStr rate.serialize = .ok rate) ∧
      ((∀ r, fromStr s = .ok r ↔ Spells s r) ↔ ¬ Lenient s) := by
  refine ⟨?_, fun hAll hLenient => ?_, fun hNot r => ⟨fun hOk => ?_, ?_⟩⟩
  · have hOk := fromStr_of_spells (spells_serialize rate)
    refine ⟨hOk, ?_⟩
    rw [visitStr, hOk]
    rfl
  · obtain ⟨r, hOk⟩ := fromStr_of_lenient hLenient
    exact not_spells_of_lenient hLenient r ((hAll r).mp hOk)
  · exact (spells_or_lenient hOk).resolve_right hNot
  · exact fromStr_of_spells

/-- A rate with two units is read, and so is one with a plus sign. -/
theorem two_units_read :
    fromStr "5perkwperkw" = .ok (.perKw 5) ∧ fromStr "+5perkb" = .ok (.perKb 5) ∧
      ¬ ∀ s r, fromStr s = .ok r ↔ Spells s r := by
  have hOk : fromStr "5perkwperkw" = .ok (.perKw 5) := by decide
  refine ⟨hOk, by decide, fun hAll => ?_⟩
  have hDigit : ∀ c ∈ ['5'], c.isDigit := List.forall_mem_singleton.mpr rfl
  have hNumber : IsNumber ['5'] 5 := ⟨['5'], Or.inl rfl, by decide, hDigit, by decide⟩
  have hLenient : Lenient "5perkwperkw" :=
    ⟨("perkw", .perKw), List.mem_cons_self, ['5'], 2, 5, by decide, by omega, hNumber,
      Or.inr (Nat.le_refl 2)⟩
  exact not_spells_of_lenient hLenient _ ((hAll _ _).mp hOk)

end Grammar

end Kld.OpenChannel.FeeRate
