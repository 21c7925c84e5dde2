import Mathlib.Algebra.BigOperators.Group.List.Basic
import Mathlib.Algebra.GroupWithZero.Nat

/-!
# Machine arithmetic

An operation whose result does not fit is undefined in builds with overflow
checks, where it panics, and wraps around in the others.
-/

namespace Machine

def addU32 (checks : Bool) (a b : UInt32) : Option UInt32 :=
  if checks ∧ 2 ^ 32 ≤ a.toNat + b.toNat then none else some (a + b)

def addU64 (checks : Bool) (a b : UInt64) : Option UInt64 :=
  if checks ∧ 2 ^ 64 ≤ a.toNat + b.toNat then none else some (a + b)

def mulU64 (checks : Bool) (a b : UInt64) : Option UInt64 :=
  if checks ∧ 2 ^ 64 ≤ a.toNat * b.toNat then none else some (a * b)

def subU32 (checks : Bool) (a b : UInt32) : Option UInt32 :=
  if checks ∧ a.toNat < b.toNat then none else some (a - b)

def subU64 (checks : Bool) (a b : UInt64) : Option UInt64 :=
  if checks ∧ a.toNat < b.toNat then none else some (a - b)

def sumU64 (checks : Bool) (xs : List UInt64) : Option UInt64 := xs.foldlM (addU64 checks) 0

theorem addU32_of_lt (checks : Bool) {a b : UInt32} (h : a.toNat + b.toNat < 2 ^ 32) :
    addU32 checks a b = some (a + b) := if_neg fun hNot => absurd hNot.2 (Nat.not_le.mpr h)

/-- Whether checked or not, a difference is the difference of the numbers if it is not negative. -/
theorem subU32_toNat_iff (checks : Bool) (a b : UInt32) :
    ((∃ c, subU32 checks a b = some c ∧ c.toNat + b.toNat = a.toNat)) ↔ b.toNat ≤ a.toNat := by
  have hLtA := a.toNat_lt
  have hLtB := b.toNat_lt
  unfold subU32
  split
  · rename_i hUnder
    exact iff_of_false nofun (Nat.not_le.mpr hUnder.2)
  · rw [show (∃ c, some (a - b) = some c ∧ c.toNat + b.toNat = a.toNat) ↔
      (a - b).toNat + b.toNat = a.toNat by simp]
    rw [UInt32.toNat_sub]
    omega

/-- A checked sum is defined when it fits; an unchecked one is taken modulo the word size. -/
theorem foldlM_addU64 (checks : Bool) (xs : List UInt64) (a b : UInt64) :
    xs.foldlM (addU64 checks) a = some b ↔
      (checks → a.toNat + (xs.map UInt64.toNat).sum < 2 ^ 64) ∧
        b.toNat = (a.toNat + (xs.map UInt64.toNat).sum) % 2 ^ 64 := by
  induction xs generalizing a with
  | nil =>
    have hLt := a.toNat_lt
    rw [List.map_nil, List.sum_nil, Nat.add_zero, Nat.mod_eq_of_lt hLt, UInt64.toNat_inj]
    exact ⟨fun h => ⟨fun _ => hLt, (Option.some.inj h).symm⟩, fun h => congrArg some h.2.symm⟩
  | cons x xs ih =>
    rw [List.foldlM_cons, List.map_cons, List.sum_cons, ← Nat.add_assoc]
    unfold addU64
    split
    · rename_i hOver
      refine iff_of_false nofun fun h => ?_
      have := h.1 hOver.1
      omega
    · rename_i hFits
      change xs.foldlM (addU64 checks) (a + x) = some b ↔ _
      rw [ih, UInt64.toNat_add]
      cases checks with
      | false => simp
      | true =>
        have hLt : a.toNat + x.toNat < 2 ^ 64 := by simpa using hFits
        rw [Nat.mod_eq_of_lt hLt]

theorem sumU64_eq_some_iff (checks : Bool) (xs : List UInt64) (b : UInt64) :
    sumU64 checks xs = some b ↔
      (checks → (xs.map UInt64.toNat).sum < 2 ^ 64) ∧
        b.toNat = (xs.map UInt64.toNat).sum % 2 ^ 64 := by
  rw [sumU64, foldlM_addU64]
  simp

theorem dvd_of_mod_thousand {m n : Nat} (h : n * 1000 % m = n) : m ∣ n * 999 := by
  have hDvd := Nat.dvd_sub_mod (n := m) (n * 1000)
  rw [h] at hDvd
  have hSub : n * 1000 - n = n * 999 := by omega
  exact hSub ▸ hDvd

/-- Whether checked or not, no number but zero is its own thousandfold. -/
theorem mulU64_thousand_eq_self_iff (checks : Bool) (a : UInt64) :
    mulU64 checks a 1000 = some a ↔ a = 0 := by
  have hLt := a.toNat_lt
  have hThousand : (1000 : UInt64).toNat = 1000 := rfl
  unfold mulU64
  rw [hThousand]
  split
  · rename_i hOver
    refine iff_of_false nofun ?_
    rintro rfl
    exact absurd hOver.2 (by simp)
  · rw [Option.some_inj, ← UInt64.toNat_inj, ← UInt64.toNat_inj, UInt64.toNat_mul, hThousand,
      UInt64.toNat_zero]
    constructor
    · intro hSame
      have hDvd : 2 ^ 64 ∣ a.toNat * 999 := dvd_of_mod_thousand hSame
      have hCoprime : Nat.Coprime (2 ^ 64) 999 := Nat.Coprime.pow_left 64 (by decide)
      exact Nat.eq_zero_of_dvd_of_lt (hCoprime.dvd_of_dvd_mul_right hDvd) hLt
    · intro hZero
      rw [hZero]

/-- Whether checked or not, a difference is the minuend only if nothing is subtracted. -/
theorem subU64_eq_self_iff (checks : Bool) (a b : UInt64) : subU64 checks a b = some a ↔ b = 0 := by
  unfold subU64
  split
  · rename_i hUnder
    refine iff_of_false nofun ?_
    rintro rfl
    exact absurd hUnder.2 (by simp)
  · rw [Option.some_inj, ← UInt64.toNat_inj, ← UInt64.toNat_inj, UInt64.toNat_sub,
      UInt64.toNat_zero]
    have hLt := a.toNat_lt
    have hLt' := b.toNat_lt
    omega

end Machine
