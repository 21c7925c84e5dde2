import Mathlib.Algebra.GroupWithZero.Nat

/-!
# Short channel ids

Three bytes for the height of the block, three for the index of the transaction and two
for the output, with the height in front.
-/

namespace Kld.ChannelUtils

/-- This value is based on the 3 bytes available for the transaction index. -/
def maxScidTxIndex : UInt64 := 0x00ffffff

/-- This value is based on the 2 bytes available for the output index. -/
def maxScidVoutIndex : UInt64 := 0xffff

def blockFromScid (shortChannelId : UInt64) : UInt32 := (shortChannelId >>> 40).toUInt32

def txIndexFromScid (shortChannelId : UInt64) : UInt32 :=
  ((shortChannelId >>> 16) &&& maxScidTxIndex).toUInt32

def voutFromScid (shortChannelId : UInt64) : UInt16 :=
  (shortChannelId &&& maxScidVoutIndex).toUInt16

variable (scid : UInt64)

theorem blockFromScid_toNat : (blockFromScid scid).toNat = scid.toNat / 2 ^ 40 := by
  have hLt : scid.toNat < 2 ^ 64 := scid.toNat_lt
  have hShift : (scid >>> 40).toNat = scid.toNat / 2 ^ 40 := by
    rw [UInt64.toNat_shiftRight, Nat.shiftRight_eq_div_pow]
    rfl
  rw [blockFromScid, UInt64.toNat_toUInt32, hShift]
  exact Nat.mod_eq_of_lt (by omega)

theorem txIndexFromScid_toNat : (txIndexFromScid scid).toNat = scid.toNat / 2 ^ 16 % 2 ^ 24 := by
  have hMask : maxScidTxIndex.toNat = 2 ^ 24 - 1 := rfl
  have hShift : (scid >>> 16).toNat = scid.toNat / 2 ^ 16 := by
    rw [UInt64.toNat_shiftRight, Nat.shiftRight_eq_div_pow]
    rfl
  rw [txIndexFromScid, UInt64.toNat_toUInt32, UInt64.toNat_and, hMask, hShift,
    Nat.and_two_pow_sub_one_eq_mod]
  exact Nat.mod_eq_of_lt (by omega)

theorem voutFromScid_toNat : (voutFromScid scid).toNat = scid.toNat % 2 ^ 16 := by
  have hMask : maxScidVoutIndex.toNat = 2 ^ 16 - 1 := rfl
  rw [voutFromScid, UInt64.toNat_toUInt16, UInt64.toNat_and, hMask,
    Nat.and_two_pow_sub_one_eq_mod]
  exact Nat.mod_eq_of_lt (by omega)

theorem blockFromScid_lt : (blockFromScid scid).toNat < 2 ^ 24 := by
  have hLt : scid.toNat < 2 ^ 64 := scid.toNat_lt
  rw [blockFromScid_toNat]
  exact Nat.div_lt_of_lt_mul (by omega)

theorem txIndexFromScid_lt : (txIndexFromScid scid).toNat < 2 ^ 24 := by
  rw [txIndexFromScid_toNat]
  exact Nat.mod_lt _ (by omega)

/-- The three fields are put together again. -/
theorem scid_eq : ((blockFromScid scid).toUInt64 <<< 40) |||
    ((txIndexFromScid scid).toUInt64 <<< 16) ||| (voutFromScid scid).toUInt64 = scid := by
  have hLt : scid.toNat < 2 ^ 64 := scid.toNat_lt
  have hBlock : ((blockFromScid scid).toUInt64 <<< 40).toNat = 2 ^ 40 * (scid.toNat / 2 ^ 40) := by
    rw [UInt64.toNat_shiftLeft, UInt32.toNat_toUInt64, blockFromScid_toNat, Nat.shiftLeft_eq,
      Nat.mul_comm]
    exact Nat.mod_eq_of_lt (by simp; omega)
  have hTx : ((txIndexFromScid scid).toUInt64 <<< 16).toNat =
      2 ^ 16 * (scid.toNat / 2 ^ 16 % 2 ^ 24) := by
    rw [UInt64.toNat_shiftLeft, UInt32.toNat_toUInt64, txIndexFromScid_toNat, Nat.shiftLeft_eq,
      Nat.mul_comm]
    exact Nat.mod_eq_of_lt (by simp; omega)
  -- each field lies below the lowest bit of the field in front of it
  have hLow := Nat.two_pow_add_eq_or_of_lt (i := 16) (b := scid.toNat % 2 ^ 16)
    (Nat.mod_lt _ (by omega)) (scid.toNat / 2 ^ 16 % 2 ^ 24)
  have hHigh := Nat.two_pow_add_eq_or_of_lt (i := 40)
    (b := 2 ^ 16 * (scid.toNat / 2 ^ 16 % 2 ^ 24) + scid.toNat % 2 ^ 16) (by omega)
    (scid.toNat / 2 ^ 40)
  apply UInt64.toNat_inj.mp
  rw [UInt64.toNat_or, UInt64.toNat_or, UInt16.toNat_toUInt64, voutFromScid_toNat, hBlock, hTx,
    Nat.or_assoc, ← hLow, ← hHigh]
  omega

end Kld.ChannelUtils
