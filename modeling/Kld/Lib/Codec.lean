import Mathlib.Data.Nat.Digits.Lemmas
import Mathlib.Logic.Equiv.List

/-!
# Serialisation of values

A codec writes a value as bytes and reads it back; nothing is said about bytes
that it has not written. Every encodable type has one, through the base 256
digits of the number that encodes a value.
-/

namespace Serial

universe u

/-- Reading back what was written restores the value. -/
structure Codec (α : Type u) where
  write : α → List UInt8
  read : List UInt8 → Option α
  read_write : ∀ a, read (write a) = some a

attribute [simp] Codec.read_write

theorem Codec.write_injective {α : Type u} (codec : Codec α) : Function.Injective codec.write := by
  intro a b h
  have hRead := congrArg codec.read h
  rw [codec.read_write, codec.read_write] at hRead
  exact Option.some.inj hRead

def digits (n : Nat) : List UInt8 := (Nat.digits 256 n).map UInt8.ofNat

def value (bytes : List UInt8) : Nat := Nat.ofDigits 256 (bytes.map UInt8.toNat)

theorem value_digits (n : Nat) : value (digits n) = n := by
  have hDigits : ((Nat.digits 256 n).map UInt8.ofNat).map UInt8.toNat = Nat.digits 256 n := by
    rw [List.map_map]
    calc
      (Nat.digits 256 n).map (UInt8.toNat ∘ UInt8.ofNat) = (Nat.digits 256 n).map id := by
        apply List.map_congr_left
        intro d hd
        have hLt : d < 256 := Nat.digits_lt_base (by decide) hd
        simp [Nat.mod_eq_of_lt hLt]
      _ = Nat.digits 256 n := List.map_id _
  rw [value, digits, hDigits, Nat.ofDigits_digits]

def Codec.ofEncodable (α : Type u) [Encodable α] : Codec α where
  write a := digits (Encodable.encode a)
  read bytes := Encodable.decode (value bytes)
  read_write a := by rw [value_digits, Encodable.encodek]

instance encodableUInt8 : Encodable UInt8 := .ofLeftInverse UInt8.toNat UInt8.ofNat fun a => by simp

instance encodableUInt16 : Encodable UInt16 :=
  .ofLeftInverse UInt16.toNat UInt16.ofNat fun a => by simp

instance encodableUInt32 : Encodable UInt32 :=
  .ofLeftInverse UInt32.toNat UInt32.ofNat fun a => by simp

instance encodableUInt64 : Encodable UInt64 :=
  .ofLeftInverse UInt64.toNat UInt64.ofNat fun a => by simp

instance encodableBitVec {n : Nat} : Encodable (BitVec n) :=
  .ofLeftInverse BitVec.toNat (BitVec.ofNat n) fun a => by simp

instance encodableVector {α : Type u} [Encodable α] {n : Nat} : Encodable (Vector α n) :=
  .ofLeftInjection Vector.toList
    (fun xs => if h : xs.length = n then some ⟨xs.toArray, by simpa using h⟩ else none)
    fun v => by simp [Vector.toList, Vector.mk_toArray]

end Serial
