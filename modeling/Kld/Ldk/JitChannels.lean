import Kld.Ldk.OpenChannel
import Kld.Lib.Machine

/-!
# The user channel ids of ordinary and of JIT channels

Ids that requests draw are below a boundary, ids that are drawn for JIT channels
are not. The handler of channels that are ready compares with the same boundary,
which it leaves out.
-/

namespace Kld.OpenChannel

open Sql

/-- The id that `open_channel` makes of a random value. -/
def userChannelId (random : UInt64) : UInt64 := random / 2

/-- The id for a JIT channel. The sum is made in 64 bits. -/
def jitUserChannelId (checks : Bool) (random : UInt64) : Option (BitVec 128) :=
  (Machine.addU64 checks (random / 2) 9223372036854775808).map asU128

/-- What the handler of `ChannelReady` takes for a JIT channel. -/
def isJitChannel (userChannelId : BitVec 128) : Bool := userChannelId > 9223372036854775808

/-- What touches the pending requests: a request to open a channel, and an event that answers. -/
inductive PendingStep where
  | openChannel (random : UInt64) (feeRate : FeeRate)
  | event (userChannelId : BitVec 128)

abbrev Pending := AsyncSenders UInt64 FeeRate UInt64

def pendingStep (pending : Pending) : PendingStep → Pending
  | .openChannel random feeRate =>
    pending.register (userChannelId random) feeRate (userChannelId random)
  | .event id => (pending.get (asU64 id)).elim pending Prod.snd

/-- Whatever was requested and happened, an event with this id finds no request. -/
def AnswersNone (id : BitVec 128) : Prop :=
  ∀ steps : List PendingStep, (steps.foldl pendingStep ∅).get (asU64 id) = none

/-- The ids of both kinds are in range, told apart by the handler and kept by the casts, and events
of the JIT channel answer no request. -/
structure ToldApart (random : UInt64) (jit : BitVec 128) : Prop where
  ordinary : isJitChannel (asU128 (userChannelId random)) = false
  isJit : isJitChannel jit = true
  ordinary_lt : (asU128 (userChannelId random)).toNat < 2 ^ 63
  jit_range : 2 ^ 63 ≤ jit.toNat ∧ jit.toNat < 2 ^ 64
  ordinary_kept : asU128 (asU64 (asU128 (userChannelId random))) = asU128 (userChannelId random)
  jit_kept : asU128 (asU64 jit) = jit
  answers_none : AnswersNone jit

def TellsApart (checks : Bool) (random randomJit : UInt64) : Prop :=
  ∃ jit, jitUserChannelId checks randomJit = some jit ∧ ToldApart random jit

theorem asU128_toNat (id : UInt64) : (asU128 id).toNat = id.toNat := by
  unfold asU128
  rw [BitVec.toNat_setWidth]
  exact Nat.mod_eq_of_lt (by have := id.toNat_lt; omega)

theorem userChannelId_toNat (random : UInt64) :
    (userChannelId random).toNat = random.toNat / 2 := UInt64.toNat_div random 2

theorem userChannelId_lt (random : UInt64) : (userChannelId random).toNat < 2 ^ 63 := by
  have hLt := random.toNat_lt
  rw [userChannelId_toNat]
  omega

theorem isJitChannel_iff (id : UInt64) :
    isJitChannel (asU128 id) = true ↔ 2 ^ 63 < id.toNat := by
  unfold isJitChannel
  rw [decide_eq_true_iff, gt_iff_lt, BitVec.lt_def, asU128_toNat]
  rfl

/-- The sum fits, whether it is checked or not. -/
theorem jitUserChannelId_eq (checks : Bool) (random : UInt64) :
    ∃ id, jitUserChannelId checks random = some (asU128 id) ∧
      id.toNat = random.toNat / 2 + 2 ^ 63 := by
  have hLt := userChannelId_lt random
  have hSum : (random / 2).toNat + (9223372036854775808 : UInt64).toNat < 2 ^ 64 := by
    rw [show (9223372036854775808 : UInt64).toNat = 2 ^ 63 from rfl]
    exact Nat.lt_of_lt_of_le (Nat.add_lt_add_right hLt _) (by decide)
  refine ⟨random / 2 + 9223372036854775808, ?_, ?_⟩
  · unfold jitUserChannelId Machine.addU64
    rw [if_neg fun hOver => Nat.not_le.mpr hSum hOver.2]
    rfl
  · rw [UInt64.toNat_add, Nat.mod_eq_of_lt hSum]
    exact congrArg (· + 2 ^ 63) (userChannelId_toNat random)

/-- Only ids that were drawn for ordinary channels are pending. -/
theorem pending_lt {pending : Pending} (h : ∀ id ∈ pending, id.toNat < 2 ^ 63)
    (step : PendingStep) : ∀ id ∈ pendingStep pending step, id.toNat < 2 ^ 63 := by
  cases step with
  | openChannel random feeRate =>
    intro id hMem
    rcases (AList.mem_insert _).mp hMem with rfl | hMem
    · exact userChannelId_lt random
    · exact h id hMem
  | event userChannelId =>
    intro id hMem
    unfold pendingStep at hMem
    dsimp only at hMem
    cases hGet : pending.get (asU64 userChannelId) with
    | none =>
      rw [hGet] at hMem
      exact h id hMem
    | some answered =>
      rw [hGet] at hMem
      obtain ⟨entry, pending'⟩ := answered
      obtain ⟨_, rfl⟩ := AsyncSenders.get_eq_some_iff.mp hGet
      exact h id (AList.mem_erase.mp hMem).2

theorem run_pending_lt (steps : List PendingStep) {pending : Pending}
    (h : ∀ id ∈ pending, id.toNat < 2 ^ 63) :
    ∀ id ∈ steps.foldl pendingStep pending, id.toNat < 2 ^ 63 := by
  induction steps generalizing pending with
  | nil => exact h
  | cons step steps ih => exact ih (pending_lt h step)

theorem answersNone_of_le {id : UInt64} (h : 2 ^ 63 ≤ id.toNat) : AnswersNone (asU128 id) := by
  intro steps
  rw [asU64_asU128, AsyncSenders.get_eq_none_iff, AList.lookup_eq_none]
  intro hMem
  have hLt := run_pending_lt steps
    (fun id hMem => absurd hMem (AList.notMem_empty id)) id hMem
  exact absurd h (Nat.not_le.mpr hLt)

/-- The two kinds of channels are told apart unless the value for the JIT channel is drawn at the
boundary. -/
theorem tellsApart_iff (checks : Bool) (random randomJit : UInt64) :
    TellsApart checks random randomJit ↔ 2 ≤ randomJit := by
  obtain ⟨id, hJit, hId⟩ := jitUserChannelId_eq checks randomJit
  have hLt := id.toNat_lt
  rw [UInt64.le_iff_toNat_le]
  constructor
  · rintro ⟨jit, hSame, hApart⟩
    obtain rfl := Option.some.inj (hJit.symm.trans hSame)
    have hAbove := (isJitChannel_iff id).mp hApart.isJit
    change 2 ≤ randomJit.toNat
    omega
  · intro hDrawn
    change 2 ≤ randomJit.toNat at hDrawn
    refine ⟨asU128 id, hJit, ?_, ?_, ?_, ?_, ?_, ?_, answersNone_of_le (by omega)⟩
    · rw [← Bool.not_eq_true, isJitChannel_iff]
      exact Nat.not_lt.mpr (Nat.le_of_lt (userChannelId_lt random))
    · exact (isJitChannel_iff id).mpr (by omega)
    · rw [asU128_toNat]
      exact userChannelId_lt random
    · rw [asU128_toNat]
      exact ⟨by omega, hLt⟩
    · rw [asU64_asU128]
    · rw [asU64_asU128]

/-- A JIT channel of the value zero is taken for an ordinary one. -/
theorem drawn_at_boundary : ¬ TellsApart true 0 0 := by
  rintro ⟨jit, hJit, hApart⟩
  obtain rfl := Option.some.inj hJit
  exact absurd hApart.isJit (by decide)

end Kld.OpenChannel
