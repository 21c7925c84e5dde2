import Mathlib.Algebra.BigOperators.Group.List.Basic
import Kld.Lib.Run

/-!
# Fee estimates

Once a minute bitcoind is asked for an estimate for each class of urgency. Estimates are
in satoshis per 1000 virtual bytes, the rates of the classes, also their defaults, in
satoshis per 1000 weight units.
-/

namespace Kld.BitcoindClient

open Transition

/-- In satoshis per 1000 weight units. -/
def minFeerate : UInt32 := 2000

inductive EstimateMode where
  | unset
  | economical
  | conservative
deriving DecidableEq

structure PriorityClass where
  feeRate : UInt32
  defaultFeeRate : UInt32
  nBlocks : UInt16
  estimateMode : EstimateMode
deriving DecidableEq

inductive Class where
  | background
  | normal
  | high
deriving DecidableEq

structure Priorities where
  background : PriorityClass
  normal : PriorityClass
  high : PriorityClass
deriving DecidableEq

inductive ConfirmationTarget where
  | onChainSweep
  | minAllowedAnchorChannelRemoteFee
  | minAllowedNonAnchorChannelRemoteFee
  | anchorChannelFee
  | nonAnchorChannelFee
  | channelCloseMinimum
deriving DecidableEq

/-- The answer to `estimatesmartfee`: the call failed, its text is no result, or the result has
a fee in satoshis per 1000 virtual bytes or none. -/
inductive Answer where
  | error
  | malformed
  | result (feeRate : Option UInt64)
deriving DecidableEq

namespace Priorities

def new : Priorities where
  background := ⟨minFeerate, minFeerate, 72, .conservative⟩
  normal := ⟨5000, 5000, 18, .conservative⟩
  high := ⟨10000, 10000, 6, .conservative⟩

def get (p : Priorities) : Class → PriorityClass
  | .background => p.background
  | .normal => p.normal
  | .high => p.high

/-- A base class and a multiplier. -/
def priorityOf : ConfirmationTarget → Class × Option Float32
  | .onChainSweep => (.high, none)
  | .nonAnchorChannelFee => (.normal, none)
  | .channelCloseMinimum | .anchorChannelFee | .minAllowedAnchorChannelRemoteFee
  | .minAllowedNonAnchorChannelRemoteFee => (.background, none)

def store (p : Priorities) (c : Class) (fee : UInt32) : Priorities :=
  match c with
  | .background => { p with background := { p.background with feeRate := fee } }
  | .normal => { p with normal := { p.normal with feeRate := fee } }
  | .high => { p with high := { p.high with feeRate := fee } }

def listClass : List Class := [.background, .normal, .high]

end Priorities

open Priorities

def getEstSatPer1000Weight (p : Priorities) (target : ConfirmationTarget) : UInt32 :=
  let (priority, multiplier) := priorityOf target
  let base := (p.get priority).feeRate
  match multiplier with
  | some multiplier => (base.toFloat32 * multiplier).toUInt32
  | none => base

/-- The conversion to 32 bits drops the upper ones. -/
def feeOf (c : PriorityClass) (feeRate : Option UInt64) : UInt32 :=
  max (feeRate.getD c.defaultFeeRate.toUInt64 / 4).toUInt32 minFeerate

/-- What bitcoind answers for a number of blocks in which to confirm. -/
abbrev Bitcoind := UInt16 → EstimateMode → Answer

def estimatesmartfee (bitcoind : Bitcoind) (c : PriorityClass) : Answer :=
  bitcoind c.nBlocks c.estimateMode

def estimateClass (bitcoind : Bitcoind) (p : Priorities) (c : Class) : Priorities :=
  match estimatesmartfee bitcoind (p.get c) with
  | .result feeRate => p.store c (feeOf (p.get c) feeRate)
  | .malformed | .error => p

def estimateFee (p : Priorities) (bitcoind : Bitcoind) : Priorities :=
  listClass.foldl (estimateClass bitcoind) p

/-- The rate of a class after a round, according to the comments. -/
def documentedRate (c : PriorityClass) : Answer → Nat
  | .result (some amount) => max minFeerate.toNat (amount.toNat / 4)
  | .result none => c.defaultFeeRate.toNat
  | .malformed | .error => c.feeRate.toNat

structure Documented (p : Priorities) (bitcoind : Bitcoind) (p' : Priorities) : Prop where
  rate : ∀ c, (p'.get c).feeRate.toNat =
    documentedRate (p.get c) (estimatesmartfee bitcoind (p.get c))
  not_truncated : ∀ c amount, estimatesmartfee bitcoind (p.get c) = .result (some amount) →
    amount.toNat / 4 ≤ (p'.get c).feeRate.toNat

structure Sound (p : Priorities) : Prop where
  floor : ∀ c, minFeerate ≤ (p.get c).feeRate
  target : ∀ target, getEstSatPer1000Weight p target = (p.get (priorityOf target).1).feeRate

/-- Every round does what is documented, and the rates are sound before and after it. -/
def FeesFollow (rounds : List Bitcoind) : Prop :=
  Along (total estimateFee) (fun p bitcoind => Documented p bitcoind (estimateFee p bitcoind))
      Priorities.new rounds ∧
    Always (total estimateFee) Sound Priorities.new rounds

/-- Estimates from 171 bitcoins per 1000 virtual bytes on do not fit, and only the default of the
background class is as low as the floor. -/
def Converted (c : Class) : Answer → Prop
  | .result (some amount) => amount.toNat < 2 ^ 34
  | .result none => c = .background
  | .malformed | .error => True

/-- What a round makes of one class. -/
def PriorityClass.answered (c : PriorityClass) : Answer → PriorityClass
  | .result feeRate => { c with feeRate := feeOf c feeRate }
  | .malformed | .error => c

theorem get_store (p : Priorities) (c c' : Class) (fee : UInt32) :
    (p.store c fee).get c' = if c' = c then { p.get c with feeRate := fee } else p.get c' := by
  cases c <;> cases c' <;> rfl

theorem estimateClass_get (bitcoind : Bitcoind) (p : Priorities) (c c' : Class) :
    (estimateClass bitcoind p c).get c' =
      if c' = c then (p.get c).answered (estimatesmartfee bitcoind (p.get c)) else p.get c' := by
  have hSame : p.get c' = if c' = c then p.get c else p.get c' := by
    split
    · rename_i hEq
      rw [hEq]
    · rfl
  unfold estimateClass
  cases estimatesmartfee bitcoind (p.get c) with
  | result feeRate => exact get_store p c c' _
  | malformed => exact hSame
  | error => exact hSame

theorem estimateFee_get (p : Priorities) (bitcoind : Bitcoind) (c : Class) :
    (estimateFee p bitcoind).get c =
      (p.get c).answered (estimatesmartfee bitcoind (p.get c)) := by
  simp only [estimateFee, listClass, List.foldl_cons, List.foldl_nil, estimateClass_get]
  cases c <;> rfl

/-- Nothing but the rates changes, and they stay above the floor. -/
structure Kept (p : Priorities) : Prop where
  settings : ∀ c, ∃ rate, p.get c = { Priorities.new.get c with feeRate := rate }
  floor : ∀ c, minFeerate ≤ (p.get c).feeRate

theorem new_kept : Kept Priorities.new :=
  ⟨fun c => ⟨(Priorities.new.get c).feeRate, rfl⟩, fun c => by cases c <;> decide⟩

theorem toNat_feeOf (c : PriorityClass) (feeRate : Option UInt64) : (feeOf c feeRate).toNat =
    max (feeRate.elim c.defaultFeeRate.toNat UInt64.toNat / 4 % 2 ^ 32) minFeerate.toNat := by
  rw [feeOf, UInt32.toNat_max, UInt64.toNat_toUInt32, UInt64.toNat_div]
  cases feeRate <;> rfl

theorem minFeerate_le_feeOf (c : PriorityClass) (feeRate : Option UInt64) :
    minFeerate ≤ feeOf c feeRate := by
  rw [UInt32.le_iff_toNat_le, toNat_feeOf]
  exact Nat.le_max_right _ _

theorem Kept.estimateFee {p : Priorities} (h : Kept p) (bitcoind : Bitcoind) :
    Kept (estimateFee p bitcoind) := by
  refine ⟨fun c => ?_, fun c => ?_⟩
  · obtain ⟨rate, hRate⟩ := h.settings c
    rw [estimateFee_get, hRate]
    cases estimatesmartfee bitcoind _ with
    | result feeRate => exact ⟨_, rfl⟩
    | malformed => exact ⟨rate, rfl⟩
    | error => exact ⟨rate, rfl⟩
  · rw [estimateFee_get]
    cases estimatesmartfee bitcoind _ with
    | result feeRate => exact minFeerate_le_feeOf _ feeRate
    | malformed => exact h.floor c
    | error => exact h.floor c

theorem Kept.sound {p : Priorities} (h : Kept p) : Sound p :=
  ⟨h.floor, fun target => by cases target <;> rfl⟩

/-- A class has the documented rate exactly if the answer for it was converted. -/
theorem answered_rate_iff {p : Priorities} (h : Kept p) (c : Class) (answer : Answer) :
    ((p.get c).answered answer).feeRate.toNat = documentedRate (p.get c) answer ↔
      Converted c answer := by
  obtain ⟨rate, hRate⟩ := h.settings c
  cases answer with
  | result feeRate =>
    dsimp only [PriorityClass.answered]
    rw [toNat_feeOf]
    cases feeRate with
    | some amount =>
      have hLt := amount.toNat_lt
      dsimp only [documentedRate, Converted, Option.elim, minFeerate]
      rw [show (2000 : UInt32).toNat = 2000 from rfl]
      omega
    | none =>
      -- a quarter of the default is the default only where both are the floor
      rw [hRate]
      dsimp only [documentedRate, Converted, Option.elim]
      cases c with
      | background => decide
      | normal => decide
      | high => decide
  | malformed => exact iff_of_true rfl trivial
  | error => exact iff_of_true rfl trivial

theorem documented_iff {p : Priorities} (h : Kept p) (bitcoind : Bitcoind) :
    Documented p bitcoind (estimateFee p bitcoind) ↔
      ∀ c, Converted c (estimatesmartfee bitcoind (Priorities.new.get c)) := by
  have hAnswer : ∀ c, estimatesmartfee bitcoind (p.get c) =
      estimatesmartfee bitcoind (Priorities.new.get c) := by
    intro c
    obtain ⟨rate, hRate⟩ := h.settings c
    rw [hRate]
    rfl
  have hRates : (∀ c, ((estimateFee p bitcoind).get c).feeRate.toNat =
        documentedRate (p.get c) (estimatesmartfee bitcoind (p.get c))) ↔
      ∀ c, Converted c (estimatesmartfee bitcoind (Priorities.new.get c)) := by
    refine forall_congr' fun c => ?_
    rw [estimateFee_get, answered_rate_iff h, hAnswer]
  refine ⟨fun hDocumented => hRates.mp hDocumented.rate, fun hConverted => ?_⟩
  have hRate := hRates.mpr hConverted
  refine ⟨hRate, fun c amount hAmount => ?_⟩
  rw [hRate c, hAmount]
  exact Nat.le_max_right _ _

theorem feesFollow_iff (rounds : List Bitcoind) : FeesFollow rounds ↔
    ∀ bitcoind ∈ rounds, ∀ c, Converted c (estimatesmartfee bitcoind (Priorities.new.get c)) := by
  have hKeep : ∀ p bitcoind p', Kept p → total estimateFee p bitcoind = some p' → Kept p' := by
    rintro p bitcoind p' h hStep
    exact Option.some.inj hStep ▸ h.estimateFee bitcoind
  have hSound : Always (total estimateFee) Sound Priorities.new rounds :=
    always_of_invariant hKeep (fun _ => Kept.sound) new_kept rounds
  refine (and_iff_left hSound).trans ?_
  exact along_iff_forall hKeep (fun _ bitcoind h => documented_iff h bitcoind) new_kept
    (run_total estimateFee Priorities.new rounds)

/-- A new node knows of no fees: bitcoind has no estimate. -/
theorem missing_estimate_quarters_default : ¬ FeesFollow [fun _ _ => .result none] := by
  intro h
  have hRate := h.1.1.rate .normal
  exact absurd hRate (by decide)

end Kld.BitcoindClient
