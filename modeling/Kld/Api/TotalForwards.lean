import Kld.Api.Forwards

/-!
# The totals of forwards

What the database adds up of the stored forwards, beside what the events passed on and what
the listing shows.
-/

namespace Kld.Api

open Sql Fallible EventReplay

structure GetFeesResponse where
  feeCollected : UInt64
deriving DecidableEq

def getFees (forwards : Table Uuid ForwardRow) : Option GetFeesResponse :=
  (fetchTotalForwards forwards).map fun total => ⟨total.fee⟩

/-- The amount and the fee of a payment that was passed on. -/
def Delivery.passed (delivery : Delivery) : Option (UInt64 × UInt64) :=
  match delivery.event with
  | .paymentForwarded (some _) (some _) (some fee) (some amount) => some (amount, fee)
  | _ => none

/-- The numbers, as they are stored, have a sum that is cast. -/
def Fits (xs : List UInt64) : Prop :=
  -2 ^ 63 ≤ (xs.map fun x => x.toInt64.toInt).sum ∧ (xs.map fun x => x.toInt64.toInt).sum < 2 ^ 63

/-- The totals of the amounts and the fees of the payments that were passed on. -/
structure Totals (total : TotalForwards) (passed : List (UInt64 × UInt64)) : Prop where
  count : total.count.toNat = passed.length % 2 ^ 64
  amount : total.amount.toNat = (passed.map fun pay => pay.1.toNat).sum % 2 ^ 64
  fee : total.fee.toNat = (passed.map fun pay => pay.2.toNat).sum % 2 ^ 64

/-- The listing shows the payments that were passed on, each once. -/
def Shows (entries : List ForwardEntry) (passed : List (UInt64 × UInt64)) : Prop :=
  (entries.map fun entry => (entry.inMsat, entry.feeMsat)).Perm
    (passed.map fun pay => (some pay.1, some pay.2))

variable {codec : Serial.Codec ChannelDetails} {deliveries : List Delivery}

theorem toInt64_modEq (x : UInt64) : x.toInt64.toInt ≡ (x.toNat : Int) [ZMOD 2 ^ 64] := by
  have hBits : x.toInt64.toInt = (x.toNat : Int).bmod (2 ^ 64) := x.toBitVec.toInt_eq_toNat_bmod
  rw [hBits]
  exact Int.bmod_emod

theorem sum_modEq (xs : List UInt64) :
    (xs.map fun x => x.toInt64.toInt).sum ≡ ((xs.map UInt64.toNat).sum : Nat) [ZMOD 2 ^ 64] := by
  induction xs with
  | nil => rfl
  | cons x xs ih =>
    rw [List.map_cons, List.sum_cons, List.map_cons, List.sum_cons, Nat.cast_add]
    exact (toInt64_modEq x).add ih

theorem toUInt64_ofInt (n : Int) : ((Int64.ofInt n).toUInt64.toNat : Int) = n % 2 ^ 64 := by
  change ((Int64.ofInt n).toBitVec.toNat : Int) = _
  rw [Int64.toBitVec_ofInt, BitVec.toNat_ofInt, Int.toNat_of_nonneg (Int.emod_nonneg _ (by decide))]
  rfl

theorem sumColumn_perm {column column' : List (Option Int64)} (h : column.Perm column') :
    sumColumn column = sumColumn column' := by
  rw [sumColumn, ((h.filterMap id).map Int64.toInt).sum_eq, sumColumn]

theorem sumColumn_stored (xs : List UInt64) :
    sumColumn (xs.map fun x => some x.toInt64) =
      castInt (xs.map fun x => x.toInt64.toInt).sum := by
  have hKnown : (xs.map fun x => some x.toInt64).filterMap id = xs.map UInt64.toInt64 := by
    rw [List.filterMap_map]
    exact congrFun List.filterMap_eq_map xs
  rw [sumColumn, hKnown, List.map_map]
  rfl

/-- The sum of a column of stored numbers, read back, is that of the numbers where it is one. -/
theorem sumColumn_eq_some_iff {xs : List UInt64} {total : Int64} :
    sumColumn (xs.map fun x => some x.toInt64) = some total ↔
      Fits xs ∧ total = .ofInt (xs.map fun x => x.toInt64.toInt).sum := by
  rw [sumColumn_stored, castInt, Option.ite_none_right_eq_some, Option.some.injEq, eq_comm]
  rfl

theorem toNat_sum (xs : List UInt64) :
    (Int64.ofInt (xs.map fun x => x.toInt64.toInt).sum).toUInt64.toNat =
      (xs.map UInt64.toNat).sum % 2 ^ 64 := by
  have hSum := toUInt64_ofInt (xs.map fun x => x.toInt64.toInt).sum
  rw [sum_modEq xs] at hSum
  exact_mod_cast hSum

theorem hasStatus_some_iff {wanted found : ForwardStatus} :
    HasStatus (some wanted) found ↔ found = wanted :=
  ⟨fun h => h wanted rfl, fun h _ hWanted => h.trans (Option.some.inj hWanted)⟩

theorem passed_forward (delivery : Delivery) :
    ((delivery.forward.filter fun forward => HasStatus (some .succeeded) forward.status).map
      fun forward => (forward.amount, forward.fee)) =
      delivery.passed.map fun pay => (some pay.1, some pay.2) := by
  obtain ⟨env, draw, event⟩ := delivery
  cases event with
  | paymentForwarded prev next fee amount =>
    cases prev <;> cases next <;> cases fee <;> cases amount
    case some.some.some.some =>
      simp [Delivery.forward, Delivery.passed, Forward.success, hasStatus_some_iff]
    all_goals rfl
  | htlcHandlingFailed prev destination =>
    simp [Delivery.forward, Delivery.passed, Forward.failure, hasStatus_some_iff]
  | _ => rfl

theorem map_succeeded (deliveries : List Delivery) :
    ((deliveries.filterMap Delivery.forward).filter fun forward =>
        HasStatus (some .succeeded) forward.status).map
      (fun forward => (forward.amount, forward.fee)) =
      (deliveries.filterMap Delivery.passed).map fun pay => (some pay.1, some pay.2) := by
  rw [List.filter_filterMap, List.map_filterMap, List.map_filterMap]
  exact List.filterMap_congr fun delivery _ => passed_forward delivery

/-- The forwards of one status are those of the events, in some order. -/
theorem fetchForwards_perm
    (hIds : ((deliveries.filterMap Delivery.forward).map Forward.id).Nodup)
    (status : Option ForwardStatus) :
    (fetchForwards status (handleAll codec deliveries default).forwards).Perm
      ((deliveries.filterMap Delivery.forward).filter fun forward =>
        HasStatus status forward.status) := by
  have hFetched : Lists Forward.id
      (fetchForwards status (handleAll codec deliveries default).forwards) _ :=
    lists_fetchForwards hIds status
  have hStored := (Lists.of_nodup hIds).filter fun forward => HasStatus status forward.status
  refine (List.perm_ext_iff_of_nodup (.of_map _ hFetched.keys_nodup)
    (.of_map _ hStored.keys_nodup)).mpr fun forward => ?_
  rw [hFetched.mem_iff, hStored.mem_iff]

theorem fetchForwards_passed (codec : Serial.Codec ChannelDetails)
    (hIds : ((deliveries.filterMap Delivery.forward).map Forward.id).Nodup) :
    ((fetchForwards (some .succeeded) (handleAll codec deliveries default).forwards).map
        fun forward => (forward.amount, forward.fee)).Perm
      ((deliveries.filterMap Delivery.passed).map fun pay => (some pay.1, some pay.2)) :=
  ((fetchForwards_perm hIds _).map _).trans (.of_eq (map_succeeded deliveries))

/-- The rows that are added up hold what was passed on. -/
theorem rows_passed (codec : Serial.Codec ChannelDetails)
    (hIds : ((deliveries.filterMap Delivery.forward).map Forward.id).Nodup) :
    (((handleAll codec deliveries default).forwards.rows.filter fun row =>
        row.2.status = .succeeded).map fun row => (row.2.amount, row.2.fee)).Perm
      ((deliveries.filterMap Delivery.passed).map fun pay =>
        (some pay.1.toInt64, some pay.2.toInt64)) := by
  have hPassed := (fetchForwards_passed codec hIds).map fun pay =>
    (pay.1.map UInt64.toInt64, pay.2.map UInt64.toInt64)
  rw [List.map_map, List.map_map] at hPassed
  refine List.Perm.trans (List.Perm.symm ?_) hPassed
  unfold fetchForwards
  rw [List.map_map]
  refine ((List.mergeSort_perm _ _).map _).trans (.of_eq ?_)
  rw [List.filter_congr fun row _ => decide_eq_decide.mpr hasStatus_some_iff]
  refine List.map_congr_left fun row _ => ?_
  obtain ⟨id, row⟩ := row
  simp [Forward.ofRow, Function.comp_def]

/-- The total of the numbers as they are stored. -/
def storedTotal (xs : List UInt64) : UInt64 :=
  (Int64.ofInt (xs.map fun x => x.toInt64.toInt).sum).toUInt64

theorem fetchTotalForwards_eq_some_iff
    (hIds : ((deliveries.filterMap Delivery.forward).map Forward.id).Nodup)
    {total : TotalForwards} :
    fetchTotalForwards (handleAll codec deliveries default).forwards = some total ↔
      (Fits ((deliveries.filterMap Delivery.passed).map Prod.fst) ∧
        Fits ((deliveries.filterMap Delivery.passed).map Prod.snd)) ∧
      total = ⟨.ofNat (deliveries.filterMap Delivery.passed).length,
        storedTotal ((deliveries.filterMap Delivery.passed).map Prod.fst),
        storedTotal ((deliveries.filterMap Delivery.passed).map Prod.snd)⟩ := by
  have hRows := rows_passed codec hIds
  have hAmount := sumColumn_perm (hRows.map Prod.fst)
  have hFee := sumColumn_perm (hRows.map Prod.snd)
  have hCount := hRows.length_eq
  rw [List.map_map, List.map_map] at hAmount hFee
  rw [List.length_map, List.length_map] at hCount
  have hColumn : ∀ side : UInt64 × UInt64 → UInt64,
      ((deliveries.filterMap Delivery.passed).map fun pay => some (side pay).toInt64) =
        ((deliveries.filterMap Delivery.passed).map side).map fun x => some x.toInt64 := by
    intro side
    rw [List.map_map]
    rfl
  have hAmounts := hAmount.trans (congrArg sumColumn (hColumn Prod.fst))
  have hFees := hFee.trans (congrArg sumColumn (hColumn Prod.snd))
  unfold fetchTotalForwards
  simp only [Option.bind_eq_bind, Option.bind_eq_some_iff, Option.pure_def, Option.some.injEq]
  constructor
  · rintro ⟨amount, hA, fee, hF, rfl⟩
    obtain ⟨hFitsA, rfl⟩ := sumColumn_eq_some_iff.mp (hAmounts.symm.trans hA)
    obtain ⟨hFitsF, rfl⟩ := sumColumn_eq_some_iff.mp (hFees.symm.trans hF)
    exact ⟨⟨hFitsA, hFitsF⟩, by rw [hCount]; rfl⟩
  · rintro ⟨⟨hFitsA, hFitsF⟩, rfl⟩
    refine ⟨_, hAmounts.trans (sumColumn_eq_some_iff.mpr ⟨hFitsA, rfl⟩), _,
      hFees.trans (sumColumn_eq_some_iff.mpr ⟨hFitsF, rfl⟩), ?_⟩
    rw [hCount]
    rfl

theorem fetchTotalForwards_totals
    (hIds : ((deliveries.filterMap Delivery.forward).map Forward.id).Nodup)
    {total : TotalForwards}
    (h : fetchTotalForwards (handleAll codec deliveries default).forwards = some total) :
    Totals total (deliveries.filterMap Delivery.passed) := by
  obtain ⟨_, rfl⟩ := (fetchTotalForwards_eq_some_iff hIds).mp h
  refine ⟨UInt64.toNat_ofNat', (toNat_sum _).trans ?_, (toNat_sum _).trans ?_⟩
  · rw [List.map_map]
    rfl
  · rw [List.map_map]
    rfl

theorem shows_passed
    (hIds : ((deliveries.filterMap Delivery.forward).map Forward.id).Nodup) {checks : Bool}
    {entries : List ForwardEntry}
    (h : listForwards checks (some .settled) (handleAll codec deliveries default).forwards =
      .ok entries) :
    Shows entries (deliveries.filterMap Delivery.passed) := by
  have hEntries := forall₂_of_mapM
    (R := fun forward entry => (forward.amount, forward.fee) = (entry.inMsat, entry.feeMsat)) h
    fun forward _ entry hEntry => by
      obtain ⟨_, _, hEntry⟩ := ok_of_bind hEntry
      cases hEntry
      rfl
  have hSame := List.forall₂_map_left_iff.mpr (List.forall₂_map_right_iff.mpr hEntries)
  rw [List.forall₂_eq_eq_eq] at hSame
  exact (List.Perm.of_eq hSame.symm).trans (fetchForwards_passed _ hIds)

/-- After any deliveries the totals are there exactly if both sums are cast, and they are those
of the payments that were passed on, modulo the word. The listing shows the same payments. -/
theorem getFees_collects
    (hIds : ((deliveries.filterMap Delivery.forward).map Forward.id).Nodup) :
    (getFees (handleAll codec deliveries default).forwards ≠ none ↔
      Fits ((deliveries.filterMap Delivery.passed).map Prod.fst) ∧
        Fits ((deliveries.filterMap Delivery.passed).map Prod.snd)) ∧
    (∀ response, getFees (handleAll codec deliveries default).forwards = some response →
      response.feeCollected.toNat =
        ((deliveries.filterMap Delivery.passed).map fun pay => pay.2.toNat).sum % 2 ^ 64) ∧
    (∀ total, fetchTotalForwards (handleAll codec deliveries default).forwards = some total →
      Totals total (deliveries.filterMap Delivery.passed)) ∧
    ∀ checks entries,
      listForwards checks (some .settled) (handleAll codec deliveries default).forwards =
        .ok entries → Shows entries (deliveries.filterMap Delivery.passed) := by
  refine ⟨?_, ?_, fun _ => fetchTotalForwards_totals hIds, fun _ _ => shows_passed hIds⟩
  · rw [getFees, Ne, Option.map_eq_none_iff, ← Ne, Option.ne_none_iff_exists']
    constructor
    · rintro ⟨total, hTotal⟩
      exact ((fetchTotalForwards_eq_some_iff hIds).mp hTotal).1
    · intro hFits
      exact ⟨_, (fetchTotalForwards_eq_some_iff hIds).mpr ⟨hFits, rfl⟩⟩
  · intro response hResponse
    obtain ⟨total, hTotal, rfl⟩ := Option.map_eq_some_iff.mp hResponse
    exact (fetchTotalForwards_totals hIds hTotal).fee

theorem getFees_collects_example :
    (getFees (handleAll (.ofEncodable ChannelDetails) (twoDeliveries 3) default).forwards ≠
        none ↔
      Fits (((twoDeliveries 3).filterMap Delivery.passed).map Prod.fst) ∧
        Fits (((twoDeliveries 3).filterMap Delivery.passed).map Prod.snd)) ∧
    (∀ response,
      getFees (handleAll (.ofEncodable ChannelDetails) (twoDeliveries 3) default).forwards =
        some response → response.feeCollected.toNat =
        (((twoDeliveries 3).filterMap Delivery.passed).map fun pay => pay.2.toNat).sum %
          2 ^ 64) ∧
    (∀ total,
      fetchTotalForwards
        (handleAll (.ofEncodable ChannelDetails) (twoDeliveries 3) default).forwards =
        some total → Totals total ((twoDeliveries 3).filterMap Delivery.passed)) ∧
    ∀ checks entries,
      listForwards checks (some .settled)
        (handleAll (.ofEncodable ChannelDetails) (twoDeliveries 3) default).forwards =
        .ok entries → Shows entries ((twoDeliveries 3).filterMap Delivery.passed) :=
  getFees_collects (twoDeliveries_ids 3)

end Kld.Api
