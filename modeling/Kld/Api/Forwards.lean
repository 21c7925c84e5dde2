import Kld.Api.Invoices
import Kld.Ldk.EventReplay

/-!
# The listing of forwards

The handler stores the amount that left the node, with the fee on top of it. The
listing takes the same amount for the one that came in.
-/

namespace Kld.Api

open Sql Fallible EventReplay

inductive ForwardEntryStatus where
  | offered
  | settled
  | localFailed
  | failed
deriving DecidableEq

structure ForwardEntry where
  failcode : Option String
  failreason : Option String
  feeMsat : Option UInt64
  inChannel : String
  inMsat : Option UInt64
  outChannel : Option String
  outMsat : Option UInt64
  paymentHash : Option String
  receivedTimestamp : Int
  resolvedTimestamp : Option Int
  status : ForwardEntryStatus
deriving DecidableEq

def htlcDestinationToString : HTLCDestination → String
  | .nextHopChannel _ channelId => "Next hop channel ID " ++ hexEncode channelId.bytes.toList
  | .unknownNextHop scid => "Unknown next hop to requested SCID " ++ toString scid.toNat
  | .invalidForward scid => "Invalid forward to requested SCID " ++ toString scid.toNat
  | .failedPayment paymentHash => "Failed payment with hash " ++ hexEncode paymentHash.bytes.toList

def failcode : HTLCDestination → String
  | .nextHopChannel _ _ => "NextHopChannel"
  | .unknownNextHop _ => "UnknownNextHop"
  | .invalidForward _ => "InvalidFormat"
  | .failedPayment _ => "FailedPayment"

def failedPaymentHash : HTLCDestination → Option String
  | .failedPayment paymentHash => some (hexEncode paymentHash.bytes.toList)
  | _ => none

def HasStatus (status : Option ForwardStatus) (found : ForwardStatus) : Prop :=
  ∀ wanted, status = some wanted → found = wanted

instance hasStatusDecidable (status : Option ForwardStatus) (found : ForwardStatus) :
    Decidable (HasStatus status found) :=
  inferInstanceAs (Decidable (∀ wanted, status = some wanted → found = wanted))

/-- `ORDER BY timestamp`, which leaves rows of one time in the order of the table. -/
def fetchForwards (status : Option ForwardStatus) (forwards : Table Uuid ForwardRow) :
    List Forward :=
  ((forwards.rows.filter fun row => HasStatus status row.2.status).mergeSort fun row row' =>
    row.2.timestamp ≤ row'.2.timestamp).map fun row => .ofRow row.1 row.2

def wantedStatus : Option ForwardEntryStatus → Option ForwardStatus
  | none => none
  | some .settled => some .succeeded
  | some .offered => some .succeeded
  | some _ => some .failed

/-- The difference of the amount and the fee, where both are known. -/
def outMsat (checks : Bool) (forward : Forward) : Except Failure (Option UInt64) :=
  match forward.amount, forward.fee with
  | some amount, some fee =>
    match Machine.subU64 checks amount fee with
    | some difference => .ok (some difference)
    | none => .error .panic
  | _, _ => .ok none

def forwardEntry (checks : Bool) (forward : Forward) : Except Failure ForwardEntry := do
  let outMsat ← outMsat checks forward
  return {
    failcode := forward.htlcDestination.map failcode
    failreason := forward.htlcDestination.map htlcDestinationToString
    feeMsat := forward.fee
    inChannel := hexEncode forward.inboundChannelId.bytes.toList
    inMsat := forward.amount
    outChannel := forward.outboundChannelId.map fun channelId => hexEncode channelId.bytes.toList
    outMsat := outMsat
    paymentHash := forward.htlcDestination.bind failedPaymentHash
    receivedTimestamp := forward.timestamp / 1000000
    resolvedTimestamp := some (forward.timestamp / 1000000)
    status := match forward.status with
      | .succeeded => .settled
      | .failed => .failed }

def listForwards (checks : Bool) (status : Option ForwardEntryStatus)
    (forwards : Table Uuid ForwardRow) : Except Failure (List ForwardEntry) :=
  (fetchForwards (wantedStatus status) forwards).mapM (forwardEntry checks)

/-- An event, with what the handler draws and is told when it handles it. -/
structure Delivery where
  env : Collaborators
  draw : Draw
  event : Event

def handleAll (codec : Serial.Codec ChannelDetails) (deliveries : List Delivery)
    (db : Database) : Database :=
  deliveries.foldl (fun db delivery =>
    (handleEvent codec delivery.env delivery.draw delivery.event db).2) db

/-- The forward that is stored for a delivery. -/
def Delivery.forward (delivery : Delivery) : Option Forward :=
  match delivery.event with
  | .paymentForwarded (some inbound) (some outbound) (some fee) (some amount) =>
    some (.success delivery.draw.forwardId delivery.draw.now inbound outbound amount fee)
  | .htlcHandlingFailed prevChannelId destination =>
    some (.failure delivery.draw.forwardId delivery.draw.now prevChannelId destination)
  | _ => none

/-- What went out, and what came in for it, as the event tells. -/
def Accounts (event : Event) (entry : ForwardEntry) : Prop :=
  match event with
  | .paymentForwarded _ _ (some fee) (some amount) =>
    entry.outMsat = some amount ∧ entry.feeMsat = some fee ∧
      entry.inMsat.map UInt64.toNat = some (amount.toNat + fee.toNat)
  | _ => entry.status = .failed

variable {codec : Serial.Codec ChannelDetails} {deliveries : List Delivery}

theorem handleEvent_forwards (codec : Serial.Codec ChannelDetails) (delivery : Delivery)
    (db : Database) :
    (handleEvent codec delivery.env delivery.draw delivery.event db).2.forwards =
      delivery.forward.elim db.forwards fun forward => persistForward forward db.forwards := by
  obtain ⟨env, draw, event⟩ := delivery
  cases event with
  | paymentClaimed hash purpose amount => rfl
  | paymentForwarded prev next fee amount =>
    cases prev <;> cases next <;> cases fee <;> cases amount <;> rfl
  | htlcHandlingFailed prev destination => rfl
  | channelPending channelId former counterparty vout =>
    unfold handleEvent
    dsimp only
    split
    · rfl
    · split <;> rfl
  | channelReady channelId =>
    unfold handleEvent
    dsimp only
    split <;> rfl
  | spendableOutputs outputs channelId =>
    unfold handleEvent
    dsimp only
    split <;> rfl
  | channelClosed channelId reason => rfl

/-- With distinct ids every forward stays as it was stored. -/
theorem lookup_handleAll {codec : Serial.Codec ChannelDetails} {deliveries : List Delivery}
    (hIds : ((deliveries.filterMap Delivery.forward).map Forward.id).Nodup) (db : Database)
    (id : Uuid) :
    (handleAll codec deliveries db).forwards.lookup id =
      (((deliveries.filterMap Delivery.forward).find? fun forward => forward.id = id).map
        Forward.toRow).or (db.forwards.lookup id) := by
  induction deliveries generalizing db with
  | nil => rfl
  | cons delivery deliveries ih =>
    change (handleAll codec deliveries _).forwards.lookup id = _
    cases hForward : delivery.forward with
    | none =>
      rw [List.filterMap_cons, hForward] at hIds ⊢
      dsimp only at hIds ⊢
      rw [ih hIds, handleEvent_forwards, hForward, Option.elim_none]
    | some forward =>
      rw [List.filterMap_cons, hForward] at hIds ⊢
      dsimp only at hIds ⊢
      rw [List.map_cons, List.nodup_cons] at hIds
      rw [ih hIds.2, handleEvent_forwards, hForward, Option.elim_some, persistForward,
        Table.lookup_upsert_row, List.find?_cons]
      by_cases hId : id = forward.id
      · subst hId
        have hNone : (deliveries.filterMap Delivery.forward).find?
            (fun other => other.id = forward.id) = none := by
          rw [List.find?_eq_none]
          intro other hMem hSame
          exact hIds.1 (List.mem_map.mpr ⟨other, hMem, of_decide_eq_true hSame⟩)
        simp [hNone]
      · simp [hId, Ne.symm hId]

theorem lists_fetchForwards
    (hIds : ((deliveries.filterMap Delivery.forward).map Forward.id).Nodup)
    (status : Option ForwardStatus) :
    Lists Forward.id (fetchForwards status (handleAll codec deliveries default).forwards) fun id =>
      ((deliveries.filterMap Delivery.forward).find? fun forward => forward.id = id).filter
        fun forward => HasStatus status forward.status := by
  have hStored := Lists.of_nodup hIds
  have hLookup : ∀ id, (handleAll codec deliveries default).forwards.lookup id =
      ((deliveries.filterMap Delivery.forward).find? fun forward => forward.id = id).map
        Forward.toRow := by
    intro id
    rw [lookup_handleAll hIds]
    exact Option.or_none
  obtain ⟨forwards, hRows, hList⟩ := Lists.of_table (fun id _ => hStored.key_eq) hLookup
  have hSelected := hList.filter fun forward => HasStatus status forward.status
  refine hSelected.perm (List.Perm.symm ?_)
  unfold fetchForwards
  rw [hRows, List.filter_map]
  refine ((List.mergeSort_perm _ _).map _).trans (.of_eq ?_)
  rw [List.map_map]
  exact (List.map_congr_left fun forward _ => Forward.ofRow_toRow forward).trans (List.map_id' _)

theorem mem_fetchForwards
    (hIds : ((deliveries.filterMap Delivery.forward).map Forward.id).Nodup)
    (status : Option ForwardStatus) {forward : Forward} :
    forward ∈ fetchForwards status (handleAll codec deliveries default).forwards ↔
      (∃ delivery ∈ deliveries, delivery.forward = some forward) ∧
        HasStatus status forward.status := by
  rw [(lists_fetchForwards hIds status).mem_iff, Option.filter_eq_some_iff,
    ← (Lists.of_nodup hIds).mem_iff, List.mem_filterMap, decide_eq_true_eq]

theorem forwardEntry_accounts_iff (checks : Bool) {delivery : Delivery} {forward : Forward}
    (hForward : delivery.forward = some forward) :
    (∃ entry, forwardEntry checks forward = .ok entry ∧ Accounts delivery.event entry) ↔
      ∀ fee, forward.fee = some fee → fee = 0 := by
  obtain ⟨env, draw, event⟩ := delivery
  unfold Delivery.forward at hForward
  dsimp only at hForward
  split at hForward
  · rename_i inbound outbound fee amount
    obtain rfl := Option.some.inj hForward
    constructor
    · rintro ⟨entry, hEntry, hOut, _, hIn⟩ fee' hFee
      obtain ⟨_, _, hEntry⟩ := ok_of_bind hEntry
      cases hEntry
      cases hFee
      have hSame : amount.toNat = amount.toNat + fee.toNat := Option.some.inj hIn
      exact UInt64.toNat_inj.mp (Nat.left_eq_add.mp hSame)
    · intro hFree
      obtain rfl := hFree fee rfl
      have hOut : outMsat checks (.success draw.forwardId draw.now inbound outbound amount 0) =
          .ok (some amount) := by
        unfold outMsat
        change (match Machine.subU64 checks amount 0 with
          | some difference => _
          | none => _) = _
        rw [(Machine.subU64_eq_self_iff checks amount 0).mpr rfl]
      unfold forwardEntry
      rw [hOut]
      exact ⟨_, rfl, rfl, rfl, rfl⟩
  · obtain rfl := Option.some.inj hForward
    exact iff_of_true ⟨_, rfl, rfl⟩ nofun
  · cases hForward

/-- The listing answers an entry for every stored forward with the status, and the amounts of
each are those of the event that it was stored for. -/
def ListsForwards (checks : Bool) (codec : Serial.Codec ChannelDetails)
    (deliveries : List Delivery) (status : Option ForwardEntryStatus) : Prop :=
  ∃ entries,
    listForwards checks status (handleAll codec deliveries default).forwards = .ok entries ∧
    Lists Forward.id
      (fetchForwards (wantedStatus status) (handleAll codec deliveries default).forwards)
      (fun id =>
        ((deliveries.filterMap Delivery.forward).find? fun forward => forward.id = id).filter
          fun forward => HasStatus (wantedStatus status) forward.status) ∧
    List.Forall₂
      (fun forward entry => ∀ delivery ∈ deliveries, delivery.forward = some forward →
        Accounts delivery.event entry)
      (fetchForwards (wantedStatus status) (handleAll codec deliveries default).forwards) entries

/-- The event is stored as a forward with these amounts. -/
def StoresForward (delivery : Delivery) (amount fee : UInt64) : Prop :=
  ∃ inbound outbound,
    delivery.event = .paymentForwarded (some inbound) (some outbound) (some fee) (some amount)

/-- After any deliveries, checked or not, the forwards that are listed add up exactly if none of
them earned a fee. -/
theorem listForwards_accounts_iff {checks : Bool} {codec : Serial.Codec ChannelDetails}
    {deliveries : List Delivery}
    (hIds : ((deliveries.filterMap Delivery.forward).map Forward.id).Nodup)
    (status : Option ForwardEntryStatus) :
    ListsForwards checks codec deliveries status ↔
      ∀ delivery ∈ deliveries, ∀ amount fee, StoresForward delivery amount fee →
        HasStatus (wantedStatus status) .succeeded → fee = 0 := by
  have hEntries : ListsForwards checks codec deliveries status ↔
      ∀ forward ∈
        fetchForwards (wantedStatus status) (handleAll codec deliveries default).forwards,
        ∀ fee, forward.fee = some fee → fee = 0 := by
    have hPass : ListsForwards checks codec deliveries status ↔ _ :=
      (exists_congr fun _ => and_congr_right fun _ =>
        and_iff_right (lists_fetchForwards hIds (wantedStatus status))).trans exists_mapM_iff
    rw [hPass]
    refine forall₂_congr fun forward hMem => ?_
    obtain ⟨⟨delivery, hDelivery, hForward⟩, _⟩ := (mem_fetchForwards hIds _).mp hMem
    rw [← forwardEntry_accounts_iff checks hForward]
    constructor
    · rintro ⟨entry, hEntry, hAccounts⟩
      exact ⟨entry, hEntry, hAccounts delivery hDelivery hForward⟩
    · intro hEntry
      have hFree := (forwardEntry_accounts_iff checks hForward).mp hEntry
      obtain ⟨entry, hEntry, _⟩ := hEntry
      refine ⟨entry, hEntry, fun other _ hOther => ?_⟩
      obtain ⟨entry', hEntry', hAccounts⟩ := (forwardEntry_accounts_iff checks hOther).mpr hFree
      exact Except.ok.inj (hEntry.symm.trans hEntry') ▸ hAccounts
  rw [hEntries]
  constructor
  · rintro hFree delivery hDelivery amount fee ⟨inbound, outbound, hEvent⟩ hStatus
    have hForward : delivery.forward = some
        (.success delivery.draw.forwardId delivery.draw.now inbound outbound amount fee) := by
      rw [Delivery.forward, hEvent]
    have hDelivered : ∃ other ∈ deliveries, other.forward = some _ :=
      ⟨delivery, hDelivery, hForward⟩
    exact hFree _ ((mem_fetchForwards hIds _).mpr ⟨hDelivered, hStatus⟩) fee rfl
  · intro hFree forward hMem fee hFee
    obtain ⟨⟨delivery, hDelivery, hForward⟩, hStatus⟩ := (mem_fetchForwards hIds _).mp hMem
    unfold Delivery.forward at hForward
    split at hForward
    · rename_i inbound outbound fee' amount hEvent
      obtain rfl := Option.some.inj hForward
      obtain rfl := Option.some.inj hFee
      exact hFree delivery hDelivery amount fee' ⟨inbound, outbound, hEvent⟩ hStatus
    · obtain rfl := Option.some.inj hForward
      cases hFee
    · cases hForward

def exampleDelivery (fee : UInt64) : Delivery where
  env := ⟨[], false⟩
  draw := exampleDraw 1
  event := .paymentForwarded (some ⟨.replicate 32 1⟩) (some ⟨.replicate 32 2⟩) (some fee) (some 1)

theorem exampleDelivery_ids (fee : UInt64) :
    (([exampleDelivery fee].filterMap Delivery.forward).map Forward.id).Nodup :=
  List.nodup_singleton (exampleDraw 1).forwardId

/-- A fee above the amount: the difference does not exist. -/
theorem fee_above_amount_panics :
    ¬ ListsForwards true (.ofEncodable ChannelDetails) [exampleDelivery 5] none := by
  rintro ⟨entries, hEntries, _⟩
  have hMem : .success ⟨.replicate 16 1⟩ 0 ⟨.replicate 32 1⟩ ⟨.replicate 32 2⟩ 1 5 ∈
      fetchForwards (wantedStatus none)
        (handleAll (.ofEncodable ChannelDetails) [exampleDelivery 5] default).forwards :=
    (mem_fetchForwards (exampleDelivery_ids 5) _).mpr
      ⟨⟨exampleDelivery 5, List.mem_singleton_self _, rfl⟩, nofun⟩
  obtain ⟨entry, hEntry⟩ := ok_of_mapM hEntries _ hMem
  cases hEntry

/-- A forward that failed. -/
def failedDelivery : Delivery where
  env := ⟨[], false⟩
  draw := exampleDraw 2
  event := .htlcHandlingFailed ⟨.replicate 32 1⟩ (.unknownNextHop 7)

def twoDeliveries (fee : UInt64) : List Delivery := [exampleDelivery fee, failedDelivery]

theorem twoDeliveries_ids (fee : UInt64) :
    (((twoDeliveries fee).filterMap Delivery.forward).map Forward.id).Nodup := by
  have hIds : ((twoDeliveries fee).filterMap Delivery.forward).map Forward.id =
      [(exampleDraw 1).forwardId, (exampleDraw 2).forwardId] := rfl
  rw [hIds]
  decide

theorem listForwards_accounts_iff_free :
    ListsForwards true (.ofEncodable ChannelDetails) (twoDeliveries 0) none ↔
      ∀ delivery ∈ twoDeliveries 0, ∀ amount fee, StoresForward delivery amount fee →
        HasStatus (wantedStatus none) .succeeded → fee = 0 :=
  listForwards_accounts_iff (twoDeliveries_ids 0) none

end Kld.Api
