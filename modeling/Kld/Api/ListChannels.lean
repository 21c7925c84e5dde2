import Kld.Api.Channels
import Kld.Database.ChannelRecords

/-!
# The listing of all channels

The channels in memory take the place of their stored details, and those that
are left over are listed after the records. A record without details does not
look for its channel.
-/

namespace Kld.Api

open Sql Serial Transition ChannelRecords

structure ChannelEntry where
  channelId : String
  counterpartyNodeId : String
  counterpartyUnspendablePunishmentReserve : UInt64
  counterpartyOutboundHtlcMinimumMsat : Option UInt64
  counterpartyOutboundHtlcMaximumMsat : Option UInt64
  fundingTxo : String
  features : List String
  shortChannelId : Option UInt64
  outboundScidAlias : Option UInt64
  inboundScidAlias : Option UInt64
  channelValueSatoshis : UInt64
  unspendablePunishmentReserve : Option UInt64
  userChannelId : BitVec 128
  feerateSatPer1000Weight : Option UInt32
  balanceMsat : UInt64
  outboundCapacityMsat : UInt64
  nextOutboundHtlcLimitMsat : UInt64
  nextOutboundHtlcMinimumMsat : UInt64
  inboundCapacityMsat : UInt64
  confirmationsRequired : Option UInt32
  confirmations : Option UInt32
  forceCloseSpendDelay : Option UInt16
  isOutbound : Bool
  isChannelReady : Bool
  channelShutdownState : Option String
  isUsable : Bool
  isPublic : Bool
  inboundHtlcMinimumMsat : Option UInt64
  inboundHtlcMaximumMsat : Option UInt64
  configForwardingFeeProportionalMillionths : UInt32
  configForwardingFeeBaseMsat : UInt32
  configCltvExpiryDelta : UInt16
  configMaxDustHtlcExposureIsFixed : Bool
  configMaxDustHtlcExposureValue : UInt64
  configForceCloseAvoidanceMaxFeeSatoshis : UInt64
  configAcceptUnderpayingHtlcs : Bool
  hasMonitor : Bool
  openTimestamp : Int
  updateTimestamp : Int
  closureReason : Option String
deriving DecidableEq

def unixTimestamp (timestamp : Timestamp) : Int := timestamp / 1000000

def txoText (txo : OutPoint) : String :=
  hexEncode txo.txid.bytes.toList.reverse ++ ":" ++ toString txo.index.toNat

def shutdownStateText : ChannelShutdownState → String
  | .notShuttingDown => "NotShuttingDown"
  | .shutdownInitiated => "ShutdownInitiated"
  | .resolvingHTLCs => "ResolvingHTLCs"
  | .negotiatingClosingFee => "NegotiatingClosingFee"
  | .shutdownComplete => "ShutdownComplete"

def dustExposure : MaxDustHTLCExposure → Bool × UInt64
  | .fixedLimitMsat value => (true, value)
  | .feeRateMultiplier value => (false, value)

/-- The known features in the text that the library gives of a channel type. -/
def formatFeatures (text : String) : List String :=
  (text.splitOn ", ").filterMap fun feature =>
    match feature.splitOn ": " with
    | [k, "supported"] => some ("supported " ++ k)
    | [k, "required"] => some ("required " ++ k)
    | _ => none

section Handler

variable (channelTypeText : Bytes → String)

def detailEntry (detail : ChannelDetails) (config : ChannelConfig) (hasMonitor : Bool)
    (openTimestamp updateTimestamp : Int) (closureReason : Option String) : ChannelEntry :=
  { channelId := channelIdHex detail
    counterpartyNodeId := hexEncode detail.counterparty.nodeId.bytes.toList
    counterpartyUnspendablePunishmentReserve := detail.counterparty.unspendablePunishmentReserve
    counterpartyOutboundHtlcMinimumMsat := detail.counterparty.outboundHtlcMinimumMsat
    counterpartyOutboundHtlcMaximumMsat := detail.counterparty.outboundHtlcMaximumMsat
    fundingTxo := (detail.fundingTxo.map txoText).getD ""
    features := (detail.channelType.map fun channelType =>
      formatFeatures (channelTypeText channelType)).getD []
    shortChannelId := detail.shortChannelId
    outboundScidAlias := detail.outboundScidAlias
    inboundScidAlias := detail.inboundScidAlias
    channelValueSatoshis := detail.channelValueSatoshis
    unspendablePunishmentReserve := detail.unspendablePunishmentReserve
    userChannelId := detail.userChannelId
    feerateSatPer1000Weight := detail.feerateSatPer1000Weight
    balanceMsat := detail.balanceMsat
    outboundCapacityMsat := detail.outboundCapacityMsat
    nextOutboundHtlcLimitMsat := detail.nextOutboundHtlcLimitMsat
    nextOutboundHtlcMinimumMsat := detail.nextOutboundHtlcMinimumMsat
    inboundCapacityMsat := detail.inboundCapacityMsat
    confirmationsRequired := detail.confirmationsRequired
    confirmations := detail.confirmations
    forceCloseSpendDelay := detail.forceCloseSpendDelay
    isOutbound := detail.isOutbound
    isChannelReady := detail.isChannelReady
    channelShutdownState := detail.channelShutdownState.map shutdownStateText
    isUsable := detail.isUsable
    isPublic := detail.isPublic
    inboundHtlcMinimumMsat := detail.inboundHtlcMinimumMsat
    inboundHtlcMaximumMsat := detail.inboundHtlcMaximumMsat
    configForwardingFeeProportionalMillionths := config.forwardingFeeProportionalMillionths
    configForwardingFeeBaseMsat := config.forwardingFeeBaseMsat
    configCltvExpiryDelta := config.cltvExpiryDelta
    configMaxDustHtlcExposureIsFixed := (dustExposure config.maxDustHTLCExposure).1
    configMaxDustHtlcExposureValue := (dustExposure config.maxDustHTLCExposure).2
    configForceCloseAvoidanceMaxFeeSatoshis := config.forceCloseAvoidanceMaxFeeSatoshis
    configAcceptUnderpayingHtlcs := config.acceptUnderpayingHtlcs
    hasMonitor := hasMonitor
    openTimestamp := openTimestamp
    updateTimestamp := updateTimestamp
    closureReason := closureReason }

/-- The entry of a record without details: every other field has its default. -/
def bareEntry (record : ChannelRecord) : ChannelEntry :=
  { channelId := hexEncode record.channelId.bytes.toList
    counterpartyNodeId := hexEncode record.counterparty.bytes.toList
    counterpartyUnspendablePunishmentReserve := 0, counterpartyOutboundHtlcMinimumMsat := none
    counterpartyOutboundHtlcMaximumMsat := none, fundingTxo := "", features := []
    shortChannelId := none, outboundScidAlias := none, inboundScidAlias := none
    channelValueSatoshis := 0, unspendablePunishmentReserve := none, userChannelId := 0
    feerateSatPer1000Weight := none, balanceMsat := 0, outboundCapacityMsat := 0
    nextOutboundHtlcLimitMsat := 0, nextOutboundHtlcMinimumMsat := 0, inboundCapacityMsat := 0
    confirmationsRequired := none, confirmations := none, forceCloseSpendDelay := none
    isOutbound := false, isChannelReady := false, channelShutdownState := none, isUsable := false
    isPublic := false, inboundHtlcMinimumMsat := none, inboundHtlcMaximumMsat := none
    configForwardingFeeProportionalMillionths := 0, configForwardingFeeBaseMsat := 0
    configCltvExpiryDelta := 0, configMaxDustHtlcExposureIsFixed := false
    configMaxDustHtlcExposureValue := 0, configForceCloseAvoidanceMaxFeeSatoshis := 0
    configAcceptUnderpayingHtlcs := false, hasMonitor := false
    openTimestamp := unixTimestamp record.openTimestamp
    updateTimestamp := unixTimestamp record.updateTimestamp
    closureReason := record.closureReason }

def invalidEntry (detail : ChannelDetails) : ChannelEntry :=
  detailEntry channelTypeText detail (detail.config.getD default) true 0 0
    (some "** Invalid Channel Record **")

/-- The last index at which the channel is found. -/
def foundIndex (channelId : ChannelId) (inMem : List ChannelDetails) : Option Nat :=
  inMem.zipIdx.foldl (fun found channel =>
    if channel.1.channelId = channelId then some channel.2 else found) none

/-- The entry of a record, and the channels in memory that are left. The configuration is that of
the stored details also where the channel is found in memory. -/
def mergeRecord (record : ChannelRecord) (inMem : List ChannelDetails) :
    ChannelEntry × List ChannelDetails :=
  match record.detail with
  | some detail =>
    let config := detail.config.getD default
    let found := (foundIndex detail.channelId inMem).bind fun index =>
      inMem[index]?.map fun channel => (channel, inMem.eraseIdx index)
    match found with
    | some (channel, rest) =>
      (detailEntry channelTypeText channel config true (unixTimestamp record.openTimestamp)
        (unixTimestamp record.updateTimestamp) record.closureReason, rest)
    | none =>
      (detailEntry channelTypeText detail config false (unixTimestamp record.openTimestamp)
        (unixTimestamp record.updateTimestamp) record.closureReason, inMem)
  | none => (bareEntry record, inMem)

def mergeRecords : List ChannelRecord → List ChannelDetails →
    List ChannelEntry × List ChannelDetails
  | [], inMem => ([], inMem)
  | record :: records, inMem =>
    let merged := mergeRecord channelTypeText record inMem
    let others := mergeRecords records merged.2
    (merged.1 :: others.1, others.2)

/-- The entries, and the channels that are stored again where the records cannot be read. -/
def listChannels (fetched : Except DecodeError (List ChannelRecord))
    (inMem : List ChannelDetails) : List ChannelEntry × List ChannelDetails :=
  match fetched with
  | .ok records =>
    let merged := mergeRecords channelTypeText records inMem
    (merged.1 ++ merged.2.map (invalidEntry channelTypeText), [])
  | .error _ => (inMem.map (invalidEntry channelTypeText), inMem)

end Handler

/-- The entry shows the channel, beside what only the record tells. -/
def Reflects (channelTypeText : Bytes → String) (channel : ChannelDetails)
    (entry : ChannelEntry) : Prop :=
  entry = detailEntry channelTypeText channel (channel.config.getD default) true
    entry.openTimestamp entry.updateTimestamp entry.closureReason

/-- Every channel of the table and in memory is listed once, and those in memory as they are
there. -/
structure ListsOnce (channelTypeText : Bytes → String) (channels : Table ChannelId ChannelRow)
    (inMem : List ChannelDetails) (entries : List ChannelEntry) : Prop where
  ids_nodup : (entries.map ChannelEntry.channelId).Nodup
  mem_iff : ∀ channelId : ChannelId,
    hexEncode channelId.bytes.toList ∈ entries.map ChannelEntry.channelId ↔
      channelId ∈ channels ∨ ∃ channel ∈ inMem, channel.channelId = channelId
  reflects : ∀ channel ∈ inMem, ∀ entry ∈ entries, entry.channelId = channelIdHex channel →
    Reflects channelTypeText channel entry

/-- The record of a channel in memory has details, with the configuration of the channel. -/
def Synced (codec : Codec ChannelDetails) (channels : Table ChannelId ChannelRow)
    (inMem : List ChannelDetails) : Prop :=
  ∀ channel ∈ inMem, ∀ row, channels.lookup channel.channelId = some row →
    ∃ detail, storedDetail codec row = some detail ∧
      detail.config.getD default = channel.config.getD default

theorem channelId_hex_inj {channelId channelId' : ChannelId} :
    hexEncode channelId.bytes.toList = hexEncode channelId'.bytes.toList ↔
      channelId = channelId' := by
  refine hexEncode_field_inj ?_
  rintro ⟨bytes⟩ ⟨bytes'⟩ hBytes
  exact congrArg ChannelId.mk hBytes

section Merge

variable {channelTypeText : Bytes → String} {inMem : List ChannelDetails} {channelId : ChannelId}

theorem foldl_unfound {found : Option Nat} {channels : List (ChannelDetails × Nat)}
    (h : ∀ channel ∈ channels, channel.1.channelId ≠ channelId) :
    channels.foldl (fun found channel =>
      if channel.1.channelId = channelId then some channel.2 else found) found = found := by
  induction channels with
  | nil => rfl
  | cons channel channels ih =>
    rw [List.foldl_cons, if_neg (h channel List.mem_cons_self)]
    exact ih fun other hMem => h other (List.mem_cons_of_mem _ hMem)

theorem ne_of_mem_zipIdx {start : Nat} {channels : List ChannelDetails}
    (h : ∀ channel ∈ channels, channel.channelId ≠ channelId) :
    ∀ channel ∈ channels.zipIdx start, channel.1.channelId ≠ channelId := by
  rintro ⟨channel, index⟩ hMem
  exact h channel (List.fst_mem_of_mem_zipIdx hMem)

/-- Among distinct channels, the loop finds the only one with the id, and takes it out. -/
theorem take_found (hNodup : (inMem.map ChannelDetails.channelId).Nodup) :
    ((foundIndex channelId inMem).bind fun index =>
        inMem[index]?.map fun channel => (channel, inMem.eraseIdx index)) =
      (inMem.find? fun channel => channel.channelId = channelId).map fun channel =>
        (channel, inMem.filter fun other => other.channelId ≠ channelId) := by
  cases hFind : inMem.find? fun channel => channel.channelId = channelId with
  | none =>
    have hNone : ∀ channel ∈ inMem, channel.channelId ≠ channelId := by
      simpa using List.find?_eq_none.mp hFind
    rw [foundIndex, foldl_unfound (ne_of_mem_zipIdx hNone)]
    rfl
  | some channel =>
    obtain ⟨hId, before, after, rfl, hBefore⟩ := List.find?_eq_some_iff_append.mp hFind
    obtain rfl := of_decide_eq_true hId
    have hBefore' : ∀ other ∈ before, other.channelId ≠ channel.channelId := by
      simpa using hBefore
    have hAfter : ∀ other ∈ after, other.channelId ≠ channel.channelId := by
      rw [List.map_append, List.map_cons, List.nodup_append] at hNodup
      intro other hMem hSame
      exact (List.nodup_cons.mp hNodup.2.1).1 (List.mem_map.mpr ⟨other, hMem, hSame⟩)
    have hIndex : foundIndex channel.channelId (before ++ channel :: after) =
        some before.length := by
      rw [foundIndex, List.zipIdx_append, List.foldl_append, List.zipIdx_cons, List.foldl_cons,
        if_pos rfl, foldl_unfound (ne_of_mem_zipIdx hAfter), Nat.zero_add]
    have hRest : (before ++ channel :: after).filter
        (fun other => other.channelId ≠ channel.channelId) = before ++ after := by
      rw [List.filter_append, List.filter_cons_of_neg (by simp),
        List.filter_eq_self.mpr fun other hMem => decide_eq_true (hBefore' other hMem),
        List.filter_eq_self.mpr fun other hMem => decide_eq_true (hAfter other hMem)]
    rw [hIndex, hRest, Option.bind_some, List.getElem?_append_right le_rfl, Nat.sub_self,
      List.getElem?_cons_zero, List.eraseIdx_append_of_length_le le_rfl, Nat.sub_self,
      List.eraseIdx_cons_zero]

variable (channelTypeText) in
/-- The entry of a record beside the channels in memory. -/
def recordEntry (inMem : List ChannelDetails) (record : ChannelRecord) : ChannelEntry :=
  match record.detail with
  | some detail =>
    match inMem.find? fun channel => channel.channelId = record.channelId with
    | some channel =>
      detailEntry channelTypeText channel (detail.config.getD default) true
        (unixTimestamp record.openTimestamp) (unixTimestamp record.updateTimestamp)
        record.closureReason
    | none =>
      detailEntry channelTypeText detail (detail.config.getD default) false
        (unixTimestamp record.openTimestamp) (unixTimestamp record.updateTimestamp)
        record.closureReason
  | none => bareEntry record

/-- The record takes the place of its channel in memory. -/
def Takes (record : ChannelRecord) (channel : ChannelDetails) : Prop :=
  record.detail ≠ none ∧ record.channelId = channel.channelId

instance takesDecidable (record : ChannelRecord) (channel : ChannelDetails) :
    Decidable (Takes record channel) :=
  inferInstanceAs (Decidable (_ ∧ _))

theorem mergeRecord_eq (hNodup : (inMem.map ChannelDetails.channelId).Nodup)
    {record : ChannelRecord}
    (hDetail : ∀ detail, record.detail = some detail → detail.channelId = record.channelId) :
    mergeRecord channelTypeText record inMem =
      (recordEntry channelTypeText inMem record,
        inMem.filter fun channel => ¬ Takes record channel) := by
  rcases Option.eq_none_or_eq_some record.detail with hRecord | ⟨detail, hRecord⟩
  · have hKeep : inMem.filter (fun channel => ¬ Takes record channel) = inMem :=
      List.filter_eq_self.mpr fun channel _ => decide_eq_true fun hTakes => hTakes.1 hRecord
    rw [hKeep]
    unfold mergeRecord recordEntry
    rw [hRecord]
  · have hRest : inMem.filter (fun channel => ¬ Takes record channel) =
        inMem.filter fun channel => channel.channelId ≠ record.channelId := by
      refine List.filter_congr fun channel _ => decide_eq_decide.mpr (not_congr ?_)
      rw [Takes, hRecord, eq_comm]
      exact and_iff_right nofun
    have hId := hDetail detail hRecord
    rw [hRest]
    unfold mergeRecord recordEntry
    rw [hRecord]
    dsimp only
    rw [take_found hNodup, hId]
    cases hFind : inMem.find? fun channel => channel.channelId = record.channelId with
    | some channel => rfl
    | none =>
      dsimp only [Option.map_none]
      rw [List.filter_eq_self.mpr]
      simpa using List.find?_eq_none.mp hFind

theorem mergeRecords_eq {records : List ChannelRecord}
    (hNodup : (inMem.map ChannelDetails.channelId).Nodup)
    (hRecords : (records.map ChannelRecord.channelId).Nodup)
    (hDetail : ∀ record ∈ records, ∀ detail, record.detail = some detail →
      detail.channelId = record.channelId) :
    mergeRecords channelTypeText records inMem =
      (records.map (recordEntry channelTypeText inMem),
        inMem.filter fun channel => ∀ record ∈ records, ¬ Takes record channel) := by
  induction records generalizing inMem with
  | nil => simp [mergeRecords]
  | cons record records ih =>
    rw [List.map_cons, List.nodup_cons] at hRecords
    have hRest : ((inMem.filter fun channel => ¬ Takes record channel).map
        ChannelDetails.channelId).Nodup := (List.filter_sublist.map _).nodup hNodup
    have hOthers : ∀ other ∈ records,
        recordEntry channelTypeText (inMem.filter fun channel => ¬ Takes record channel) other =
          recordEntry channelTypeText inMem other := by
      intro other hMem
      have hFind : (inMem.filter fun channel => ¬ Takes record channel).find?
          (fun channel => channel.channelId = other.channelId) =
            inMem.find? fun channel => channel.channelId = other.channelId := by
        rw [List.find?_filter]
        congr 1
        funext channel
        refine decide_eq_decide.mpr
          ⟨fun hBoth => of_decide_eq_true hBoth.2, fun hId => ⟨?_, decide_eq_true hId⟩⟩
        refine decide_eq_true fun hTakes => hRecords.1 ?_
        exact List.mem_map.mpr ⟨other, hMem, hId.symm.trans hTakes.2.symm⟩
      unfold recordEntry
      rw [hFind]
    unfold mergeRecords
    dsimp only
    rw [mergeRecord_eq hNodup (hDetail record List.mem_cons_self)]
    dsimp only
    rw [ih hRest hRecords.2 fun other hMem => hDetail other (List.mem_cons_of_mem _ hMem),
      List.filter_filter, List.map_cons, List.map_congr_left hOthers]
    simp [Bool.and_comm]

theorem recordEntry_channelId (inMem : List ChannelDetails) {record : ChannelRecord}
    (hDetail : ∀ detail, record.detail = some detail → detail.channelId = record.channelId) :
    (recordEntry channelTypeText inMem record).channelId =
      hexEncode record.channelId.bytes.toList := by
  unfold recordEntry
  split
  · rename_i detail hRecord
    split
    · rename_i channel hFind
      have hId : channel.channelId = record.channelId := by simpa using List.find?_some hFind
      rw [← hId]
      rfl
    · rw [← hDetail detail hRecord]
      rfl
  · rfl

theorem detailEntry_config_inj {channel : ChannelDetails} {config config' : ChannelConfig}
    {openTimestamp updateTimestamp openTimestamp' updateTimestamp' : Int}
    {closureReason closureReason' : Option String} {hasMonitor hasMonitor' : Bool}
    (h : detailEntry channelTypeText channel config hasMonitor openTimestamp updateTimestamp
        closureReason =
      detailEntry channelTypeText channel config' hasMonitor' openTimestamp' updateTimestamp'
        closureReason') : config = config' := by
  have hDust : dustExposure config.maxDustHTLCExposure = dustExposure config'.maxDustHTLCExposure :=
    Prod.ext (congrArg ChannelEntry.configMaxDustHtlcExposureIsFixed h)
      (congrArg ChannelEntry.configMaxDustHtlcExposureValue h)
  refine ChannelConfig.ext (congrArg ChannelEntry.configForwardingFeeProportionalMillionths h)
    (congrArg ChannelEntry.configForwardingFeeBaseMsat h)
    (congrArg ChannelEntry.configCltvExpiryDelta h) ?_
    (congrArg ChannelEntry.configForceCloseAvoidanceMaxFeeSatoshis h)
    (congrArg ChannelEntry.configAcceptUnderpayingHtlcs h)
  cases hFixed : config.maxDustHTLCExposure <;> cases hFixed' : config'.maxDustHTLCExposure <;>
    rw [hFixed, hFixed'] at hDust <;> cases hDust <;> rfl

end Merge

section Listing

variable {codec : Codec ChannelDetails} {channelTypeText : Bytes → String}
  {inMem : List ChannelDetails} {records : List ChannelRecord} {channelId : ChannelId}

/-- The channels that no record takes. -/
def leftOver (records : List ChannelRecord) (inMem : List ChannelDetails) : List ChannelDetails :=
  inMem.filter fun channel => ∀ record ∈ records, ¬ Takes record channel

def merged (channelTypeText : Bytes → String) (records : List ChannelRecord)
    (inMem : List ChannelDetails) : List ChannelEntry :=
  records.map (recordEntry channelTypeText inMem) ++
    (leftOver records inMem).map (invalidEntry channelTypeText)

/-- The records as the listing gets them: distinct, and with details of their own channels. -/
structure Consistent (records : List ChannelRecord) : Prop where
  ids_nodup : (records.map ChannelRecord.channelId).Nodup
  detail_id : ∀ record ∈ records, ∀ detail, record.detail = some detail →
    detail.channelId = record.channelId

def RecordSynced (record : ChannelRecord) (channel : ChannelDetails) : Prop :=
  ∃ detail, record.detail = some detail ∧ detail.config.getD default = channel.config.getD default

def listedIds (records : List ChannelRecord) (inMem : List ChannelDetails) : List ChannelId :=
  records.map ChannelRecord.channelId ++ (leftOver records inMem).map ChannelDetails.channelId

theorem merged_ids (h : Consistent records) (inMem : List ChannelDetails) :
    (merged channelTypeText records inMem).map ChannelEntry.channelId =
      (listedIds records inMem).map fun channelId => hexEncode channelId.bytes.toList := by
  unfold merged listedIds
  rw [List.map_append, List.map_append, List.map_map, List.map_map, List.map_map, List.map_map]
  exact congrArg (· ++ _) (List.map_congr_left fun record hMem =>
    recordEntry_channelId inMem (h.detail_id record hMem))

theorem merged_ids_nodup_iff (h : Consistent records) (inMem : List ChannelDetails) :
    ((merged channelTypeText records inMem).map ChannelEntry.channelId).Nodup ↔
      (listedIds records inMem).Nodup := by
  rw [merged_ids h]
  exact List.nodup_map_iff fun _ _ => channelId_hex_inj.mp

theorem mem_merged_ids (h : Consistent records) (inMem : List ChannelDetails)
    (channelId : ChannelId) :
    hexEncode channelId.bytes.toList ∈
        (merged channelTypeText records inMem).map ChannelEntry.channelId ↔
      (∃ record ∈ records, record.channelId = channelId) ∨
        ∃ channel ∈ inMem, channel.channelId = channelId := by
  rw [merged_ids h, List.mem_map_of_injective fun _ _ => channelId_hex_inj.mp, listedIds,
    List.mem_append, List.mem_map, List.mem_map]
  refine or_congr_right' fun hNone => ?_
  refine exists_congr fun channel => and_congr_left fun hId => ?_
  refine List.mem_filter.trans (and_iff_left (decide_eq_true fun record hMem hTakes => ?_))
  exact hNone ⟨record, hMem, hTakes.2.trans hId⟩

theorem recordEntry_of_mem (channelTypeText : Bytes → String)
    (hNodup : (inMem.map ChannelDetails.channelId).Nodup)
    {record : ChannelRecord} {channel : ChannelDetails} {detail : ChannelDetails}
    (hMem : channel ∈ inMem) (hId : record.channelId = channel.channelId)
    (hDetail : record.detail = some detail) :
    recordEntry channelTypeText inMem record =
      detailEntry channelTypeText channel (detail.config.getD default) true
        (unixTimestamp record.openTimestamp) (unixTimestamp record.updateTimestamp)
        record.closureReason := by
  have hFind : inMem.find? (fun other => other.channelId = record.channelId) = some channel := by
    rw [hId]
    exact (Lists.of_nodup hNodup).mem_iff.mp hMem
  unfold recordEntry
  rw [hDetail, hFind]

/-- The merged entries list everything, but only channels whose records are synced are listed
once and as they are. -/
theorem merged_once_iff (channelTypeText : Bytes → String)
    (hNodup : (inMem.map ChannelDetails.channelId).Nodup)
    (h : Consistent records) :
    (((merged channelTypeText records inMem).map ChannelEntry.channelId).Nodup ∧
        ∀ channel ∈ inMem, ∀ entry ∈ merged channelTypeText records inMem,
          entry.channelId = channelIdHex channel → Reflects channelTypeText channel entry) ↔
      ∀ channel ∈ inMem, ∀ record ∈ records, record.channelId = channel.channelId →
        RecordSynced record channel := by
  constructor
  · rintro ⟨hIds, hReflects⟩ channel hChannel record hRecord hId
    rw [merged_ids_nodup_iff h, listedIds, List.nodup_append] at hIds
    cases hDetail : record.detail with
    | some detail =>
      refine ⟨detail, hDetail, ?_⟩
      have hEntry := recordEntry_of_mem channelTypeText hNodup hChannel hId hDetail
      have hShown := hReflects channel hChannel _
        (List.mem_append_left _ (List.mem_map_of_mem hRecord)) (by rw [hEntry]; rfl)
      rw [Reflects, hEntry] at hShown
      exact detailEntry_config_inj hShown
    | none =>
      have hLeft : channel ∈ leftOver records inMem := by
        refine List.mem_filter.mpr ⟨hChannel, decide_eq_true fun other hOther hTakes => ?_⟩
        obtain rfl := List.inj_on_of_nodup_map h.ids_nodup hOther hRecord (hTakes.2.trans hId.symm)
        exact hTakes.1 hDetail
      exact absurd hId (hIds.2.2 _ (List.mem_map_of_mem hRecord) _ (List.mem_map_of_mem hLeft))
  · intro hSynced
    refine ⟨?_, fun channel hChannel entry hEntry hShown => ?_⟩
    · rw [merged_ids_nodup_iff h, listedIds, List.nodup_append]
      refine ⟨h.ids_nodup, (List.filter_sublist.map _).nodup hNodup, ?_⟩
      rintro _ hRecordId _ hChannelId rfl
      obtain ⟨record, hRecord, rfl⟩ := List.mem_map.mp hRecordId
      obtain ⟨channel, hChannel, hId⟩ := List.mem_map.mp hChannelId
      obtain ⟨hMem, hLeft⟩ := List.mem_filter.mp hChannel
      obtain ⟨detail, hDetail, _⟩ := hSynced channel hMem record hRecord hId.symm
      exact of_decide_eq_true hLeft record hRecord ⟨by rw [hDetail]; nofun, hId.symm⟩
    · rcases List.mem_append.mp hEntry with hEntry | hEntry
      · obtain ⟨record, hRecord, rfl⟩ := List.mem_map.mp hEntry
        rw [recordEntry_channelId inMem (h.detail_id record hRecord), channelIdHex,
          channelId_hex_inj] at hShown
        obtain ⟨detail, hDetail, hConfig⟩ := hSynced channel hChannel record hRecord hShown
        rw [recordEntry_of_mem channelTypeText hNodup hChannel hShown hDetail, hConfig]
        rfl
      · obtain ⟨other, hOther, rfl⟩ := List.mem_map.mp hEntry
        have hSame : other.channelId = channel.channelId := channelId_hex_inj.mp hShown
        obtain rfl := List.inj_on_of_nodup_map hNodup (List.mem_filter.mp hOther).1 hChannel hSame
        rfl

theorem recordSynced_iff {row : ChannelRow} {channel : ChannelDetails} :
    RecordSynced (channelRecord (channelId, row) (storedDetail codec row)) channel ↔
      ∃ detail, storedDetail codec row = some detail ∧
        detail.config.getD default = channel.config.getD default := by
  unfold RecordSynced channelRecord
  cases storedDetail codec row <;> simp

theorem listChannels_ok (hNodup : (inMem.map ChannelDetails.channelId).Nodup)
    (h : Consistent records) :
    (listChannels channelTypeText (.ok records) inMem).1 =
      merged channelTypeText records inMem := by
  unfold listChannels
  dsimp only
  rw [mergeRecords_eq hNodup h.ids_nodup h.detail_id]
  rfl

end Listing

/-- After any history of the table, the listing is right exactly if the records of the channels in
memory have details with their configuration. -/
theorem listChannels_once_iff {codec : Codec ChannelDetails} (channelTypeText : Bytes → String)
    {calls : List ChannelHistory.Call} {s : ChannelHistory.State}
    (hRun : run (ChannelHistory.step codec) ChannelHistory.initial
      (calls.flatMap ChannelHistory.Call.statements) = some s)
    {inMem : List ChannelDetails} (hNodup : (inMem.map ChannelDetails.channelId).Nodup) :
    ListsOnce channelTypeText s.channels inMem
        (listChannels channelTypeText (fetchChannels codec s.channels) inMem).1 ↔
      Synced codec s.channels inMem := by
  obtain ⟨records, hFetch, hList, hDetail⟩ := fetchChannels_lists (wellFormed_run hRun)
  have hConsistent : Consistent records := ⟨hList.keys_nodup, hDetail⟩
  have hEntries : (listChannels channelTypeText (fetchChannels codec s.channels) inMem).1 =
      merged channelTypeText records inMem := by
    rw [hFetch]
    exact listChannels_ok hNodup hConsistent
  have hRecord : ∀ channelId,
      (∃ record ∈ records, record.channelId = channelId) ↔ channelId ∈ s.channels := by
    intro channelId
    rw [← AList.lookup_isSome, Option.isSome_iff_exists]
    constructor
    · rintro ⟨record, hMem, rfl⟩
      have hSome := hList.mem_iff.mp hMem
      rw [Option.map_map] at hSome
      obtain ⟨row, hRow, _⟩ := Option.map_eq_some_iff.mp hSome
      exact ⟨row, hRow⟩
    · rintro ⟨row, hRow⟩
      obtain ⟨hMem, hId⟩ := (hList.some_iff channelId _).mp (by rw [hRow]; rfl)
      exact ⟨_, hMem, hId⟩
  have hSynced : (∀ channel ∈ inMem, ∀ record ∈ records, record.channelId = channel.channelId →
      RecordSynced record channel) ↔ Synced codec s.channels inMem := by
    refine forall₂_congr fun channel _ => ⟨fun hAll row hRow => ?_, fun hAll record hMem hId => ?_⟩
    · obtain ⟨hMem, hId⟩ := (hList.some_iff channel.channelId _).mp (by rw [hRow]; rfl)
      exact recordSynced_iff.mp (hAll _ hMem hId)
    · have hSome := (hList.some_iff channel.channelId record).mpr ⟨hMem, hId⟩
      rw [Option.map_map] at hSome
      obtain ⟨row, hRow, rfl⟩ := Option.map_eq_some_iff.mp hSome
      exact recordSynced_iff.mpr (hAll row hRow)
  rw [← hSynced, ← merged_once_iff channelTypeText hNodup hConsistent, hEntries]
  constructor
  · exact fun hOnce => ⟨hOnce.ids_nodup, hOnce.reflects⟩
  · rintro ⟨hIds, hReflects⟩
    refine ⟨hIds, fun channelId => ?_, hReflects⟩
    rw [mem_merged_ids hConsistent, hRecord]

def createdCalls : List ChannelHistory.Call :=
  [.createChannel pendingChannel.channelId true pendingChannel.counterparty.nodeId 0]

def createdTable : Table ChannelId ChannelRow :=
  (createChannel 0 pendingChannel.channelId true pendingChannel.counterparty.nodeId ∅).getD ∅

/-- A channel that was recorded before it could be listed is listed twice. -/
theorem created_channel_listed_twice :
    run (ChannelHistory.step ChannelHistory.exampleCodec) ChannelHistory.initial
        (createdCalls.flatMap ChannelHistory.Call.statements) =
      some ⟨createdTable, fun _ => none⟩ ∧
    ¬ ListsOnce (fun _ => "") createdTable [pendingChannel]
      (listChannels (fun _ => "") (fetchChannels ChannelHistory.exampleCodec createdTable)
        [pendingChannel]).1 := by
  refine ⟨rfl, fun hOnce => ?_⟩
  exact absurd hOnce.ids_nodup (by decide)

/-- A channel with details that is in memory too, and one that was only created. -/
def storedCalls : List ChannelHistory.Call :=
  [.persistChannel pendingChannel 0,
    .createChannel ⟨.replicate 32 9⟩ true pendingChannel.counterparty.nodeId 1]

theorem listChannels_once_iff_created :
    ∃ s, run (ChannelHistory.step ChannelHistory.exampleCodec) ChannelHistory.initial
        (storedCalls.flatMap ChannelHistory.Call.statements) = some s ∧
      (ListsOnce (fun _ => "") s.channels [pendingChannel, otherPeersChannel]
        (listChannels (fun _ => "") (fetchChannels ChannelHistory.exampleCodec s.channels)
          [pendingChannel, otherPeersChannel]).1 ↔
        Synced ChannelHistory.exampleCodec s.channels [pendingChannel, otherPeersChannel]) := by
  have hRun : run (ChannelHistory.step ChannelHistory.exampleCodec) ChannelHistory.initial
      (storedCalls.flatMap ChannelHistory.Call.statements) = some _ := rfl
  exact ⟨_, hRun, listChannels_once_iff _ hRun (by decide)⟩

/-- The entry of a channel in memory beside its record: every field is the one in memory, what only
the record tells apart, and the entry is the one that the channel has without a record. -/
structure FromMemory (channelTypeText : Bytes → String) (inMem : List ChannelDetails)
    (record : ChannelRecord) (channel : ChannelDetails) (entry : ChannelEntry) : Prop where
  reflects : Reflects channelTypeText channel entry
  openTimestamp_eq : entry.openTimestamp = unixTimestamp record.openTimestamp
  updateTimestamp_eq : entry.updateTimestamp = unixTimestamp record.updateTimestamp
  closureReason_eq : entry.closureReason = record.closureReason
  memoryOnly_eq : ∀ other ∈ (listChannels channelTypeText (.ok []) inMem).1,
    other.channelId = channelIdHex channel →
      entry = { other with
        openTimestamp := unixTimestamp record.openTimestamp
        updateTimestamp := unixTimestamp record.updateTimestamp
        closureReason := record.closureReason }

/-- The channel is listed, and no entry of it shows anything else than the channel in memory. -/
def ShownFromMemory (channelTypeText : Bytes → String) (records : List ChannelRecord)
    (inMem : List ChannelDetails) (record : ChannelRecord) (channel : ChannelDetails) : Prop :=
  channelIdHex channel ∈
      (listChannels channelTypeText (.ok records) inMem).1.map ChannelEntry.channelId ∧
    ∀ entry ∈ (listChannels channelTypeText (.ok records) inMem).1,
      entry.channelId = channelIdHex channel →
        FromMemory channelTypeText inMem record channel entry

section Live

variable {records : List ChannelRecord} {inMem : List ChannelDetails} {record : ChannelRecord}
  {channel : ChannelDetails}

theorem fromMemory_detailEntry {channelTypeText : Bytes → String} {config : ChannelConfig}
    (hNodup : (inMem.map ChannelDetails.channelId).Nodup) (hChannel : channel ∈ inMem)
    (hConfig : config = channel.config.getD default) :
    FromMemory channelTypeText inMem record channel
      (detailEntry channelTypeText channel config true (unixTimestamp record.openTimestamp)
        (unixTimestamp record.updateTimestamp) record.closureReason) := by
  rw [hConfig]
  refine ⟨rfl, rfl, rfl, rfl, fun other hOther hId => ?_⟩
  obtain ⟨channel', hMem, rfl⟩ := List.mem_map.mp hOther
  obtain rfl := List.inj_on_of_nodup_map hNodup hMem hChannel (channelId_hex_inj.mp hId)
  rfl

/-- An entry of a channel that a record takes is the record's. -/
theorem eq_recordEntry_of_synced {channelTypeText : Bytes → String} {entry : ChannelEntry}
    (h : Consistent records) (hRecord : record ∈ records)
    (hSame : record.channelId = channel.channelId) (hSynced : RecordSynced record channel)
    (hEntry : entry ∈ merged channelTypeText records inMem)
    (hId : entry.channelId = channelIdHex channel) :
    entry = recordEntry channelTypeText inMem record := by
  rcases List.mem_append.mp hEntry with hEntry | hEntry
  · obtain ⟨other, hOther, rfl⟩ := List.mem_map.mp hEntry
    rw [recordEntry_channelId inMem (h.detail_id other hOther), channelIdHex,
      channelId_hex_inj] at hId
    obtain rfl := List.inj_on_of_nodup_map h.ids_nodup hOther hRecord (hId.trans hSame.symm)
    rfl
  · obtain ⟨other, hOther, rfl⟩ := List.mem_map.mp hEntry
    have hOtherId : other.channelId = channel.channelId := channelId_hex_inj.mp hId
    obtain ⟨detail, hDetail, _⟩ := hSynced
    have hLeft := of_decide_eq_true (List.mem_filter.mp hOther).2 record hRecord
    exact absurd ⟨hDetail ▸ Option.some_ne_none detail, hSame.trans hOtherId.symm⟩ hLeft

end Live

/-- A channel in memory is shown from memory exactly if its record has details with the
configuration of the channel. -/
theorem shownFromMemory_iff {channelTypeText : Bytes → String} {records : List ChannelRecord}
    {inMem : List ChannelDetails} {record : ChannelRecord} {channel : ChannelDetails}
    (hNodup : (inMem.map ChannelDetails.channelId).Nodup) (h : Consistent records)
    (hChannel : channel ∈ inMem) (hRecord : record ∈ records)
    (hSame : record.channelId = channel.channelId) :
    ShownFromMemory channelTypeText records inMem record channel ↔
      ∃ detail, record.detail = some detail ∧
        detail.config.getD default = channel.config.getD default := by
  unfold ShownFromMemory
  rw [listChannels_ok hNodup h]
  have hListed : recordEntry channelTypeText inMem record ∈ merged channelTypeText records inMem :=
    List.mem_append_left _ (List.mem_map_of_mem hRecord)
  have hListedId : (recordEntry channelTypeText inMem record).channelId = channelIdHex channel := by
    rw [recordEntry_channelId inMem (h.detail_id record hRecord), hSame]
    rfl
  constructor
  · rintro ⟨_, hShown⟩
    have hEntry := (hShown _ hListed hListedId).reflects
    cases hDetail : record.detail with
    | some detail =>
      rw [Reflects, recordEntry_of_mem channelTypeText hNodup hChannel hSame hDetail] at hEntry
      exact ⟨detail, rfl, detailEntry_config_inj hEntry⟩
    | none =>
      -- The entry of a record without details denies that the channel has a monitor.
      rw [recordEntry, hDetail] at hEntry
      exact nomatch congrArg ChannelEntry.hasMonitor hEntry
  · intro hSynced
    refine ⟨hListedId ▸ List.mem_map_of_mem hListed, fun entry hEntry hId => ?_⟩
    rw [eq_recordEntry_of_synced h hRecord hSame hSynced hEntry hId]
    obtain ⟨detail, hDetail, hConfig⟩ := hSynced
    rw [recordEntry_of_mem channelTypeText hNodup hChannel hSame hDetail]
    exact fromMemory_detailEntry hNodup hChannel hConfig

def raisedChannel : ChannelDetails :=
  { pendingChannel with
    config := some { (default : ChannelConfig) with forwardingFeeBaseMsat := 7 } }

def olderRecord : ChannelRecord :=
  { channelId := pendingChannel.channelId, counterparty := pendingChannel.counterparty.nodeId
    openTimestamp := 0, updateTimestamp := 0, closureReason := none, detail := some pendingChannel }

/-- Fees that were set after the channel was stored are not shown. -/
theorem raised_fee_not_shown :
    ¬ ShownFromMemory (fun _ => "") [olderRecord] [raisedChannel] olderRecord raisedChannel := by
  rintro ⟨_, hShown⟩
  have hEntry := hShown _ List.mem_cons_self rfl
  exact absurd (congrArg ChannelEntry.configForwardingFeeBaseMsat hEntry.reflects) (by decide)

def otherRecord : ChannelRecord :=
  { olderRecord with channelId := ⟨.replicate 32 9⟩, detail := none }

theorem shownFromMemory_iff_older :
    ShownFromMemory (fun _ => "") [otherRecord, olderRecord] [otherPeersChannel, pendingChannel]
        olderRecord pendingChannel ↔
      ∃ detail, olderRecord.detail = some detail ∧
        detail.config.getD default = pendingChannel.config.getD default := by
  refine shownFromMemory_iff (by decide) ⟨by decide, fun record hMem detail hDetail => ?_⟩
    (List.mem_cons_of_mem _ List.mem_cons_self) (List.mem_cons_of_mem _ List.mem_cons_self) rfl
  rcases List.mem_cons.mp hMem with rfl | hLast
  · cases hDetail
  · obtain rfl := List.mem_singleton.mp hLast
    exact (Option.some.inj hDetail) ▸ rfl

end Kld.Api
