import Kld.Database.Schema
import Kld.Ldk.ChannelDetails

/-!
# Writers of the node's database

The statements by which `LdkDatabase` writes payments, forwards, channels and
spendable outputs, each on the table that it concerns. The time of a write is an
argument.
-/

namespace Kld

open Sql Serial

def persistPayment (payment : Payment) (payments : Table PaymentId PaymentRow) :
    Table PaymentId PaymentRow :=
  payments.upsert payment.id payment.toRow fun _ => payment.toRow

def persistInvoice (invoice : Invoice) (invoices : Table PaymentHash InvoiceRow) :
    Table PaymentHash InvoiceRow :=
  invoices.upsert invoice.paymentHash invoice.toRow fun _ => invoice.toRow

def persistForward (forward : Forward) (forwards : Table Uuid ForwardRow) : Table Uuid ForwardRow :=
  forwards.upsert forward.id forward.toRow fun _ => forward.toRow

structure TotalForwards where
  count : UInt64
  amount : MillisatAmount
  fee : MillisatAmount
deriving DecidableEq

def castInt (n : Int) : Option Int64 :=
  if -2 ^ 63 ≤ n ∧ n < 2 ^ 63 then some (.ofInt n) else none

/-- `COALESCE(CAST(sum(column) AS INT), 0)`; nulls are not added, and no rows have no sum. -/
def sumColumn (column : List (Option Int64)) : Option Int64 :=
  castInt ((column.filterMap id).map Int64.toInt).sum

/-- The database adds up signed numbers exactly, and the cast of a sum fails where it has no
place in 64 bits. What is read back is taken for unsigned again. -/
def fetchTotalForwards (forwards : Table Uuid ForwardRow) : Option TotalForwards := do
  let succeeded := forwards.rows.filter fun row => row.2.status = .succeeded
  let amount ← sumColumn (succeeded.map fun row => row.2.amount)
  let fee ← sumColumn (succeeded.map fun row => row.2.fee)
  return ⟨.ofNat succeeded.length, amount.toUInt64, fee.toUInt64⟩

section Channels

variable (codec : Codec ChannelDetails) (now : Timestamp)

/-- The duplicate key makes the statement fail. -/
def createChannel (channelId : ChannelId) (isPublic : Bool) (counterparty : PublicKey)
    (channels : Table ChannelId ChannelRow) : Option (Table ChannelId ChannelRow) :=
  channels.insertNew channelId
    { counterparty := counterparty, shortChannelId := none, isUsable := false, isPublic := isPublic
      data := none, openTimestamp := now, updateTimestamp := now, closureReason := none }

def channelRow (channel : ChannelDetails) : ChannelRow :=
  { counterparty := channel.counterparty.nodeId
    shortChannelId := channel.shortChannelId.map UInt64.toInt64
    isUsable := channel.isUsable, isPublic := channel.isPublic, data := some (codec.write channel)
    openTimestamp := now, updateTimestamp := now, closureReason := none }

/-- Without a short channel id the column of a stored row is left alone. -/
def persistChannel (channel : ChannelDetails) (channels : Table ChannelId ChannelRow) :
    Table ChannelId ChannelRow :=
  match channel.shortChannelId with
  | some scid =>
    channels.upsert channel.channelId (channelRow codec now channel) fun row =>
      { row with
        counterparty := channel.counterparty.nodeId, shortChannelId := some scid.toInt64
        isUsable := channel.isUsable, isPublic := channel.isPublic
        data := some (codec.write channel)
        updateTimestamp := now }
  | none =>
    channels.upsert channel.channelId (channelRow codec now channel) fun row =>
      { row with
        counterparty := channel.counterparty.nodeId, isUsable := channel.isUsable
        isPublic := channel.isPublic, data := some (codec.write channel), updateTimestamp := now }

def closeChannel (channelId : ChannelId) (closureReason : String)
    (channels : Table ChannelId ChannelRow) :
    Table ChannelId ChannelRow :=
  channels.update channelId fun row =>
    { row with isUsable := false, updateTimestamp := now, closureReason := some closureReason }

def persistInitializingChannel (initializingChannelId : ChannelId) (isPublic : Bool)
    (counterparty : PublicKey) (txid : Txid) (channels : Table ChannelId InitializingChannelRow) :
    Option (Table ChannelId InitializingChannelRow) :=
  channels.insertNew initializingChannelId
    { counterparty := counterparty, isPublic := isPublic, channelId := none, status := none
      txid := txid
      vout := none, openTimestamp := now, updateTimestamp := now }

def updateInitializingChannel (initializingChannelId : ChannelId)
    (channelIdWithVout : Option (ChannelId × UInt32)) (status : Option String)
    (channels : Table ChannelId InitializingChannelRow) : Table ChannelId InitializingChannelRow :=
  match channelIdWithVout, status with
  | some (channelId, vout), status =>
    channels.update initializingChannelId fun row =>
      { row with
        channelId := some channelId, vout := some vout.toInt32, updateTimestamp := now
        status := some (status.getD "Updated by ChannelPending Event") }
  | none, some status =>
    channels.update initializingChannelId fun row =>
      { row with status := some status, updateTimestamp := now }
  | none, none => channels

end Channels

/-- Outputs that the node can spend, with what the descriptors hold beyond the outpoint and the
value as the bytes that are written of them. -/
inductive SpendableOutputDescriptor where
  | staticOutput (outpoint : OutPoint) (value : UInt64) (data : Bytes)
  | delayedPaymentOutput (outpoint : OutPoint) (value : UInt64) (data : Bytes)
  | staticPaymentOutput (outpoint : OutPoint) (value : UInt64) (data : Bytes)
deriving DecidableEq

def SpendableOutputDescriptor.outpoint : SpendableOutputDescriptor → OutPoint
  | .staticOutput outpoint _ _ => outpoint
  | .delayedPaymentOutput outpoint _ _ => outpoint
  | .staticPaymentOutput outpoint _ _ => outpoint

def SpendableOutputDescriptor.value : SpendableOutputDescriptor → UInt64
  | .staticOutput _ value _ => value
  | .delayedPaymentOutput _ value _ => value
  | .staticPaymentOutput _ value _ => value

def SpendableOutputDescriptor.data : SpendableOutputDescriptor → Bytes
  | .staticOutput _ _ data => data
  | .delayedPaymentOutput _ _ data => data
  | .staticPaymentOutput _ _ data => data

def SpendableOutputDescriptor.key (descriptor : SpendableOutputDescriptor) : Txid × Int16 :=
  (descriptor.outpoint.txid, descriptor.outpoint.index.toInt16)

def persistSpendableOutput (now : Timestamp) (descriptor : SpendableOutputDescriptor)
    (channelId : Option ChannelId) (isSpent : Bool)
    (outputs : Table (Txid × Int16) SpendableOutputRow) :
    Table (Txid × Int16) SpendableOutputRow :=
  outputs.upsert descriptor.key
    { value := descriptor.value.toInt64, channelId := channelId, data := descriptor.data
      isSpent := isSpent, timestamp := now }
    fun row =>
      { row with
        value := descriptor.value.toInt64, channelId := channelId.or row.channelId
        data := descriptor.data, isSpent := isSpent }

/-! Rows without their timestamps. -/

def PaymentRow.timeless (row : PaymentRow) : PaymentRow := { row with timestamp := 0 }

def ForwardRow.timeless (row : ForwardRow) : ForwardRow := { row with timestamp := 0 }

def ChannelRow.timeless (row : ChannelRow) : ChannelRow :=
  { row with openTimestamp := 0, updateTimestamp := 0 }

def InitializingChannelRow.timeless (row : InitializingChannelRow) : InitializingChannelRow :=
  { row with openTimestamp := 0, updateTimestamp := 0 }

def SpendableOutputRow.timeless (row : SpendableOutputRow) : SpendableOutputRow :=
  { row with timestamp := 0 }

variable {codec : Codec ChannelDetails} {now now' : Timestamp}

theorem createChannel_eq_none_iff {channelId : ChannelId} {isPublic : Bool}
    {counterparty : PublicKey} {channels : Table ChannelId ChannelRow} :
    createChannel now channelId isPublic counterparty channels = none ↔ channelId ∈ channels := by
  unfold createChannel Table.insertNew
  split
  · rename_i h
    exact iff_of_true rfl h
  · rename_i h
    exact iff_of_false nofun h

theorem lookup_createChannel {channelId : ChannelId} {isPublic : Bool}
    {counterparty : PublicKey} {channels channels' : Table ChannelId ChannelRow}
    (h : createChannel now channelId isPublic counterparty channels = some channels') :
    ∃ row, channels'.lookup channelId = some row ∧ row.data = none := by
  obtain ⟨_, rfl⟩ := Table.insertNew_eq_some_iff.mp h
  exact ⟨_, AList.lookup_insert _, rfl⟩

theorem mem_createChannel {channelId : ChannelId} {isPublic : Bool} {counterparty : PublicKey}
    {channels channels' : Table ChannelId ChannelRow}
    (h : createChannel now channelId isPublic counterparty channels = some channels') :
    channelId ∈ channels' := by
  obtain ⟨_, rfl⟩ := Table.insertNew_eq_some_iff.mp h
  exact (AList.mem_insert _).mpr (Or.inl rfl)

/-- The row holds what is written of a channel. -/
structure ChannelRow.Records (codec : Codec ChannelDetails) (channel : ChannelDetails)
    (row : ChannelRow) : Prop where
  counterparty : row.counterparty = channel.counterparty.nodeId
  shortChannelId : ∀ scid, channel.shortChannelId = some scid →
    row.shortChannelId = some scid.toInt64
  isUsable : row.isUsable = channel.isUsable
  isPublic : row.isPublic = channel.isPublic
  data : row.data = some (codec.write channel)

theorem ChannelRow.Records.unique {channel channel' : ChannelDetails} {row : ChannelRow}
    (h : row.Records codec channel) (h' : row.Records codec channel') : channel = channel' :=
  codec.write_injective (Option.some.inj (h.data.symm.trans h'.data))

/-- What is written of a channel is in its row, which keeps the reason of its closing. -/
theorem lookup_persistChannel (codec : Codec ChannelDetails) (now : Timestamp)
    (channel : ChannelDetails) (channels : Table ChannelId ChannelRow) :
    ∃ row, (persistChannel codec now channel channels).lookup channel.channelId = some row ∧
      row.Records codec channel ∧
      row.closureReason =
        (channels.lookup channel.channelId).bind ChannelRow.closureReason := by
  unfold persistChannel
  cases hScid : channel.shortChannelId with
  | none =>
    refine ⟨_, Table.lookup_upsert_self .., ?_⟩
    have hNone : ∀ {scid}, channel.shortChannelId = some scid → False := by simp [hScid]
    cases channels.lookup channel.channelId with
    | none => exact ⟨⟨rfl, fun _ h => (hNone h).elim, rfl, rfl, rfl⟩, rfl⟩
    | some row => exact ⟨⟨rfl, fun _ h => (hNone h).elim, rfl, rfl, rfl⟩, rfl⟩
  | some scid =>
    refine ⟨_, Table.lookup_upsert_self .., ?_⟩
    have hSome : ∀ {scid'}, channel.shortChannelId = some scid' → scid = scid' := by simp [hScid]
    cases channels.lookup channel.channelId with
    | none =>
      refine ⟨⟨rfl, fun _ h => ?_, rfl, rfl, rfl⟩, rfl⟩
      exact congrArg (Option.map UInt64.toInt64) h
    | some row =>
      exact ⟨⟨rfl, fun _ h => congrArg (some ∘ UInt64.toInt64) (hSome h), rfl, rfl, rfl⟩, rfl⟩

theorem seen_persistChannel_eq_iff {channel : ChannelDetails}
    {channels : Table ChannelId ChannelRow} :
    (persistChannel codec now channel channels).seen ChannelRow.timeless =
        channels.seen ChannelRow.timeless ↔
      ∃ row, channels.lookup channel.channelId = some row ∧ row.Records codec channel := by
  unfold persistChannel
  cases hScid : channel.shortChannelId with
  | none =>
    refine Table.seen_upsert_eq_iff.trans
      (exists_congr fun row => and_congr_right fun _ => ⟨fun h => ?_, fun h => ?_⟩)
    · simp only [ChannelRow.timeless, ChannelRow.mk.injEq, true_and, and_true] at h
      exact ⟨h.1.symm, by simp [hScid], h.2.1.symm, h.2.2.1.symm, h.2.2.2.symm⟩
    · simp only [ChannelRow.timeless, h.counterparty, h.isUsable, h.isPublic, h.data]
  | some scid =>
    refine Table.seen_upsert_eq_iff.trans
      (exists_congr fun row => and_congr_right fun _ => ⟨fun h => ?_, fun h => ?_⟩)
    · simp only [ChannelRow.timeless, ChannelRow.mk.injEq, and_true] at h
      refine ⟨h.1.symm, fun scid' hSame => ?_, h.2.2.1.symm, h.2.2.2.1.symm, h.2.2.2.2.symm⟩
      rw [← Option.some.inj (hScid.symm.trans hSame)]
      exact h.2.1.symm
    · simp only [ChannelRow.timeless, h.counterparty, h.shortChannelId scid hScid, h.isUsable,
        h.isPublic, h.data]

theorem seen_closeChannel_eq_iff {channelId : ChannelId} {reason : String}
    {channels : Table ChannelId ChannelRow} :
    (closeChannel now channelId reason channels).seen ChannelRow.timeless =
        channels.seen ChannelRow.timeless ↔
      ∀ row, channels.lookup channelId = some row →
        row.isUsable = false ∧ row.closureReason = some reason := by
  refine Table.seen_update_eq_iff.trans
    (forall_congr' fun row => imp_congr_right fun _ => ⟨fun h => ?_, fun h => ?_⟩)
  · simp only [ChannelRow.timeless, ChannelRow.mk.injEq, true_and] at h
    exact ⟨h.1.symm, h.2.symm⟩
  · simp only [ChannelRow.timeless, h.1, h.2]

theorem lookup_closeChannel (channelId : ChannelId) (reason : String)
    (channels : Table ChannelId ChannelRow) :
    (closeChannel now channelId reason channels).lookup channelId =
      (channels.lookup channelId).map fun row =>
        { row with isUsable := false, updateTimestamp := now, closureReason := some reason } :=
  Table.lookup_update_self ..

theorem seen_updateInitializingChannel_twice (now now' : Timestamp) (channelId : ChannelId)
    (channelIdWithVout : Option (ChannelId × UInt32)) (status : Option String)
    (channels : Table ChannelId InitializingChannelRow) :
    (updateInitializingChannel now' channelId channelIdWithVout status
        (updateInitializingChannel now channelId channelIdWithVout status channels)).seen
          InitializingChannelRow.timeless =
      (updateInitializingChannel now channelId channelIdWithVout status channels).seen
          InitializingChannelRow.timeless := by
  cases channelIdWithVout with
  | some pair => exact Table.seen_update_update fun _ => rfl
  | none =>
    cases status with
    | some status => exact Table.seen_update_update fun _ => rfl
    | none => rfl

def writeOutput (now : Timestamp) (channelId : Option ChannelId)
    (outputs : Table (Txid × Int16) SpendableOutputRow) (write : SpendableOutputDescriptor × Bool) :
    Table (Txid × Int16) SpendableOutputRow :=
  persistSpendableOutput now write.1 channelId write.2 outputs

def outputRow (channelId : Option ChannelId) (write : SpendableOutputDescriptor × Bool) :
    SpendableOutputRow :=
  { value := write.1.value.toInt64, channelId := channelId, data := write.1.data, isSpent := write.2
    timestamp := 0 }

def namedChannel (row : Option SpendableOutputRow) : Option ChannelId :=
  row.bind SpendableOutputRow.channelId

section

variable {channelId : Option ChannelId} {outputs : Table (Txid × Int16) SpendableOutputRow}

theorem or_or_self {α : Type} (a b : Option α) : a.or (a.or b) = a.or b := by
  rw [← Option.or_assoc, Option.or_self]

theorem seen_writeOutput_self (write : SpendableOutputDescriptor × Bool) :
    (writeOutput now channelId outputs write).seen SpendableOutputRow.timeless write.1.key =
      some (outputRow
        (channelId.or (namedChannel (outputs.seen SpendableOutputRow.timeless write.1.key)))
          write) := by
  unfold writeOutput persistSpendableOutput Table.seen
  rw [Table.lookup_upsert_self]
  cases outputs.lookup write.1.key with
  | none =>
    have hOr : channelId.or none = channelId := Option.or_none
    rw [Option.map_none, namedChannel, Option.bind_none, hOr]
    rfl
  | some row => rfl

theorem seen_writeOutput_of_ne {write : SpendableOutputDescriptor × Bool} {key : Txid × Int16}
    (h : key ≠ write.1.key) :
    (writeOutput now channelId outputs write).seen SpendableOutputRow.timeless key =
      outputs.seen SpendableOutputRow.timeless key :=
  congrArg (Option.map _) (Table.lookup_upsert_of_ne h _ _ _)

/-- After several writes, an output is seen as the last write of it left it. -/
theorem seen_writes (writes : List (SpendableOutputDescriptor × Bool)) (key : Txid × Int16) :
    (writes.foldl (writeOutput now channelId) outputs).seen SpendableOutputRow.timeless key =
      (writes.filter fun write => write.1.key = key).getLast?.elim
        (outputs.seen SpendableOutputRow.timeless key) fun write =>
          some (outputRow
            (channelId.or (namedChannel (outputs.seen SpendableOutputRow.timeless key)))
            write) := by
  induction writes using List.reverseRecOn with
  | nil => rfl
  | append_singleton writes write ih =>
    rw [List.foldl_append, List.foldl_cons, List.foldl_nil, List.filter_append]
    by_cases hKey : key = write.1.key
    · subst hKey
      have hLast : ([write].filter fun w => w.1.key = write.1.key) = [write] := by simp
      rw [seen_writeOutput_self, ih, hLast, List.getLast?_append_of_ne_nil _ (List.cons_ne_nil _ _)]
      cases (writes.filter fun w => w.1.key = write.1.key).getLast? with
      | none => rfl
      | some earlier => exact congrArg (fun c => some (outputRow c write)) (or_or_self _ _)
    · have hNone : ([write].filter fun w => w.1.key = key) = [] := by simp [Ne.symm hKey]
      rw [seen_writeOutput_of_ne hKey, ih, hNone, List.append_nil]

theorem seen_writes_twice (writes : List (SpendableOutputDescriptor × Bool)) :
    (writes.foldl (writeOutput now' channelId)
        (writes.foldl (writeOutput now channelId) outputs)).seen SpendableOutputRow.timeless =
      (writes.foldl (writeOutput now channelId) outputs).seen SpendableOutputRow.timeless := by
  funext key
  rw [seen_writes, seen_writes]
  cases (writes.filter fun write => write.1.key = key).getLast? with
  | none => rfl
  | some write => exact congrArg (fun c => some (outputRow c write)) (or_or_self _ _)

end

end Kld
