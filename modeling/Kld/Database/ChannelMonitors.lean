import Kld.Database.Schema

/-!
# The channel monitors table

A monitor is stored under the serialised outpoint of its funding transaction,
and the stored outpoint is checked against the monitor when it is read back.
-/

namespace Kld

open Sql Serial

/-- Of a monitor the node reads its outpoint, its update id and, when it is restored, the
block that it has been synchronised to. -/
structure ChannelMonitor where
  fundingTxo : OutPoint
  latestUpdateId : UInt64
  bestBlockHash : BlockHash
  state : Bytes
deriving DecidableEq, Encodable

/-- LDK writes the transaction id and then the index, most significant byte first. -/
def OutPoint.write (outPoint : OutPoint) : Bytes :=
  outPoint.txid.bytes.toList ++
    [UInt8.ofNat (outPoint.index.toNat / 256), UInt8.ofNat (outPoint.index.toNat % 256)]

/-- `out_point.split_at(32)` and `u16::from_be_bytes`; `none` where the source panics. -/
def OutPoint.parse (bytes : Bytes) : Option OutPoint :=
  if h : (bytes.take 32).length = 32 then
    match bytes.drop 32 with
    | [high, low] =>
      some ⟨⟨⟨(bytes.take 32).toArray, h⟩⟩, UInt16.ofNat (high.toNat * 256 + low.toNat)⟩
    | _ => none
  else none

inductive FetchMonitorError where
  | badOutPoint (bytes : Bytes)
  | unableToFind (txid : Txid) (index : UInt16)
  | failedToDeserialize
deriving DecidableEq

def readMonitorRow (codec : Codec ChannelMonitor) (row : Bytes × MonitorRow) :
    Except FetchMonitorError (BlockHash × ChannelMonitor) :=
  match OutPoint.parse row.1 with
  | none => .error (.badOutPoint row.1)
  | some ⟨txid, index⟩ =>
    match codec.read row.2.monitor with
    | some monitor =>
      if monitor.fundingTxo.txid ≠ txid ∨ monitor.fundingTxo.index ≠ index then
        .error (.unableToFind txid index)
      else .ok (monitor.bestBlockHash, monitor)
    | none => .error .failedToDeserialize

def fetchChannelMonitors (codec : Codec ChannelMonitor) (table : Table Bytes MonitorRow) :
    Except FetchMonitorError (List (BlockHash × ChannelMonitor)) :=
  table.rows.mapM (readMonitorRow codec)

def monitorRow (codec : Codec ChannelMonitor) (monitor : ChannelMonitor) : MonitorRow :=
  ⟨monitor.latestUpdateId.toInt64, codec.write monitor⟩

def upsertMonitor (codec : Codec ChannelMonitor) (fundingTxo : OutPoint) (monitor : ChannelMonitor)
    (table : Table Bytes MonitorRow) : Table Bytes MonitorRow :=
  table.upsert fundingTxo.write (monitorRow codec monitor) fun _ => monitorRow codec monitor

theorem OutPoint.parse_write (outPoint : OutPoint) : parse outPoint.write = some outPoint := by
  obtain ⟨⟨bytes⟩, index⟩ := outPoint
  have hTake : (OutPoint.write ⟨⟨bytes⟩, index⟩).take 32 = bytes.toList := by
    simp [OutPoint.write]
  have hDrop : (OutPoint.write ⟨⟨bytes⟩, index⟩).drop 32 =
      [UInt8.ofNat (index.toNat / 256), UInt8.ofNat (index.toNat % 256)] := by
    simp [OutPoint.write]
  have hLength : ((OutPoint.write ⟨⟨bytes⟩, index⟩).take 32).length = 32 := by
    rw [hTake, Vector.length_toList]
  have hIndex : index.toNat / 256 % 256 * 256 + index.toNat % 256 % 256 = index.toNat := by
    have hLt := index.toNat_lt
    omega
  unfold OutPoint.parse
  rw [dif_pos hLength, hDrop]
  simp only [hTake, UInt8.toNat_ofNat', Nat.reducePow, hIndex, UInt16.ofNat_toNat]
  rfl

theorem OutPoint.write_injective : Function.Injective OutPoint.write := by
  intro a b h
  have hParse := congrArg OutPoint.parse h
  rw [parse_write, parse_write] at hParse
  exact Option.some.inj hParse

/-- The row of `outPoint` holds a monitor of that outpoint which is at least as new as `id`. -/
def Stored (codec : Codec ChannelMonitor) (table : Table Bytes MonitorRow) (outPoint : OutPoint)
    (id : UInt64) : Prop :=
  ∃ row monitor, table.lookup outPoint.write = some row ∧ codec.read row.monitor = some monitor ∧
    monitor.fundingTxo = outPoint ∧ id ≤ monitor.latestUpdateId

def NoneNewer (codec : Codec ChannelMonitor) (table : Table Bytes MonitorRow) (outPoint : OutPoint)
    (id : UInt64) : Prop :=
  ∀ row monitor, table.lookup outPoint.write = some row → codec.read row.monitor = some monitor →
    monitor.latestUpdateId ≤ id

def WellStored (codec : Codec ChannelMonitor) (table : Table Bytes MonitorRow) : Prop :=
  ∀ key row, table.lookup key = some row → ∃ monitor : ChannelMonitor,
    key = monitor.fundingTxo.write ∧ codec.read row.monitor = some monitor

section

variable {codec : Codec ChannelMonitor} {table : Table Bytes MonitorRow} {monitor : ChannelMonitor}

theorem lookup_upsertMonitor_self (fundingTxo : OutPoint) :
    (upsertMonitor codec fundingTxo monitor table).lookup fundingTxo.write =
      some (monitorRow codec monitor) := by
  rw [upsertMonitor, Table.lookup_upsert_row, if_pos rfl]

theorem stored_upsertMonitor (codec : Codec ChannelMonitor) (table : Table Bytes MonitorRow)
    (monitor : ChannelMonitor) :
    Stored codec (upsertMonitor codec monitor.fundingTxo monitor table) monitor.fundingTxo
      monitor.latestUpdateId := by
  exact ⟨monitorRow codec monitor, monitor, lookup_upsertMonitor_self _, codec.read_write monitor,
    rfl, UInt64.le_refl _⟩

theorem Stored.upsertMonitor {outPoint : OutPoint} {id : UInt64}
    (h : Stored codec table outPoint id)
    (hNone : NoneNewer codec table monitor.fundingTxo monitor.latestUpdateId) :
    Stored codec (upsertMonitor codec monitor.fundingTxo monitor table) outPoint id := by
  obtain ⟨row, old, hRow, hRead, hTxo, hId⟩ := h
  by_cases hSame : outPoint = monitor.fundingTxo
  · subst hSame
    obtain ⟨row', new, hRow', hRead', hTxo', hId'⟩ :=
      stored_upsertMonitor codec table monitor
    have hOld : id ≤ monitor.latestUpdateId := UInt64.le_trans hId (hNone row old hRow hRead)
    exact ⟨row', new, hRow', hRead', hTxo', UInt64.le_trans hOld hId'⟩
  · have hKey : outPoint.write ≠ monitor.fundingTxo.write := fun hEq =>
      hSame (OutPoint.write_injective hEq)
    refine ⟨row, old, ?_, hRead, hTxo, hId⟩
    rw [Kld.upsertMonitor, Table.lookup_upsert_of_ne hKey]
    exact hRow

theorem eq_of_read_upsertMonitor {fundingTxo : OutPoint} {row : MonitorRow} {found : ChannelMonitor}
    (hRow : (upsertMonitor codec fundingTxo monitor table).lookup fundingTxo.write = some row)
    (hRead : codec.read row.monitor = some found) : found = monitor := by
  rw [lookup_upsertMonitor_self, Option.some.injEq] at hRow
  subst hRow
  rw [monitorRow, codec.read_write, Option.some.injEq] at hRead
  exact hRead.symm

theorem WellStored.upsertMonitor (h : WellStored codec table) :
    WellStored codec (upsertMonitor codec monitor.fundingTxo monitor table) := by
  intro key row hRow
  rw [Kld.upsertMonitor, Table.lookup_upsert_row] at hRow
  split at hRow
  · rename_i hKey
    exact ⟨monitor, hKey, Option.some.inj hRow ▸ codec.read_write monitor⟩
  · exact h key row hRow

theorem readMonitorRow_eq {row : MonitorRow} (h : codec.read row.monitor = some monitor) :
    readMonitorRow codec (monitor.fundingTxo.write, row) =
      .ok (monitor.bestBlockHash, monitor) := by
  unfold readMonitorRow
  rw [OutPoint.parse_write, h]
  simp

theorem mapM_readMonitorRow {rows : List (Bytes × MonitorRow)}
    (h : ∀ entry ∈ rows, ∃ monitor : ChannelMonitor,
      entry.1 = monitor.fundingTxo.write ∧ codec.read entry.2.monitor = some monitor) :
    ∃ monitors, rows.mapM (readMonitorRow codec) = .ok monitors ∧
      (monitors.map fun found => found.2.fundingTxo.write) = rows.map Prod.fst ∧
      ∀ entry ∈ rows, ∃ found ∈ monitors, codec.read entry.2.monitor = some found.2 := by
  induction rows with
  | nil => exact ⟨[], rfl, rfl, nofun⟩
  | cons entry rows ih =>
    obtain ⟨⟨monitor, hKey, hRead⟩, hTail⟩ := List.forall_mem_cons.mp h
    obtain ⟨monitors, hRest, hKeys, hAll⟩ := ih hTail
    have hHead : readMonitorRow codec entry = .ok (monitor.bestBlockHash, monitor) := by
      obtain ⟨key, row⟩ := entry
      obtain rfl : key = monitor.fundingTxo.write := hKey
      exact readMonitorRow_eq hRead
    refine ⟨(monitor.bestBlockHash, monitor) :: monitors, ?_, ?_, ?_⟩
    · rw [List.mapM_cons, hHead, hRest]
      rfl
    · exact congrArg₂ List.cons hKey.symm hKeys
    · intro other hOther
      rcases List.mem_cons.mp hOther with rfl | hIn
      · exact ⟨_, List.mem_cons_self, hRead⟩
      · obtain ⟨found, hFound, hFoundRead⟩ := hAll other hIn
        exact ⟨found, List.mem_cons_of_mem _ hFound, hFoundRead⟩

/-- A table whose rows are well stored is read back without an error: exactly one monitor
for every outpoint that has a row, none for another, and every stored monitor among them. -/
theorem fetchChannelMonitors_spec (h : WellStored codec table) :
    ∃ monitors, fetchChannelMonitors codec table = .ok monitors ∧
      (monitors.map fun found => found.2.fundingTxo).Nodup ∧
      (∀ outPoint,
        outPoint.write ∈ table ↔ outPoint ∈ monitors.map fun found => found.2.fundingTxo) ∧
      ∀ outPoint id, Stored codec table outPoint id →
        ∃ found ∈ monitors, found.2.fundingTxo = outPoint ∧ id ≤ found.2.latestUpdateId := by
  have hRows : ∀ entry ∈ table.rows, ∃ monitor : ChannelMonitor,
      entry.1 = monitor.fundingTxo.write ∧ codec.read entry.2.monitor = some monitor :=
    fun entry hEntry => h entry.1 entry.2 (Table.mem_rows_iff.mp hEntry)
  obtain ⟨monitors, hFetch, hMap, hAll⟩ := mapM_readMonitorRow hRows
  have hKeys : (monitors.map fun found => found.2.fundingTxo).map OutPoint.write = table.keys := by
    rw [List.map_map, ← Table.rows_map_fst]
    exact hMap
  refine ⟨monitors, hFetch, List.Nodup.of_map _ (hKeys ▸ table.keys_nodup), ?_, ?_⟩
  · intro outPoint
    rw [← List.mem_map_of_injective OutPoint.write_injective, hKeys, AList.mem_keys]
  · rintro outPoint id ⟨row, monitor, hRow, hRead, hTxo, hId⟩
    obtain ⟨found, hFound, hFoundRead⟩ := hAll _ (Table.mem_rows_iff.mpr hRow)
    obtain rfl : monitor = found.2 := Option.some.inj (hRead.symm.trans hFoundRead)
    exact ⟨found, hFound, hTxo, hId⟩

theorem wellStored_empty : WellStored codec ∅ := by
  intro key row hRow
  rw [AList.lookup_empty] at hRow
  cases hRow

end

end Kld
