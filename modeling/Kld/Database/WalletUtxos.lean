import Kld.Database.WalletStore
import Kld.Lib.Machine
import Kld.Lib.Run

/-!
# Unspent outputs, derivation indices and the sync time

These tables have primary keys, and their columns are signed where the values
are not. The maps that they refine are given first; `increment_last_index` is
undefined there when the next index does not fit.
-/

namespace Kld.WalletUtxos

open Sql Wallet Fallible

structure OutPoint where
  txid : Txid
  vout : UInt32
deriving DecidableEq

structure TxOut where
  value : UInt64
  scriptPubkey : Bytes
deriving DecidableEq

structure LocalUtxo where
  outpoint : OutPoint
  txout : TxOut
  keychain : KeychainKind
  isSpent : Bool
deriving DecidableEq

structure SyncTime where
  blockTime : BlockTime
deriving DecidableEq

inductive Operation where
  | setUtxo (utxo : LocalUtxo)
  | delUtxo (outpoint : OutPoint)
  | setLastIndex (keychain : KeychainKind) (value : UInt32)
  | incrementLastIndex (keychain : KeychainKind)
  | delLastIndex (keychain : KeychainKind)
  | setSyncTime (time : SyncTime)
  | delSyncTime
deriving DecidableEq

inductive Answer where
  | done
  | utxo (found : Option LocalUtxo)
  | lastIndex (found : Option UInt32)
  | newIndex (index : UInt32)
  | syncTime (found : Option SyncTime)
deriving DecidableEq

/-- What the three stores are for. -/
structure Maps where
  utxos : OutPoint → Option LocalUtxo
  lastIndices : KeychainKind → Option UInt32
  syncTime : Option SyncTime

namespace Maps

def empty : Maps := ⟨fun _ => none, fun _ => none, none⟩

/-- The index after the last, as a number. -/
def nextIndex (m : Maps) (keychain : KeychainKind) : Nat :=
  (m.lastIndices keychain).elim 0 fun index => index.toNat + 1

def setIndex (m : Maps) (keychain : KeychainKind) (index : UInt32) : Maps :=
  { m with lastIndices := Function.update m.lastIndices keychain (some index) }

def step (m : Maps) : Operation → Option (Answer × Maps)
  | .setUtxo utxo =>
    some (.done, { m with utxos := Function.update m.utxos utxo.outpoint (some utxo) })
  | .delUtxo outpoint =>
    some (.utxo (m.utxos outpoint), { m with utxos := Function.update m.utxos outpoint none })
  | .setLastIndex keychain value =>
    some (.done, m.setIndex keychain value)
  | .incrementLastIndex keychain =>
    if m.nextIndex keychain < 2 ^ 32 then
      some (.newIndex (.ofNat (m.nextIndex keychain)),
        m.setIndex keychain (.ofNat (m.nextIndex keychain)))
    else none
  | .delLastIndex keychain =>
    some (.lastIndex (m.lastIndices keychain),
      { m with lastIndices := Function.update m.lastIndices keychain none })
  | .setSyncTime time => some (.done, { m with syncTime := some time })
  | .delSyncTime => some (.syncTime m.syncTime, { m with syncTime := none })

def run (m : Maps) : List Operation → Option (List Answer × Maps)
  | [] => some ([], m)
  | operation :: rest =>
    (m.step operation).bind fun answer =>
      (answer.2.run rest).map fun tail => (answer.1 :: tail.1, tail.2)

end Maps

section Operations

variable (tables : WalletTables)

def setUtxo (utxo : LocalUtxo) : Except Fault Unit × WalletTables :=
  execute (.insertUtxo utxo.txout.value utxo.keychain.toJson utxo.outpoint.vout
    utxo.outpoint.txid.bytes.toList utxo.txout.scriptPubkey utxo.isSpent) tables

def readUtxo (txid : Bytes) (vout : UInt32) (row : UtxoRow) : Except Fault LocalUtxo :=
  match toU64 row.value, KeychainKind.ofJson row.keychain, readTxid txid with
  | .ok value, some keychain, some txid =>
    .ok ⟨⟨txid, vout⟩, ⟨value, row.script⟩, keychain, row.isSpent⟩
  | .error fault, _, _ => .error fault
  | .ok _, none, _ => .error .json
  | .ok _, some _, none => .error .consensus

def selectUtxos : Except Fault (List LocalUtxo) :=
  tables.utxos.rows.mapM fun row => readUtxo row.1.1 row.1.2.toUInt32 row.2

def selectUtxoByOutpoint (txid : Bytes) (vout : UInt32) : Except Fault (Option LocalUtxo) :=
  match tables.utxos.lookup (txid, vout.toInt32) with
  | some row => (readUtxo txid vout row).map some
  | none => .ok none

def getUtxo (outpoint : OutPoint) : Except Fault (Option LocalUtxo) :=
  selectUtxoByOutpoint tables outpoint.txid.bytes.toList outpoint.vout

def delUtxo (outpoint : OutPoint) : Except Fault (Option LocalUtxo) × WalletTables :=
  deleteFound (selectUtxoByOutpoint tables outpoint.txid.bytes.toList outpoint.vout)
    (.deleteUtxoByOutpoint outpoint.txid.bytes.toList outpoint.vout) tables

def setLastIndex (keychain : KeychainKind) (value : UInt32) : Except Fault Unit × WalletTables :=
  execute (.updateLastDerivationIndex keychain.toJson value) tables

def getLastIndex (keychain : KeychainKind) : Except Fault (Option UInt32) :=
  match tables.lastDerivationIndices.lookup keychain.toJson with
  | some value => (toU32 value).map some
  | none => .ok none

def delLastIndex (keychain : KeychainKind) : Except Fault (Option UInt32) × WalletTables :=
  deleteFound (getLastIndex tables keychain)
    (.deleteLastDerivationIndexByKeychain keychain.toJson) tables

def storeIndex (statement : WalletStatement) (index : UInt32) :
    Except Fault UInt32 × WalletTables :=
  ((execute statement tables).1.map fun _ => index, (execute statement tables).2)

def incrementLastIndex (overflowChecks : Bool) (keychain : KeychainKind) :
    Except Fault UInt32 × WalletTables :=
  match getLastIndex tables keychain with
  | .ok (some value) =>
    match Machine.addU32 overflowChecks value 1 with
    | some index => storeIndex tables (.updateLastDerivationIndex keychain.toJson index) index
    | none => (.error .panic, tables)
  | .ok none => storeIndex tables (.insertLastDerivationIndex keychain.toJson 0) 0
  | .error fault => (.error fault, tables)

def setSyncTime (time : SyncTime) : Except Fault Unit × WalletTables :=
  execute (.updateSyncTime time.blockTime.height time.blockTime.timestamp) tables

def getSyncTime : Except Fault (Option SyncTime) :=
  match tables.syncTime.lookup 0 with
  | some row =>
    match toU32 row.height, toU64 row.timestamp with
    | .ok height, .ok timestamp => .ok (some ⟨⟨height, timestamp⟩⟩)
    | _, _ => .error .panic
  | none => .ok none

def delSyncTime : Except Fault (Option SyncTime) × WalletTables :=
  deleteFound (getSyncTime tables) .deleteSyncTime tables

end Operations

section

variable (overflowChecks : Bool)

def answering {α : Type} (answer : α → Answer) (result : Except Fault α × WalletTables) :
    Except Fault Answer × WalletTables := (result.1.map answer, result.2)

def step (tables : WalletTables) : Operation → Except Fault Answer × WalletTables
  | .setUtxo utxo => answering (fun _ => .done) (setUtxo tables utxo)
  | .delUtxo outpoint => answering .utxo (delUtxo tables outpoint)
  | .setLastIndex keychain value => answering (fun _ => .done) (setLastIndex tables keychain value)
  | .incrementLastIndex keychain =>
    answering .newIndex (incrementLastIndex tables overflowChecks keychain)
  | .delLastIndex keychain => answering .lastIndex (delLastIndex tables keychain)
  | .setSyncTime time => answering (fun _ => .done) (setSyncTime tables time)
  | .delSyncTime => answering .syncTime (delSyncTime tables)

def run (tables : WalletTables) : List Operation → List (Except Fault Answer) × WalletTables
  | [] => ([], tables)
  | operation :: rest =>
    let answer := step overflowChecks tables operation
    (answer.1 :: (run answer.2 rest).1, (run answer.2 rest).2)

end

/-- The getters and the listing return what the maps hold. -/
structure Agrees (tables : WalletTables) (m : Maps) : Prop where
  getUtxo_eq : ∀ outpoint, getUtxo tables outpoint = .ok (m.utxos outpoint)
  iterUtxos : ∃ utxos, selectUtxos tables = .ok utxos ∧ Lists LocalUtxo.outpoint utxos m.utxos
  getLastIndex_eq : ∀ keychain, getLastIndex tables keychain = .ok (m.lastIndices keychain)
  getSyncTime_eq : getSyncTime tables = .ok m.syncTime

def Operation.Fits : Operation → Prop
  | .setUtxo utxo => utxo.txout.value.toNat < 2 ^ 63
  | .setSyncTime time => time.blockTime.timestamp.toNat < 2 ^ 63
  | _ => True

def outpointKey (outpoint : OutPoint) : Bytes × Int32 :=
  (outpoint.txid.bytes.toList, outpoint.vout.toInt32)

def utxoRow (utxo : LocalUtxo) : (Bytes × Int32) × UtxoRow :=
  (outpointKey utxo.outpoint,
    ⟨utxo.txout.value.toInt64, utxo.keychain.toJson, utxo.txout.scriptPubkey, utxo.isSpent⟩)

def syncTimeRow (time : SyncTime) : SyncTimeRow :=
  ⟨time.blockTime.height.toUInt64.toInt64, time.blockTime.timestamp.toInt64⟩

/-- The rows hold the maps, whose values fit the columns. -/
structure Represents (tables : WalletTables) (m : Maps) : Prop where
  utxo_row : ∀ key row, tables.utxos.lookup key = some row ↔
    ∃ utxo, m.utxos utxo.outpoint = some utxo ∧ utxoRow utxo = (key, row)
  utxo_outpoint : ∀ outpoint utxo, m.utxos outpoint = some utxo → utxo.outpoint = outpoint
  utxo_fits : ∀ outpoint utxo, m.utxos outpoint = some utxo → utxo.txout.value.toNat < 2 ^ 63
  index_row : ∀ keychain, tables.lastDerivationIndices.lookup keychain.toJson =
    (m.lastIndices keychain).map fun index => index.toUInt64.toInt64
  sync_row : tables.syncTime.lookup 0 = m.syncTime.map syncTimeRow
  sync_fits : ∀ time, m.syncTime = some time → time.blockTime.timestamp.toNat < 2 ^ 63

variable {tables : WalletTables} {m m' : Maps}

theorem outpointKey_inj {a b : OutPoint} : outpointKey a = outpointKey b ↔ a = b := by
  obtain ⟨txid, vout⟩ := a
  obtain ⟨txid', vout'⟩ := b
  simp [outpointKey, toList_inj, toInt32_inj]

theorem readUtxo_utxoRow {utxo : LocalUtxo} (hFits : utxo.txout.value.toNat < 2 ^ 63) :
    readUtxo utxo.outpoint.txid.bytes.toList utxo.outpoint.vout (utxoRow utxo).2 = .ok utxo := by
  simp only [readUtxo, utxoRow, toU64_of_lt hFits, KeychainKind.ofJson_toJson, readTxid_toList]

theorem lookup_outpoint (h : Represents tables m) (outpoint : OutPoint) :
    tables.utxos.lookup (outpointKey outpoint) =
      (m.utxos outpoint).map fun utxo => (utxoRow utxo).2 := by
  cases hUtxo : m.utxos outpoint with
  | some utxo =>
    have hOutpoint := h.utxo_outpoint outpoint utxo hUtxo
    refine (h.utxo_row _ _).mpr ⟨utxo, hOutpoint.symm ▸ hUtxo, ?_⟩
    rw [← hOutpoint]
    rfl
  | none =>
    cases hRow : tables.utxos.lookup (outpointKey outpoint) with
    | none => rfl
    | some row =>
      obtain ⟨utxo, hStored, hSame⟩ := (h.utxo_row _ _).mp hRow
      rw [outpointKey_inj.mp (congrArg Prod.fst hSame), hUtxo] at hStored
      cases hStored

theorem getUtxo_eq (h : Represents tables m) (outpoint : OutPoint) :
    getUtxo tables outpoint = .ok (m.utxos outpoint) := by
  unfold getUtxo selectUtxoByOutpoint
  rw [show (outpoint.txid.bytes.toList, outpoint.vout.toInt32) = outpointKey outpoint from rfl,
    lookup_outpoint h]
  cases hUtxo : m.utxos outpoint with
  | none => rfl
  | some utxo =>
    obtain rfl := h.utxo_outpoint outpoint utxo hUtxo
    dsimp only [Option.map_some]
    rw [readUtxo_utxoRow (h.utxo_fits _ _ hUtxo)]
    rfl

theorem selectUtxos_eq (h : Represents tables m) :
    ∃ utxos, selectUtxos tables = .ok utxos ∧ Lists LocalUtxo.outpoint utxos m.utxos := by
  have hMem : ∀ row, row ∈ tables.utxos.rows ↔
      ∃ utxo, m.utxos (LocalUtxo.outpoint utxo) = some utxo ∧ utxoRow utxo = row := by
    intro row
    rw [← h.utxo_row row.1 row.2, Table.mem_rows_iff]
  have hOutpoint : ∀ utxo utxo', utxoRow utxo = utxoRow utxo' → utxo.outpoint = utxo'.outpoint :=
    fun _ _ hSame => outpointKey_inj.mp (congrArg Prod.fst hSame)
  obtain ⟨utxos, hRows, hList⟩ := Lists.of_rows hOutpoint (Lists.rows_nodup tables.utxos)
    h.utxo_outpoint hMem
  refine ⟨utxos, ?_, hList⟩
  have hRead : ∀ utxo ∈ utxos, readUtxo (utxoRow utxo).1.1 (utxoRow utxo).1.2.toUInt32
      (utxoRow utxo).2 = .ok utxo := by
    intro utxo hMem
    have hFits := h.utxo_fits _ _ (hList.mem_iff.mp hMem)
    exact readUtxo_utxoRow hFits
  rw [selectUtxos, hRows, List.mapM_map]
  exact (mapM_ok hRead).trans (congrArg _ (List.map_id' utxos))

theorem getLastIndex_eq (h : Represents tables m) (keychain : KeychainKind) :
    getLastIndex tables keychain = .ok (m.lastIndices keychain) := by
  unfold getLastIndex
  rw [h.index_row]
  cases m.lastIndices keychain with
  | none => rfl
  | some index =>
    dsimp only [Option.map_some]
    rw [toU32_toInt64]
    rfl

theorem getSyncTime_eq (h : Represents tables m) : getSyncTime tables = .ok m.syncTime := by
  unfold getSyncTime
  rw [h.sync_row]
  cases hTime : m.syncTime with
  | none => rfl
  | some time => simp [syncTimeRow, toU64_of_lt (h.sync_fits time hTime)]

theorem represents_setUtxo (h : Represents tables m) {utxo : LocalUtxo}
    (hFits : utxo.txout.value.toNat < 2 ^ 63) :
    Represents (setUtxo tables utxo).2
      { m with utxos := Function.update m.utxos utxo.outpoint (some utxo) } where
  utxo_row := lookup_upsert_iff (fun _ _ => outpointKey_inj) h.utxo_row utxo
  utxo_outpoint := forall_update rfl h.utxo_outpoint
  utxo_fits := forall_update hFits h.utxo_fits
  index_row := h.index_row
  sync_row := h.sync_row
  sync_fits := h.sync_fits

theorem represents_eraseUtxo (h : Represents tables m) (outpoint : OutPoint) :
    Represents { tables with utxos := tables.utxos.erase (outpointKey outpoint) }
      { m with utxos := Function.update m.utxos outpoint none } := by
  have hStored : ∀ other stored, Function.update m.utxos outpoint none other = some stored →
      other ≠ outpoint ∧ m.utxos other = some stored := by
    intro other stored hSome
    by_cases hSame : other = outpoint
    · subst hSame
      rw [Function.update_self] at hSome
      cases hSome
    · rw [Function.update_of_ne hSame] at hSome
      exact ⟨hSame, hSome⟩
  refine { h with utxo_row := ?_, utxo_outpoint := ?_, utxo_fits := ?_ }
  · intro key row
    by_cases hKey : key = outpointKey outpoint
    · subst hKey
      rw [AList.lookup_erase]
      refine iff_of_false nofun ?_
      rintro ⟨stored, hSome, hSame⟩
      exact (hStored _ _ hSome).1 (outpointKey_inj.mp (congrArg Prod.fst hSame))
    · rw [AList.lookup_erase_ne hKey, h.utxo_row]
      refine exists_congr fun stored => and_congr_left fun hSame => ?_
      have hNe : stored.outpoint ≠ outpoint := by
        intro hOutpoint
        exact hKey ((congrArg Prod.fst hSame).symm.trans (congrArg outpointKey hOutpoint))
      dsimp only
      rw [Function.update_of_ne hNe]
  · exact fun other stored hSome => h.utxo_outpoint other stored (hStored other stored hSome).2
  · exact fun other stored hSome => h.utxo_fits other stored (hStored other stored hSome).2

@[simp] theorem Maps.setIndex_self (m : Maps) (keychain : KeychainKind) (index : UInt32) :
    (m.setIndex keychain index).lastIndices keychain = some index := Function.update_self ..

theorem Maps.setIndex_of_ne {m : Maps} {keychain other : KeychainKind} {index : UInt32}
    (h : other ≠ keychain) :
    (m.setIndex keychain index).lastIndices other = m.lastIndices other :=
  Function.update_of_ne h ..

theorem represents_storeIndex (h : Represents tables m) (keychain : KeychainKind)
    (index : UInt32) :
    Represents { tables with
        lastDerivationIndices :=
          tables.lastDerivationIndices.insert keychain.toJson index.toUInt64.toInt64 }
      (m.setIndex keychain index) := by
  refine { h with index_row := fun other => ?_ }
  by_cases hSame : other = keychain
  · subst hSame
    rw [Maps.setIndex_self]
    exact AList.lookup_insert _
  · have hNe : other.toJson ≠ keychain.toJson := fun hJson =>
      hSame (KeychainKind.toJson_inj.mp hJson)
    rw [Maps.setIndex_of_ne hSame]
    exact (AList.lookup_insert_ne hNe).trans (h.index_row other)

theorem represents_setLastIndex (h : Represents tables m) (keychain : KeychainKind)
    (value : UInt32) :
    Represents (setLastIndex tables keychain value).2 (m.setIndex keychain value) := by
  have hInsert : (setLastIndex tables keychain value).2 = { tables with
      lastDerivationIndices :=
        tables.lastDerivationIndices.insert keychain.toJson value.toUInt64.toInt64 } :=
    congrArg (fun indices => { tables with lastDerivationIndices := indices })
      (Table.upsert_row ..)
  rw [hInsert]
  exact represents_storeIndex h keychain value

theorem represents_eraseIndex (h : Represents tables m) (keychain : KeychainKind) :
    Represents { tables with
        lastDerivationIndices := tables.lastDerivationIndices.erase keychain.toJson }
      { m with lastIndices := Function.update m.lastIndices keychain none } := by
  refine { h with index_row := fun other => ?_ }
  by_cases hSame : other = keychain
  · subst hSame
    dsimp only
    rw [Function.update_self]
    exact AList.lookup_erase _ _
  · have hNe : other.toJson ≠ keychain.toJson := fun hJson =>
      hSame (KeychainKind.toJson_inj.mp hJson)
    dsimp only
    rw [Function.update_of_ne hSame]
    exact (AList.lookup_erase_ne hNe).trans (h.index_row other)

theorem increment_refines (overflowChecks : Bool) (h : Represents tables m)
    {keychain : KeychainKind} {answer : Answer}
    (hStep : m.step (.incrementLastIndex keychain) = some (answer, m')) :
    ∃ tables', step overflowChecks tables (.incrementLastIndex keychain) = (.ok answer, tables') ∧
      Represents tables' m' := by
  dsimp only [Maps.step] at hStep
  split at hStep
  · rename_i hNext
    cases hStep
    unfold step incrementLastIndex
    dsimp only
    rw [getLastIndex_eq h]
    cases hIndex : m.lastIndices keychain with
    | none =>
      have hZero : m.nextIndex keychain = 0 := by simp [Maps.nextIndex, hIndex]
      have hAbsent : tables.lastDerivationIndices.insertNew keychain.toJson
          (0 : UInt32).toUInt64.toInt64 = some (tables.lastDerivationIndices.insert keychain.toJson
            (0 : UInt32).toUInt64.toInt64) := by
        refine Table.insertNew_eq_some_iff.mpr ⟨?_, rfl⟩
        rw [h.index_row, hIndex]
        rfl
      have hExecute : execute (.insertLastDerivationIndex keychain.toJson 0) tables =
          (.ok (), { tables with
            lastDerivationIndices := tables.lastDerivationIndices.insert keychain.toJson
              (0 : UInt32).toUInt64.toInt64 }) := by
        unfold execute WalletStatement.run
        dsimp only
        rw [hAbsent]
        rfl
      rw [hZero, storeIndex, hExecute]
      exact ⟨_, rfl, represents_storeIndex h keychain _⟩
    | some index =>
      have hSucc : m.nextIndex keychain = index.toNat + 1 := by simp [Maps.nextIndex, hIndex]
      rw [hSucc] at hNext ⊢
      have hSum : Machine.addU32 overflowChecks index 1 = some (.ofNat (index.toNat + 1)) := by
        rw [Machine.addU32_of_lt overflowChecks hNext]
        simp
      dsimp only
      rw [hSum]
      exact ⟨_, rfl, represents_setLastIndex h keychain _⟩
  · cases hStep

theorem step_refines (overflowChecks : Bool) (h : Represents tables m) {operation : Operation}
    (hFits : operation.Fits) {answer : Answer} (hStep : m.step operation = some (answer, m')) :
    ∃ tables', step overflowChecks tables operation = (.ok answer, tables') ∧
      Represents tables' m' := by
  cases operation with
  | setUtxo utxo =>
    cases hStep
    exact ⟨_, rfl, represents_setUtxo h hFits⟩
  | delUtxo outpoint =>
    cases hStep
    have hFound : selectUtxoByOutpoint tables outpoint.txid.bytes.toList outpoint.vout =
        .ok (m.utxos outpoint) := getUtxo_eq h outpoint
    unfold step delUtxo
    dsimp only
    rw [hFound]
    cases hUtxo : m.utxos outpoint with
    | none =>
      refine ⟨tables, rfl, ?_⟩
      rwa [Function.update_eq_self_iff.mpr hUtxo.symm]
    | some utxo => exact ⟨_, rfl, represents_eraseUtxo h outpoint⟩
  | setLastIndex keychain value =>
    cases hStep
    exact ⟨_, rfl, represents_setLastIndex h keychain value⟩
  | incrementLastIndex keychain => exact increment_refines overflowChecks h hStep
  | delLastIndex keychain =>
    cases hStep
    unfold step delLastIndex
    dsimp only
    rw [getLastIndex_eq h]
    cases hIndex : m.lastIndices keychain with
    | none =>
      refine ⟨tables, rfl, ?_⟩
      rwa [Function.update_eq_self_iff.mpr hIndex.symm]
    | some index => exact ⟨_, rfl, represents_eraseIndex h keychain⟩
  | setSyncTime time =>
    cases hStep
    refine ⟨_, rfl, { h with sync_row := ?_, sync_fits := fun _ hTime => ?_ }⟩
    · exact (Table.lookup_upsert_row _ _ _ _).trans (if_pos rfl)
    · obtain rfl := Option.some.inj hTime
      exact hFits
  | delSyncTime =>
    cases hStep
    unfold step delSyncTime
    dsimp only
    rw [getSyncTime_eq h]
    cases hTime : m.syncTime with
    | none =>
      refine ⟨tables, rfl, ?_⟩
      rw [← hTime]
      exact h
    | some time =>
      exact ⟨_, rfl, { h with sync_row := AList.lookup_erase _ _, sync_fits := nofun }⟩

/-- The answers are those of the maps, which the tables represent all along. -/
theorem run_refines (overflowChecks : Bool) (h : Represents tables m) {operations : List Operation}
    (hFits : ∀ operation ∈ operations, operation.Fits) {answers : List Answer}
    (hRun : m.run operations = some (answers, m')) :
    ∃ tables', run overflowChecks tables operations = (answers.map .ok, tables') ∧
      Represents tables' m' := by
  induction operations generalizing tables m answers with
  | nil =>
    cases hRun
    exact ⟨tables, rfl, h⟩
  | cons operation operations ih =>
    obtain ⟨⟨answer, between⟩, hStep, hRest⟩ := Option.bind_eq_some_iff.mp hRun
    obtain ⟨⟨rest, final⟩, hTail, hEq⟩ := Option.map_eq_some_iff.mp hRest
    cases hEq
    obtain ⟨tables₁, hFirst, hBetween⟩ :=
      step_refines overflowChecks h (hFits operation List.mem_cons_self) hStep
    obtain ⟨tables₂, hLast, hEnd⟩ :=
      ih hBetween (fun other hMem => hFits other (List.mem_cons_of_mem _ hMem)) hTail
    refine ⟨tables₂, ?_, hEnd⟩
    simp only [run, hFirst, hLast, List.map_cons]

theorem represents_initial : Represents (default : Database).wallet .empty where
  utxo_row _ _ := by
    refine iff_of_false ?_ nofun
    rw [show (default : Database).wallet.utxos = ∅ from rfl, AList.lookup_empty]
    nofun
  utxo_outpoint _ _ := nofun
  utxo_fits _ _ := nofun
  index_row _ := AList.lookup_empty _
  sync_row := AList.lookup_empty _
  sync_fits _ := nofun

theorem agrees (h : Represents tables m) : Agrees tables m :=
  ⟨getUtxo_eq h, selectUtxos_eq h, getLastIndex_eq h, getSyncTime_eq h⟩

/-- Consecutive increments give consecutive indices, as long as they fit. -/
theorem Maps.run_increments (m : Maps) (keychain : KeychainKind) (n : Nat)
    (h : m.nextIndex keychain + n ≤ 2 ^ 32) :
    ∃ indices : List UInt32, ∃ m',
      m.run (.replicate n (.incrementLastIndex keychain)) = some (indices.map .newIndex, m') ∧
      indices.map UInt32.toNat = List.range' (m.nextIndex keychain) n ∧
      (0 < n → m'.lastIndices keychain = indices.getLast?) := by
  induction n generalizing m with
  | zero => exact ⟨[], m, rfl, rfl, nofun⟩
  | succ n ih =>
    have hLt : m.nextIndex keychain < 2 ^ 32 := by omega
    have hStep : m.step (.incrementLastIndex keychain) =
        some (.newIndex (.ofNat (m.nextIndex keychain)),
          m.setIndex keychain (.ofNat (m.nextIndex keychain))) := if_pos hLt
    have hIndex : (UInt32.ofNat (m.nextIndex keychain)).toNat = m.nextIndex keychain :=
      UInt32.toNat_ofNat_of_lt hLt
    generalize UInt32.ofNat (m.nextIndex keychain) = index at hIndex hStep
    have hNext : (m.setIndex keychain index).nextIndex keychain = m.nextIndex keychain + 1 := by
      rw [← hIndex, nextIndex, setIndex_self]
      rfl
    obtain ⟨indices, m', hRun, hRange, hLast⟩ := ih (m.setIndex keychain index) (by omega)
    refine ⟨index :: indices, m', ?_, ?_, fun _ => ?_⟩
    · rw [List.replicate_succ, run, hStep]
      exact congrArg (Option.map _) hRun
    · rw [List.map_cons, hRange, hIndex, hNext, List.range'_succ]
    · cases n with
      | zero =>
        obtain rfl : indices = [] := by simpa using hRange
        cases hRun
        simp
      | succ n =>
        have hSome := hLast (Nat.succ_pos n)
        cases indices with
        | nil => simp at hRange
        | cons first rest => simpa using hSome

/-- Over any run whose values fit the columns, the tables answer as the maps do, agree with them
afterwards, and give out consecutive indices from then on. -/
theorem stores_refine_maps (overflowChecks : Bool) {operations : List Operation}
    {answers : List Answer} {m : Maps} (hFits : ∀ operation ∈ operations, operation.Fits)
    (hRun : Maps.empty.run operations = some (answers, m)) :
    ∃ tables, run overflowChecks (default : Database).wallet operations =
        (answers.map .ok, tables) ∧
      Agrees tables m ∧
      ∀ keychain n, m.nextIndex keychain + n ≤ 2 ^ 32 →
        ∃ indices : List UInt32, ∃ after,
          run overflowChecks tables (.replicate n (.incrementLastIndex keychain)) =
            (indices.map fun index => .ok (.newIndex index), after) ∧
          indices.map UInt32.toNat = List.range' (m.nextIndex keychain) n ∧
          indices.Nodup ∧
          (0 < n → getLastIndex after keychain = .ok indices.getLast?) := by
  obtain ⟨tables, hTables, hEnd⟩ := run_refines overflowChecks represents_initial hFits hRun
  refine ⟨tables, hTables, agrees hEnd, fun keychain n hRoom => ?_⟩
  obtain ⟨indices, m', hIncrements, hRange, hLast⟩ := m.run_increments keychain n hRoom
  obtain ⟨after, hAfter, hRepresents⟩ := run_refines overflowChecks hEnd
    (fun operation hMem => by rw [List.eq_of_mem_replicate hMem]; trivial) hIncrements
  refine ⟨indices, after, ?_, hRange, ?_, fun hPos => ?_⟩
  · rw [hAfter, List.map_map]
    rfl
  · refine List.Nodup.of_map UInt32.toNat ?_
    rw [hRange]
    exact List.nodup_range'
  · rw [getLastIndex_eq hRepresents, hLast hPos]

def exampleUtxo : LocalUtxo := ⟨⟨⟨.replicate 32 1⟩, 4294967295⟩, ⟨1000, [0x51]⟩, .internal, false⟩

def exampleOperations : List Operation :=
  [.setUtxo exampleUtxo, .setLastIndex .external 7, .incrementLastIndex .external,
    .setSyncTime ⟨⟨800000, 1700000000⟩⟩]

theorem stores_refine_maps_example :
    ∃ tables, run true (default : Database).wallet exampleOperations =
        ([.done, .done, .newIndex 8, .done].map .ok, tables) ∧
      getUtxo tables exampleUtxo.outpoint = .ok (some exampleUtxo) ∧
      getSyncTime tables = .ok (some ⟨⟨800000, 1700000000⟩⟩) := by
  have hFits : ∀ operation ∈ exampleOperations, operation.Fits := by
    simp [exampleOperations, Operation.Fits, exampleUtxo]
  obtain ⟨tables, hRun, hAgrees, _⟩ := stores_refine_maps true hFits rfl
  exact ⟨tables, hRun, hAgrees.getUtxo_eq _, hAgrees.getSyncTime_eq⟩

/-- A sync time from 2^63 on is stored as a negative number, and reading it panics. -/
theorem late_sync_time_panics :
    Maps.empty.run [.setSyncTime ⟨⟨0, 9223372036854775808⟩⟩] =
        some ([.done], { Maps.empty with syncTime := some ⟨⟨0, 9223372036854775808⟩⟩ }) ∧
      getSyncTime (run true (default : Database).wallet
        [.setSyncTime ⟨⟨0, 9223372036854775808⟩⟩]).2 = .error .panic :=
  ⟨rfl, by decide⟩

end Kld.WalletUtxos
