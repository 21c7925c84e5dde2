import Kld.Database.WalletTransactions

/-!
# The raw transactions of the wallet

The rows of a wallet hold a map from ids to transactions as long as no stored
transaction is rewritten by another with its id, and as long as the details that
the writers look up can be read.
-/

namespace Kld.WalletTransactions

open Sql Serial Transition Wallet Fallible

def storeBody (body : Option Transaction) (stored : Txid → Option Transaction) :
    Txid → Option Transaction :=
  body.elim stored fun transaction => Function.update stored transaction.txid (some transaction)

def HasDetails (tables : WalletTables) (txid : Txid) : Prop :=
  ∃ row ∈ tables.transactionDetails, row.txid = txid.bytes.toList

instance hasDetailsDecidable (tables : WalletTables) (txid : Txid) :
    Decidable (HasDetails tables txid) :=
  inferInstanceAs (Decidable (∃ row ∈ tables.transactionDetails, row.txid = txid.bytes.toList))

/-- A transaction is deleted with its details only if there are details to delete. -/
def nextStored (tables : WalletTables) (stored : Txid → Option Transaction) :
    Operation → Txid → Option Transaction
  | .setRawTx transaction => storeBody (some transaction) stored
  | .setTx details => storeBody details.transaction stored
  | .delRawTx txid => Function.update stored txid none
  | .delTx txid includeRaw =>
    if includeRaw ∧ HasDetails tables txid then Function.update stored txid none else stored

/-- The readers and the deletion agree with the stored transactions. -/
structure RawMap (codec : Codec Transaction) (tables : WalletTables)
    (stored : Txid → Option Transaction) : Prop where
  getRawTx_eq : ∀ txid, getRawTx codec tables txid = .ok (stored txid)
  iterRawTxs : ∃ txs, iterRawTxs codec tables = .ok txs ∧ Lists Transaction.txid txs stored
  delRawTx_eq : ∀ txid, (delRawTx codec tables txid).1 = .ok (stored txid) ∧
    getRawTx codec (delRawTx codec tables txid).2 txid = .ok none

def Readable (row : TransactionDetailsRow) : Prop :=
  0 ≤ row.received ∧ 0 ≤ row.sent ∧ (∀ fee, row.fee = some fee → 0 ≤ fee) ∧
    ∀ timestamp, row.timestamp = some timestamp → 0 ≤ timestamp

/-- The first details stored with a stored body have no number that overflows its column. -/
def LookupReadable (tables : WalletTables) (stored : Txid → Option Transaction) (txid : Txid) :
    Prop :=
  stored txid ≠ none → ∀ row,
    tables.transactionDetails.find? (fun row => row.txid = txid.bytes.toList) = some row →
      Readable row

def Repeats (stored : Txid → Option Transaction) (transaction : Transaction) : Prop :=
  ∀ old, stored transaction.txid = some old → transaction = old

/-- A stored transaction is only stored again as it is, and lookups of details succeed where the
operation depends on them. -/
def KeepsBodies (tables : WalletTables) (stored : Txid → Option Transaction) : Operation → Prop
  | .setRawTx transaction => Repeats stored transaction
  | .setTx details => ∀ transaction, details.transaction = some transaction →
    Repeats stored transaction ∧
      (stored transaction.txid = none → LookupReadable tables stored details.txid)
  | .delRawTx _ => True
  | .delTx txid includeRaw => includeRaw = true → LookupReadable tables stored txid

def TablesInv (codec : Codec Transaction) (tables : WalletTables)
    (stored : Txid → Option Transaction) : Prop :=
  ∃ txs ds, Represents codec tables txs ds ∧ Lists Transaction.txid txs stored

variable {codec : Codec Transaction} {tables : WalletTables} {txs : List Transaction}
  {ds : List TransactionDetails} {stored : Txid → Option Transaction}

theorem readable_detailsRow (details : TransactionDetails) :
    Readable (detailsRow details) ↔ details.Fits := by
  obtain ⟨transaction, txid, received, sent, fee, time⟩ := details
  simp [Readable, TransactionDetails.Fits, detailsRow, TransactionDetails.columns,
    Kld.TransactionDetails.toRow, zero_le_toInt64]

theorem lookupReadable_iff (h : Represents codec tables txs ds) (txid : Txid) :
    LookupReadable tables stored txid ↔
      (stored txid ≠ none → ∀ details,
        ds.find? (fun details => details.txid = txid) = some details → details.Fits) := by
  have hTxid : ∀ details : TransactionDetails,
      (detailsRow details).txid = txid.bytes.toList ↔ details.txid = txid := fun _ => toList_inj
  unfold LookupReadable
  simp only [h.details_eq, List.find?_map, Function.comp_def, hTxid]
  refine imp_congr_right fun _ => ?_
  cases ds.find? fun details => details.txid = txid with
  | none => simp
  | some details => simp [readable_detailsRow]

theorem rawMap_of_inv (h : TablesInv codec tables stored) : RawMap codec tables stored := by
  obtain ⟨txs, ds, hRows, hList⟩ := h
  have hGet : ∀ txid, selectTransactionByTxid codec tables txid = .ok (stored txid) := by
    intro txid
    rw [selectTransactionByTxid_eq hRows, hList.find]
  refine ⟨hGet, ⟨txs, ?_, hList⟩, fun txid => ⟨?_, ?_⟩⟩
  · rw [iterRawTxs, selectTransactions, hRows.transactions_eq, List.mapM_map]
    exact (mapM_ok fun _ _ => readTransaction_write _).trans (congrArg _ (List.map_id' txs))
  · rw [delRawTx, hGet]
    cases stored txid <;> rfl
  · rw [getRawTx, selectTransactionByTxid_eq (delRawTx_represents hRows txid),
      (hList.erase txid).find, Function.update_self]

theorem storeBody_repeated {transaction : Transaction}
    (h : stored transaction.txid = some transaction) :
    storeBody (some transaction) stored = stored := Function.update_eq_self_iff.mpr h.symm

theorem lists_storeBody (hList : Lists Transaction.txid txs stored) {transaction : Transaction}
    (hRepeats : Repeats stored transaction) :
    Lists Transaction.txid
      (if (txs.find? fun tx => tx.txid = transaction.txid).isSome then txs
        else txs ++ [transaction])
      (storeBody (some transaction) stored) := by
  rw [hList.find]
  cases hOld : stored transaction.txid with
  | none => exact hList.append hOld
  | some old =>
    obtain rfl := hRepeats old hOld
    rwa [storeBody_repeated hOld]

theorem hasDetails_of_find (h : Represents codec tables txs ds) {txid : Txid}
    {details : TransactionDetails}
    (hFind : ds.find? (fun details => details.txid = txid) = some details) :
    HasDetails tables txid := by
  have hTxid : details.txid = txid := by simpa using List.find?_some hFind
  refine ⟨detailsRow details, ?_, toList_inj.mpr hTxid⟩
  rw [h.details_eq]
  exact List.mem_map.mpr ⟨details, List.mem_of_find?_eq_some hFind, rfl⟩

theorem find_of_hasDetails (h : Represents codec tables txs ds) {txid : Txid}
    (hHas : HasDetails tables txid) :
    ds.find? (fun details => details.txid = txid) ≠ none := by
  obtain ⟨row, hMem, hTxid⟩ := hHas
  rw [h.details_eq] at hMem
  obtain ⟨details, hDetails, rfl⟩ := List.mem_map.mp hMem
  intro hNone
  exact List.find?_eq_none.mp hNone details hDetails (decide_eq_true (toList_inj.mp hTxid))

theorem setTx_keeps (hLength : ∀ transaction, (codec.write transaction).length ≠ 32)
    (hInv : TablesInv codec tables stored) {details : TransactionDetails}
    (hOk : KeepsBodies tables stored (.setTx details)) :
    TablesInv codec (setTx codec tables details).2 (storeBody details.transaction stored) := by
  obtain ⟨txs, ds, hRows, hList⟩ := id hInv
  have hFound : ∀ {found}, selectTransactionDetailsByTxid codec tables details.txid = .ok found →
      TablesInv codec (setTx codec tables details).2 (storeBody details.transaction stored) := by
    intro found hSelect
    refine ⟨_, _, setTx_represents hLength hRows details hSelect, ?_⟩
    cases hBody : details.transaction with
    | none => exact hList
    | some transaction => exact lists_storeBody hList (hOk transaction hBody).1
  rcases selectDetails_cases hRows details.txid with ⟨_, _, _, _, _, hSelect⟩ |
    ⟨first, body, fault, hFirst, hBody, hOverflows, hSelect⟩ | ⟨_, hSelect⟩
  · exact hFound hSelect
  · have hKept : storeBody details.transaction stored = stored := by
      cases hTransaction : details.transaction with
      | none => rfl
      | some transaction =>
        obtain ⟨hRepeats, hReadable⟩ := hOk transaction hTransaction
        cases hOld : stored transaction.txid with
        | none =>
          have hStored : stored details.txid ≠ none := by
            rw [← hList.find, hBody]
            nofun
          exact absurd ((lookupReadable_iff hRows _).mp (hReadable hOld) hStored first hFirst)
            hOverflows
        | some old =>
          obtain rfl := hRepeats old hOld
          exact storeBody_repeated hOld
    rwa [setTx_of_fault hSelect, hKept]
  · exact hFound hSelect

theorem delTx_keeps (hInv : TablesInv codec tables stored) {txid : Txid} {includeRaw : Bool}
    (hOk : KeepsBodies tables stored (.delTx txid includeRaw)) :
    TablesInv codec (delTx codec tables txid includeRaw).2
      (nextStored tables stored (.delTx txid includeRaw)) := by
  obtain ⟨txs, ds, hRows, hList⟩ := id hInv
  unfold nextStored
  dsimp only
  rcases selectDetails_cases hRows txid with ⟨first, _, hFirst, _, _, hSelect⟩ |
    ⟨first, body, fault, hFirst, hBody, hOverflows, hSelect⟩ | ⟨hNone, hSelect⟩
  · refine ⟨_, _, delTx_represents hRows txid includeRaw hSelect, ?_⟩
    cases includeRaw with
    | false => simpa using hList
    | true =>
      have hHas := hasDetails_of_find hRows hFirst
      simpa [hHas] using hList.erase txid
  · rw [delTx_of_fault hSelect]
    cases includeRaw with
    | false => simpa using hInv
    | true =>
      have hStored : stored txid ≠ none := by
        rw [← hList.find, hBody]
        nofun
      exact absurd ((lookupReadable_iff hRows _).mp (hOk rfl) hStored first hFirst) hOverflows
  · rw [delTx_of_none hSelect]
    split
    · rename_i hDeletes
      rcases hNone with hNone | hNone
      · exact absurd hNone (find_of_hasDetails hRows hDeletes.2)
      · rw [hList.find] at hNone
        rwa [Function.update_eq_self_iff.mpr hNone.symm]
    · exact hInv

theorem tablesInv_apply (hLength : ∀ transaction, (codec.write transaction).length ≠ 32)
    {operation : Operation} (hInv : TablesInv codec tables stored)
    (hOk : KeepsBodies tables stored operation) :
    TablesInv codec (operation.apply codec tables) (nextStored tables stored operation) := by
  cases operation with
  | setRawTx transaction =>
    obtain ⟨txs, ds, hRows, hList⟩ := hInv
    exact ⟨_, ds, setRawTx_represents hLength hRows transaction, lists_storeBody hList hOk⟩
  | setTx details => exact setTx_keeps hLength hInv hOk
  | delRawTx txid =>
    obtain ⟨txs, ds, hRows, hList⟩ := hInv
    exact ⟨_, ds, delRawTx_represents hRows txid, hList.erase txid⟩
  | delTx txid includeRaw => exact delTx_keeps hInv hOk

/-- A body that was not written shows at the next lookup. -/
theorem not_rawMap_of_find {after : WalletTables} {stored' : Txid → Option Transaction}
    {txs' : List Transaction} {ds' : List TransactionDetails} (txid : Txid)
    (h : Represents codec after txs' ds')
    (hDiffers : txs'.find? (fun transaction => transaction.txid = txid) ≠ stored' txid) :
    ¬ RawMap codec after stored' := by
  intro hMap
  have hGet := hMap.getRawTx_eq txid
  rw [getRawTx, selectTransactionByTxid_eq h] at hGet
  exact hDiffers (Except.ok.inj hGet)

theorem storeBody_self (transaction : Transaction) (stored : Txid → Option Transaction) :
    storeBody (some transaction) stored transaction.txid = some transaction :=
  Function.update_self ..

theorem setTx_breaks (hLength : ∀ transaction, (codec.write transaction).length ≠ 32)
    (hInv : TablesInv codec tables stored) {details : TransactionDetails}
    (hBad : ¬ KeepsBodies tables stored (.setTx details)) :
    ¬ RawMap codec (setTx codec tables details).2 (storeBody details.transaction stored) := by
  obtain ⟨txs, ds, hRows, hList⟩ := hInv
  simp only [KeepsBodies, not_forall] at hBad
  obtain ⟨transaction, hBody, hNot⟩ := hBad
  rw [hBody]
  by_cases hRepeats : Repeats stored transaction
  · -- The lookup of the details panics before the new body is written.
    have hNew : ¬ (stored transaction.txid = none → LookupReadable tables stored details.txid) :=
      fun hReadable => hNot ⟨hRepeats, hReadable⟩
    rw [Classical.not_imp, lookupReadable_iff hRows] at hNew
    obtain ⟨hAbsent, hUnreadable⟩ := hNew
    simp only [not_forall] at hUnreadable
    obtain ⟨hStored, first, hFirst, hOverflows⟩ := hUnreadable
    rcases selectDetails_cases hRows details.txid with ⟨_, _, hFound, _, hFits, _⟩ |
      ⟨_, _, fault, _, _, _, hSelect⟩ | ⟨hNone, _⟩
    · rw [hFirst] at hFound
      exact absurd (Option.some.inj hFound ▸ hFits) hOverflows
    · rw [setTx_of_fault hSelect]
      refine not_rawMap_of_find transaction.txid hRows ?_
      rw [hList.find, hAbsent, storeBody_self]
      nofun
    · rcases hNone with hNone | hNone
      · rw [hFirst] at hNone
        cases hNone
      · rw [hList.find] at hNone
        exact absurd hNone hStored
  · simp only [Repeats, not_forall] at hRepeats
    obtain ⟨old, hOld, hNe⟩ := hRepeats
    have hFind : txs.find? (fun tx => tx.txid = transaction.txid) = some old := by
      rw [hList.find, hOld]
    have hDiffers : txs.find? (fun tx => tx.txid = transaction.txid) ≠
        storeBody (some transaction) stored transaction.txid := by
      rw [hFind, storeBody_self]
      exact fun hSame => hNe (Option.some.inj hSame).symm
    have hFound : ∀ {found}, selectTransactionDetailsByTxid codec tables details.txid = .ok found →
        ¬ RawMap codec (setTx codec tables details).2 (storeBody (some transaction) stored) := by
      intro found hSelect
      have hAfter := setTx_represents hLength hRows details hSelect
      rw [hBody, Option.elim_some, hFind, if_pos (Option.isSome_some ..)] at hAfter
      exact not_rawMap_of_find _ hAfter hDiffers
    rcases selectDetails_cases hRows details.txid with ⟨_, _, _, _, _, hSelect⟩ |
      ⟨_, _, fault, _, _, _, hSelect⟩ | ⟨_, hSelect⟩
    · exact hFound hSelect
    · rw [setTx_of_fault hSelect]
      exact not_rawMap_of_find _ hRows hDiffers
    · exact hFound hSelect

theorem not_rawMap_apply (hLength : ∀ transaction, (codec.write transaction).length ≠ 32)
    {operation : Operation} (hInv : TablesInv codec tables stored)
    (hBad : ¬ KeepsBodies tables stored operation) :
    ¬ RawMap codec (operation.apply codec tables) (nextStored tables stored operation) := by
  cases operation with
  | setTx details => exact setTx_breaks hLength hInv hBad
  | delRawTx txid => exact absurd trivial hBad
  | setRawTx transaction =>
    obtain ⟨txs, ds, hRows, hList⟩ := hInv
    simp only [KeepsBodies, Repeats, not_forall] at hBad
    obtain ⟨old, hOld, hNe⟩ := hBad
    have hFind : txs.find? (fun tx => tx.txid = transaction.txid) = some old := by
      rw [hList.find, hOld]
    have hAfter := setRawTx_represents hLength hRows transaction
    rw [hFind, if_pos (Option.isSome_some ..)] at hAfter
    refine not_rawMap_of_find transaction.txid hAfter ?_
    rw [hFind, nextStored, storeBody_self]
    exact fun hSame => hNe (Option.some.inj hSame).symm
  | delTx txid includeRaw =>
    obtain ⟨txs, ds, hRows, hList⟩ := hInv
    simp only [KeepsBodies, Classical.not_imp] at hBad
    obtain ⟨rfl, hUnreadable⟩ := hBad
    rw [lookupReadable_iff hRows] at hUnreadable
    simp only [not_forall] at hUnreadable
    obtain ⟨hStored, first, hFirst, hOverflows⟩ := hUnreadable
    rcases selectDetails_cases hRows txid with ⟨_, _, hFound, _, hFits, _⟩ |
      ⟨_, _, fault, _, _, _, hSelect⟩ | ⟨hNone, _⟩
    · rw [hFirst] at hFound
      exact absurd (Option.some.inj hFound ▸ hFits) hOverflows
    · have hAfter : (Operation.delTx txid true).apply codec tables = tables :=
        delTx_of_fault hSelect
      rw [hAfter]
      refine not_rawMap_of_find txid hRows ?_
      rw [hList.find, nextStored, if_pos ⟨rfl, hasDetails_of_find hRows hFirst⟩,
        Function.update_self]
      exact hStored
    · rcases hNone with hNone | hNone
      · rw [hFirst] at hNone
        cases hNone
      · rw [hList.find] at hNone
        exact absurd hNone hStored

theorem tablesInv_initial : OnTables (TablesInv codec) (initial fun _ => none) :=
  ⟨_, rfl, [], [], ⟨rfl, List.nodup_nil, rfl⟩, Lists.nil Transaction.txid⟩

/-- The raw transactions are a map over a whole run, direct or in batches, exactly if a stored
transaction is only stored again as it is, and the lookups of details that decide over a body
succeed. -/
theorem raw_store_iff (hLength : ∀ transaction, (codec.write transaction).length ≠ 32)
    {dialect : Dialect} {calls : List Call} {t : State (Txid → Option Transaction)}
    (hRun : run (step codec dialect nextStored) (initial fun _ => none) calls = some t) :
    Always (step codec dialect nextStored) (OnTables (RawMap codec)) (initial fun _ => none) calls ↔
      Along (step codec dialect nextStored) (OnOperations KeepsBodies) (initial fun _ => none)
        calls :=
  onTables_iff rawMap_of_inv (tablesInv_apply hLength) (not_rawMap_apply hLength)
    tablesInv_initial hRun

def rewriting : List Call :=
  [.operation (.setRawTx (exampleTx 1)), .operation (.setRawTx (exampleTx 2))]

/-- The second transaction with an id is lost. -/
theorem rewritten_transaction_lost :
    ¬ Always (step exampleCodec ⟨true, true⟩ nextStored) (OnTables (RawMap exampleCodec))
      (initial fun _ => none) rewriting := by
  intro hAlways
  have hNew : OnOperations KeepsBodies (initial fun _ => none)
      (.operation (.setRawTx (exampleTx 1))) := by
    intro tables hTables old hOld
    cases hOld
  have hStep : step exampleCodec ⟨true, true⟩ nextStored (initial fun _ => none)
      (.operation (.setRawTx (exampleTx 1))) = some _ := rfl
  have hFirst := onTables_step (tablesInv_apply exampleCodec_length) tablesInv_initial hNew hStep
  refine not_onTables_step (not_rawMap_apply exampleCodec_length) hFirst
    (fun hOk : OnOperations KeepsBodies _ (.operation (.setRawTx (exampleTx 2))) => ?_)
    (show step exampleCodec ⟨true, true⟩ nextStored _ _ = some _ from rfl)
    ((hAlways.2 _ rfl).2 _ rfl).start
  have hSame := hOk _ rfl (exampleTx 1) (storeBody_self (exampleTx 1) fun _ => none)
  exact absurd hSame (by decide)

theorem raw_store_iff_batch :
    Always (step exampleCodec ⟨true, true⟩ nextStored) (OnTables (RawMap exampleCodec))
        (initial fun _ => none)
        [.beginBatch, .operation (.setRawTx (exampleTx 1)), .commitBatch] ↔
      Along (step exampleCodec ⟨true, true⟩ nextStored) (OnOperations KeepsBodies)
        (initial fun _ => none)
        [.beginBatch, .operation (.setRawTx (exampleTx 1)), .commitBatch] :=
  raw_store_iff exampleCodec_length rfl

end Kld.WalletTransactions
