import Kld.Database.WalletTransactions

/-!
# The transaction details of the wallet

Details are found through the body with their id. They form a map as long as
every stored id has a body: details are stored with one or beside one, and a
body is not deleted under the details that need it.
-/

namespace Kld.WalletTransactions

open Sql Serial Transition Wallet Fallible

def nextDetails (_ : WalletTables) (stored : Txid → Option TransactionDetails) :
    Operation → Txid → Option TransactionDetails
  | .setTx details => Function.update stored details.txid (some details)
  | .delTx txid _ => Function.update stored txid none
  | .setRawTx _ => stored
  | .delRawTx _ => stored

/-- The readers and the deletion agree with the stored details, and show the bodies that the
raw transactions have. -/
structure DetailsMap (codec : Codec Transaction) (tables : WalletTables)
    (stored : Txid → Option TransactionDetails) : Prop where
  getTx_eq : ∀ txid, ∃ body, getRawTx codec tables txid = .ok body ∧ ∀ includeRaw,
    getTx codec tables txid includeRaw =
      .ok ((stored txid).map (·.withBody (if includeRaw then body else none)))
  iterTxs : ∀ includeRaw, ∃ ds shown, iterTxs codec tables includeRaw = .ok ds ∧
    Lists TransactionDetails.txid ds shown ∧
      ∀ txid, getTx codec tables txid includeRaw = .ok (shown txid)
  delTx_eq : ∀ txid includeRaw,
    (delTx codec tables txid includeRaw).1 = getTx codec tables txid true ∧
      ∀ includeRaw', getTx codec (delTx codec tables txid includeRaw).2 txid includeRaw' = .ok none

def HasRaw (tables : WalletTables) (txid : Txid) : Prop :=
  ∃ row ∈ tables.transactions, row.txid = txid.bytes.toList

/-- Details are stored with the body of their id, or when it is there already, and the body of
stored details stays. -/
def KeepsDetails (tables : WalletTables) (stored : Txid → Option TransactionDetails) :
    Operation → Prop
  | .setTx details => details.Fits ∧
    ((∃ transaction, details.transaction = some transaction ∧ transaction.txid = details.txid) ∨
      HasRaw tables details.txid)
  | .delRawTx txid => stored txid = none
  | .setRawTx _ => True
  | .delTx _ _ => True

structure Complete (txs : List Transaction) (ds : List TransactionDetails) : Prop where
  fits : ∀ details ∈ ds, details.Fits
  hasBody : ∀ details ∈ ds, ∃ transaction ∈ txs, transaction.txid = details.txid

def DetailsInv (codec : Codec Transaction) (tables : WalletTables)
    (stored : Txid → Option TransactionDetails) : Prop :=
  ∃ txs ds, Represents codec tables txs ds ∧ Lists TransactionDetails.txid ds stored ∧
    Complete txs ds

variable {codec : Codec Transaction} {tables : WalletTables} {txs : List Transaction}
  {ds : List TransactionDetails} {stored : Txid → Option TransactionDetails}

theorem hasRaw_iff (h : Represents codec tables txs ds) (txid : Txid) :
    HasRaw tables txid ↔ ∃ transaction ∈ txs, transaction.txid = txid := by
  simp [HasRaw, h.transactions_eq, transactionRow, toList_inj]

theorem find_txid {txid : Txid} (h : ∃ transaction ∈ txs, transaction.txid = txid) :
    ∃ transaction, txs.find? (fun transaction => transaction.txid = txid) = some transaction := by
  obtain ⟨transaction, hMem, hTxid⟩ := h
  rw [← Option.isSome_iff_exists, List.find?_isSome]
  exact ⟨transaction, hMem, decide_eq_true hTxid⟩

/-- With complete tables the lookup is that of the details. -/
theorem selectDetails_of_complete (h : Represents codec tables txs ds)
    (hList : Lists TransactionDetails.txid ds stored) (hComplete : Complete txs ds) (txid : Txid) :
    selectTransactionDetailsByTxid codec tables txid =
      .ok ((stored txid).map
        (·.withBody (txs.find? fun transaction => transaction.txid = txid))) := by
  rcases selectDetails_cases h txid with ⟨details, _, hFirst, hBody, _, hSelect⟩ |
    ⟨details, _, _, hFirst, _, hOverflows, _⟩ | ⟨hNone, hSelect⟩
  · rw [hList.find] at hFirst
    rw [hSelect, hFirst, hBody, Option.map_some]
  · exact absurd (hComplete.fits details (List.mem_of_find?_eq_some hFirst)) hOverflows
  · rw [hSelect]
    cases hStored : stored txid with
    | none => rfl
    | some details =>
      obtain ⟨hMem, rfl⟩ := (hList.some_iff _ _).mp hStored
      obtain ⟨body, hBody⟩ := find_txid (hComplete.hasBody details hMem)
      rw [hBody, hList.find, hStored] at hNone
      rcases hNone with hNone | hNone <;> cases hNone

theorem iterTxs_of_complete (h : Represents codec tables txs ds) (hComplete : Complete txs ds)
    (includeRaw : Bool) :
    iterTxs codec tables includeRaw = .ok (ds.map fun details => details.withBody
      (if includeRaw then txs.find? fun transaction => transaction.txid = details.txid
        else none)) := by
  cases includeRaw with
  | false =>
    change tables.transactionDetails.mapM _ = _
    rw [h.details_eq, List.mapM_map]
    refine mapM_ok fun details hMem => ?_
    exact readDetails_of_fits (hComplete.fits details hMem) none
  | true =>
    have hTxs : Lists Transaction.txid txs _ := Lists.of_nodup h.txids_nodup
    have hFilter : ∀ details ∈ ds,
        txs.filter (fun transaction => details.txid = transaction.txid) =
          (txs.find? fun transaction => transaction.txid = details.txid).toList := by
      intro details _
      simp only [eq_comm (a := details.txid)]
      exact hTxs.filter_key details.txid
    change (joinedDetails tables).mapM _ = _
    rw [joinedDetails_eq h, innerJoin_eq_filterMap hFilter, List.mapM_map]
    refine mapM_filterMap_ok fun details hMem => ?_
    obtain ⟨body, hBody⟩ := find_txid (hComplete.hasBody details hMem)
    refine ⟨(details, body), by rw [hBody, Option.map_some], ?_⟩
    dsimp only [Function.comp_apply]
    rw [readDetails_of_fits (hComplete.fits details hMem), Option.mapM_some, hBody]
    change (readTransaction codec (codec.write body) >>= _).map _ = _
    rw [readTransaction_write]
    rfl

theorem getTx_of_none {txid : Txid}
    (h : selectTransactionDetailsByTxid codec tables txid = .ok none) (includeRaw : Bool) :
    getTx codec tables txid includeRaw = .ok none := by
  rw [getTx, h]
  cases includeRaw <;> rfl

theorem detailsMap_of_inv (h : DetailsInv codec tables stored) :
    DetailsMap codec tables stored := by
  obtain ⟨txs, ds, hRows, hList, hComplete⟩ := h
  have hSelect := selectDetails_of_complete hRows hList hComplete
  have hGet : ∀ txid includeRaw, getTx codec tables txid includeRaw =
      .ok ((stored txid).map (·.withBody (if includeRaw then
        txs.find? fun transaction => transaction.txid = txid else none))) := by
    intro txid includeRaw
    rw [getTx, hSelect]
    cases stored txid <;> cases includeRaw <;> rfl
  refine ⟨fun txid => ⟨_, selectTransactionByTxid_eq hRows txid, hGet txid⟩, ?_, ?_⟩
  · intro includeRaw
    refine ⟨_, _, iterTxs_of_complete hRows hComplete includeRaw,
      hList.map _ (fun _ => rfl), fun txid => ?_⟩
    rw [hGet]
    cases hStored : stored txid with
    | none => rfl
    | some details =>
      obtain rfl := hList.key_eq hStored
      rfl
  · intro txid includeRaw
    cases hStored : stored txid with
    | none =>
      have hNone : selectTransactionDetailsByTxid codec tables txid = .ok none := by
        rw [hSelect, hStored]
        rfl
      rw [delTx_of_none hNone]
      refine ⟨?_, fun includeRaw' => getTx_of_none hNone includeRaw'⟩
      rw [getTx_of_none hNone, delTx, hNone]
      rfl
    | some details =>
      have hFound := hSelect txid
      rw [hStored, Option.map_some] at hFound
      have hAfter := delTx_represents hRows txid includeRaw hFound
      refine ⟨?_, fun includeRaw' => ?_⟩
      · rw [delTx, getTx, hFound]
        cases includeRaw <;> rfl
      · refine getTx_of_none ?_ includeRaw'
        rw [selectDetails_eq hAfter, (hList.erase txid).find, Function.update_self]

/-- The bodies after one was written under its id. -/
def written (txs : List Transaction) (body : Option Transaction) : List Transaction :=
  body.elim txs fun transaction =>
    if (txs.find? fun tx => tx.txid = transaction.txid).isSome then txs else txs ++ [transaction]

theorem mem_written (body : Option Transaction) {txid : Txid} :
    (∃ tx ∈ written txs body, tx.txid = txid) ↔
      (∃ tx ∈ txs, tx.txid = txid) ∨ ∃ transaction, body = some transaction ∧
        transaction.txid = txid := by
  cases body with
  | none => simp [written]
  | some transaction =>
    unfold written
    rw [Option.elim_some]
    split
    · rename_i hStored
      obtain ⟨tx, hMem, hTxid⟩ := List.find?_isSome.mp hStored
      refine ⟨Or.inl, ?_⟩
      rintro (hTxs | ⟨_, hBody, rfl⟩)
      · exact hTxs
      · cases hBody
        exact ⟨tx, hMem, of_decide_eq_true hTxid⟩
    · simp [or_and_right, exists_or]

theorem setTx_rows (hLength : ∀ transaction, (codec.write transaction).length ≠ 32)
    (h : Represents codec tables txs ds) (hList : Lists TransactionDetails.txid ds stored)
    (hComplete : Complete txs ds) (details : TransactionDetails) :
    ∃ ds', Represents codec (setTx codec tables details).2 (written txs details.transaction) ds' ∧
      Lists TransactionDetails.txid ds'
        (Function.update stored details.txid (some details)) := by
  have hSelect := selectDetails_of_complete h hList hComplete details.txid
  refine ⟨_, setTx_represents hLength h details hSelect, ?_⟩
  rw [Option.isSome_map]
  cases hOld : stored details.txid with
  | none => exact hList.append hOld
  | some old =>
    refine hList.replace ?_
    rw [hOld]
    nofun

theorem detailsInv_apply (hLength : ∀ transaction, (codec.write transaction).length ≠ 32)
    {operation : Operation} (hInv : DetailsInv codec tables stored)
    (hOk : KeepsDetails tables stored operation) :
    DetailsInv codec (operation.apply codec tables) (nextDetails tables stored operation) := by
  obtain ⟨txs, ds, hRows, hList, hComplete⟩ := hInv
  cases operation with
  | setRawTx transaction =>
    refine ⟨_, ds, setRawTx_represents hLength hRows transaction, hList, hComplete.fits, ?_⟩
    exact fun details hMem =>
      (mem_written (some transaction)).mpr (Or.inl (hComplete.hasBody details hMem))
  | setTx details =>
    obtain ⟨hFits, hBody⟩ := hOk
    obtain ⟨ds', hRows', hList'⟩ := setTx_rows hLength hRows hList hComplete details
    refine ⟨_, ds', hRows', hList', ?_, ?_⟩
    · intro other hMem
      have hStored := hList'.mem_iff.mp hMem
      by_cases hTxid : other.txid = details.txid
      · rw [hTxid, Function.update_self] at hStored
        exact Option.some.inj hStored ▸ hFits
      · rw [Function.update_of_ne hTxid] at hStored
        exact hComplete.fits other (hList.mem_iff.mpr hStored)
    · intro other hMem
      have hStored := hList'.mem_iff.mp hMem
      by_cases hTxid : other.txid = details.txid
      · rw [hTxid, mem_written, ← hasRaw_iff hRows]
        exact hBody.symm
      · rw [Function.update_of_ne hTxid] at hStored
        exact (mem_written _).mpr (Or.inl (hComplete.hasBody other (hList.mem_iff.mpr hStored)))
  | delRawTx txid =>
    refine ⟨_, ds, delRawTx_represents hRows txid, hList, hComplete.fits, fun details hMem => ?_⟩
    obtain ⟨body, hBody, hTxid⟩ := hComplete.hasBody details hMem
    refine ⟨body, List.mem_filter.mpr ⟨hBody, decide_eq_true ?_⟩, hTxid⟩
    rw [hTxid]
    exact hList.ne_of_none hOk hMem
  | delTx txid includeRaw =>
    have hSelect := selectDetails_of_complete hRows hList hComplete txid
    cases hStored : stored txid with
    | none =>
      rw [hStored] at hSelect
      have hSame : Function.update stored txid none = stored :=
        Function.update_eq_self_iff.mpr hStored.symm
      change DetailsInv codec (delTx codec tables txid includeRaw).2
        (Function.update stored txid none)
      rw [delTx_of_none hSelect, hSame]
      exact ⟨txs, ds, hRows, hList, hComplete⟩
    | some details =>
      rw [hStored] at hSelect
      refine ⟨_, _, delTx_represents hRows txid includeRaw hSelect, hList.erase txid, ?_, ?_⟩
      · exact fun other hMem => hComplete.fits other (List.mem_filter.mp hMem).1
      · intro other hMem
        obtain ⟨hOther, hNe⟩ := List.mem_filter.mp hMem
        obtain ⟨body, hBody, hTxid⟩ := hComplete.hasBody other hOther
        refine ⟨body, ?_, hTxid⟩
        cases includeRaw with
        | false => exact hBody
        | true => exact List.mem_filter.mpr ⟨hBody, by rwa [hTxid]⟩

/-- Stored details that have no body, or a number that overflows, are not found. -/
theorem not_detailsMap_of_stored {details : TransactionDetails} {txid : Txid}
    (h : Represents codec tables txs ds) (hList : Lists TransactionDetails.txid ds stored)
    (hStored : stored txid = some details)
    (hLost : ¬ details.Fits ∨ ¬ ∃ transaction ∈ txs, transaction.txid = txid) :
    ¬ DetailsMap codec tables stored := by
  intro hMap
  obtain ⟨body, _, hGet⟩ := hMap.getTx_eq txid
  have hFound := hGet true
  rw [hStored, Option.map_some, getTx] at hFound
  rcases selectDetails_cases h txid with ⟨first, transaction, hFirst, hBody, hFits, _⟩ |
    ⟨_, _, fault, _, _, _, hSelect⟩ | ⟨_, hSelect⟩
  · rw [hList.find, hStored] at hFirst
    rcases hLost with hOverflows | hMissing
    · exact hOverflows (Option.some.inj hFirst ▸ hFits)
    · exact hMissing ⟨transaction, List.mem_of_find?_eq_some hBody,
        by simpa using List.find?_some hBody⟩
  · rw [hSelect] at hFound
    cases hFound
  · rw [hSelect] at hFound
    cases hFound

theorem not_detailsMap_apply (hLength : ∀ transaction, (codec.write transaction).length ≠ 32)
    {operation : Operation} (hInv : DetailsInv codec tables stored)
    (hBad : ¬ KeepsDetails tables stored operation) :
    ¬ DetailsMap codec (operation.apply codec tables) (nextDetails tables stored operation) := by
  obtain ⟨txs, ds, hRows, hList, hComplete⟩ := hInv
  cases operation with
  | setRawTx transaction => exact absurd trivial hBad
  | delTx txid includeRaw => exact absurd trivial hBad
  | setTx details =>
    obtain ⟨ds', hRows', hList'⟩ := setTx_rows hLength hRows hList hComplete details
    refine not_detailsMap_of_stored hRows' hList' (Function.update_self ..) ?_
    rw [mem_written, ← hasRaw_iff hRows, or_comm (a := HasRaw ..)]
    exact Classical.not_and_iff_not_or_not.mp hBad
  | delRawTx txid =>
    obtain ⟨details, hStored⟩ := Option.ne_none_iff_exists'.mp hBad
    refine not_detailsMap_of_stored (delRawTx_represents hRows txid) hList hStored (Or.inr ?_)
    rintro ⟨body, hBody, hTxid⟩
    exact of_decide_eq_true (List.mem_filter.mp hBody).2 hTxid

theorem detailsInv_initial : OnTables (DetailsInv codec) (initial fun _ => none) :=
  ⟨_, rfl, [], [], ⟨rfl, List.nodup_nil, rfl⟩, Lists.nil TransactionDetails.txid, nofun, nofun⟩

/-- The details are a map over a whole run, direct or in batches, exactly if they are stored with
their body or beside it, with numbers that fit their columns, and no body is deleted under stored
details. -/
theorem details_store_iff (hLength : ∀ transaction, (codec.write transaction).length ≠ 32)
    {dialect : Dialect} {calls : List Call} {t : State (Txid → Option TransactionDetails)}
    (hRun : run (step codec dialect nextDetails) (initial fun _ => none) calls = some t) :
    Always (step codec dialect nextDetails) (OnTables (DetailsMap codec)) (initial fun _ => none)
        calls ↔
      Along (step codec dialect nextDetails) (OnOperations KeepsDetails) (initial fun _ => none)
        calls :=
  onTables_iff detailsMap_of_inv (detailsInv_apply hLength) (not_detailsMap_apply hLength)
    detailsInv_initial hRun

def exampleDetails (body : Option Transaction) : TransactionDetails :=
  { transaction := body, txid := (exampleTx 1).txid, received := 1, sent := 0, fee := none
    confirmationTime := none }

/-- Details without a body are stored, and never found. -/
theorem bodyless_details_lost :
    ¬ Always (step exampleCodec ⟨true, true⟩ nextDetails) (OnTables (DetailsMap exampleCodec))
      (initial fun _ => none) [.operation (.setTx (exampleDetails none))] := by
  intro hAlways
  refine not_onTables_step (not_detailsMap_apply exampleCodec_length) detailsInv_initial
    (fun hOk : OnOperations KeepsDetails _ (.operation (.setTx (exampleDetails none))) => ?_)
    (show step exampleCodec ⟨true, true⟩ nextDetails _ _ = some _ from rfl)
    (hAlways.2 _ rfl).start
  obtain ⟨_, ⟨_, hBody, _⟩ | ⟨_, hRow, _⟩⟩ := hOk _ rfl
  · cases hBody
  · cases hRow

theorem details_store_iff_batch :
    Always (step exampleCodec ⟨true, true⟩ nextDetails) (OnTables (DetailsMap exampleCodec))
        (initial fun _ => none)
        [.beginBatch, .operation (.setTx (exampleDetails (exampleTx 1))), .commitBatch] ↔
      Along (step exampleCodec ⟨true, true⟩ nextDetails) (OnOperations KeepsDetails)
        (initial fun _ => none)
        [.beginBatch, .operation (.setTx (exampleDetails (exampleTx 1))), .commitBatch] :=
  details_store_iff exampleCodec_length rfl

end Kld.WalletTransactions
