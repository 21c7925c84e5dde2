import Kld.Database.WalletStore
import Kld.Lib.Run

/-!
# Transactions and their details

Bodies and details are two tables without a primary key. The lookup of details,
on which the writers rely as well, joins the two, so that details without a body
are stored and never found. Rewriting a body binds its two parameters in the
wrong order, and so looks for a row whose id is the serialised transaction.
-/

namespace Kld.WalletTransactions

open Sql Serial Transition Wallet Fallible

structure TransactionDetails where
  transaction : Option Transaction
  txid : Txid
  received : UInt64
  sent : UInt64
  fee : Option UInt64
  confirmationTime : Option BlockTime
deriving DecidableEq

/-- The parameters of the statements that write details. -/
def TransactionDetails.columns (details : TransactionDetails) : Kld.TransactionDetails :=
  { txid := details.txid.bytes.toList
    timestamp := details.confirmationTime.map BlockTime.timestamp
    received := details.received, sent := details.sent, fee := details.fee
    height := details.confirmationTime.map BlockTime.height }

def TransactionDetails.withBody (body : Option Transaction) (details : TransactionDetails) :
    TransactionDetails := { details with transaction := body }

section Operations

variable (codec : Codec Transaction) (tables : WalletTables)

def readTransaction (rawTx : Bytes) : Except Fault Transaction :=
  match codec.read rawTx with
  | some transaction => .ok transaction
  | none => .error .consensus

def confirmation (height : Option UInt32) (timestamp : Option UInt64) : Option BlockTime :=
  match height, timestamp with
  | some height, some timestamp => some ⟨height, timestamp⟩
  | _, _ => none

def readDetails (row : TransactionDetailsRow) (rawTx : Option Bytes) :
    Except Fault TransactionDetails := do
  let some txid := readTxid row.txid | .error .consensus
  let timestamp ← row.timestamp.mapM toU64
  let received ← toU64 row.received
  let sent ← toU64 row.sent
  let fee ← row.fee.mapM toU64
  let height ← row.height.mapM toU32
  let transaction ← rawTx.mapM (readTransaction codec)
  return { transaction := transaction, txid := txid, received := received, sent := sent, fee := fee
           confirmationTime := confirmation height timestamp }

def selectTransactions : Except Fault (List Transaction) :=
  tables.transactions.mapM fun row => readTransaction codec row.rawTx

def selectTransactionByTxid (txid : Txid) : Except Fault (Option Transaction) :=
  match tables.transactions.find? fun row => row.txid = txid.bytes.toList with
  | some row => (readTransaction codec row.rawTx).map some
  | none => .ok none

/-- `FROM wallet_transaction_details wtd, wallet_transactions wt WHERE wtd.txid = wt.txid` -/
def joinedDetails : List (TransactionDetailsRow × TransactionRow) :=
  innerJoin (fun details transaction => details.txid = transaction.txid) tables.transactionDetails
    tables.transactions

def selectTransactionDetailsWithRaw : Except Fault (List TransactionDetails) :=
  (joinedDetails tables).mapM fun row => readDetails codec row.1 (some row.2.rawTx)

def selectTransactionDetails : Except Fault (List TransactionDetails) :=
  tables.transactionDetails.mapM fun row => readDetails codec row none

def selectTransactionDetailsByTxid (txid : Txid) : Except Fault (Option TransactionDetails) :=
  match (joinedDetails tables).find? fun row => row.1.txid = txid.bytes.toList with
  | some row => (readDetails codec row.1 (some row.2.rawTx)).map some
  | none => .ok none

def setRawTx (transaction : Transaction) : Except Fault Unit × WalletTables :=
  match selectTransactionByTxid codec tables transaction.txid with
  | .ok (some _) =>
    execute (.updateTransaction transaction.txid.bytes.toList (codec.write transaction)) tables
  | .ok none =>
    execute (.insertTransaction transaction.txid.bytes.toList (codec.write transaction)) tables
  | .error fault => (.error fault, tables)

def setTx (details : TransactionDetails) : Except Fault Unit × WalletTables :=
  match selectTransactionDetailsByTxid codec tables details.txid with
  | .ok found =>
    let written :=
      if found.isSome then execute (.updateTransactionDetails details.columns) tables
      else execute (.insertTransactionDetails details.columns) tables
    match written.1, details.transaction with
    | .ok _, some transaction => setRawTx codec written.2 transaction
    | _, _ => written
  | .error fault => (.error fault, tables)

def delRawTx (txid : Txid) : Except Fault (Option Transaction) × WalletTables :=
  deleteFound (selectTransactionByTxid codec tables txid)
    (.deleteTransactionByTxid txid.bytes.toList) tables

def delTx (txid : Txid) (includeRaw : Bool) :
    Except Fault (Option TransactionDetails) × WalletTables :=
  let deleted := deleteFound (selectTransactionDetailsByTxid codec tables txid)
    (.deleteTransactionDetailsByTxid txid.bytes.toList) tables
  match deleted.1 with
  | .ok (some details) =>
    if includeRaw then
      ((execute (.deleteTransactionByTxid txid.bytes.toList) deleted.2).1.map fun _ => some details,
        (execute (.deleteTransactionByTxid txid.bytes.toList) deleted.2).2)
    else deleted
  | _ => deleted

def iterRawTxs : Except Fault (List Transaction) := selectTransactions codec tables

def iterTxs (includeRaw : Bool) : Except Fault (List TransactionDetails) :=
  if includeRaw then selectTransactionDetailsWithRaw codec tables
  else selectTransactionDetails codec tables

def getRawTx (txid : Txid) : Except Fault (Option Transaction) :=
  selectTransactionByTxid codec tables txid

def getTx (txid : Txid) (includeRaw : Bool) : Except Fault (Option TransactionDetails) :=
  (selectTransactionDetailsByTxid codec tables txid).map fun found =>
    if includeRaw then found else found.map (·.withBody none)

end Operations

inductive Operation where
  | setRawTx (transaction : Transaction)
  | setTx (details : TransactionDetails)
  | delRawTx (txid : Txid)
  | delTx (txid : Txid) (includeRaw : Bool)
deriving DecidableEq

def Operation.apply (codec : Codec Transaction) (tables : WalletTables) : Operation → WalletTables
  | .setRawTx transaction => (WalletTransactions.setRawTx codec tables transaction).2
  | .setTx details => (WalletTransactions.setTx codec tables details).2
  | .delRawTx txid => (WalletTransactions.delRawTx codec tables txid).2
  | .delTx txid includeRaw => (WalletTransactions.delTx codec tables txid includeRaw).2

/-- Operations are sent over the session directly, or between `BEGIN` and `COMMIT`. -/
inductive Call where
  | operation (operation : Operation)
  | beginBatch
  | commitBatch
deriving DecidableEq

/-- The session, beside what the operations were meant to store. -/
structure State (γ : Type) where
  session : Session Database
  meant : γ

def initial {γ : Type} (meant : γ) : State γ := ⟨.connect default, meant⟩

def State.tables {γ : Type} (s : State γ) : Option WalletTables :=
  s.session.visible.map Database.wallet

/-- `next` says what an operation on the tables is meant to store. -/
def step {γ : Type} (codec : Codec Transaction) (dialect : Dialect)
    (next : WalletTables → γ → Operation → γ) (s : State γ) : Call → Option (State γ)
  | .operation operation =>
    some
      { session := (s.session.statement fun db =>
          some { db with wallet := operation.apply codec db.wallet }).2
        meant := s.tables.elim s.meant fun tables => next tables s.meant operation }
  | .beginBatch =>
    match s.session.transaction with
    | .idle => some { s with session := (s.session.begin dialect).2 }
    | _ => none
  | .commitBatch =>
    match s.session.transaction with
    | .active _ => some { s with session := (s.session.commit dialect true).2 }
    | _ => none

/-- The session sees tables that stand in the relation `P` to what was meant. -/
def OnTables {γ : Type} (P : WalletTables → γ → Prop) (s : State γ) : Prop :=
  ∃ tables, s.tables = some tables ∧ P tables s.meant

/-- Every operation meets `ok` on the tables that the session sees. -/
def OnOperations {γ : Type} (ok : WalletTables → γ → Operation → Prop) (s : State γ) :
    Call → Prop
  | .operation operation => ∀ tables, s.tables = some tables → ok tables s.meant operation
  | _ => True

section Session

variable {γ : Type} {codec : Codec Transaction} {dialect : Dialect}
  {next : WalletTables → γ → Operation → γ} {s s' : State γ} {tables : WalletTables}

theorem tables_operation {operation : Operation} (hTables : s.tables = some tables)
    (hStep : step codec dialect next s (.operation operation) = some s') :
    s'.tables = some (operation.apply codec tables) ∧ s'.meant = next tables s.meant operation := by
  obtain rfl := Option.some.inj hStep
  obtain ⟨db, hVisible, hWallet⟩ := Option.map_eq_some_iff.mp hTables
  refine ⟨?_, ?_⟩
  · subst hWallet
    refine Option.map_eq_some_iff.mpr
      ⟨{ db with wallet := operation.apply codec db.wallet }, ?_, rfl⟩
    exact visible_statement hVisible rfl
  · dsimp only
    rw [hTables, Option.elim_some]

/-- Beginning and committing a batch leaves what the session sees. -/
theorem tables_batch {call : Call} (hBatch : call = .beginBatch ∨ call = .commitBatch)
    (hStep : step codec dialect next s call = some s') :
    s'.tables = s.tables ∧ s'.meant = s.meant := by
  obtain ⟨⟨committed, transaction⟩, meant⟩ := s
  rcases hBatch with rfl | rfl
  · cases transaction with
    | idle =>
      cases hStep
      exact ⟨rfl, rfl⟩
    | active working => cases hStep
    | aborted => cases hStep
  · cases transaction with
    | idle => cases hStep
    | active working =>
      cases hStep
      exact ⟨rfl, rfl⟩
    | aborted => cases hStep

variable {Inv P : WalletTables → γ → Prop} {ok : WalletTables → γ → Operation → Prop}

theorem onTables_step {call : Call}
    (hGood : ∀ {tables meant operation}, Inv tables meant → ok tables meant operation →
      Inv (operation.apply codec tables) (next tables meant operation))
    (hInv : OnTables Inv s) (hOk : OnOperations ok s call)
    (hStep : step codec dialect next s call = some s') : OnTables Inv s' := by
  obtain ⟨tables, hTables, hRows⟩ := hInv
  cases call with
  | operation operation =>
    obtain ⟨hAfter, hMeant⟩ := tables_operation hTables hStep
    exact ⟨_, hAfter, hMeant ▸ hGood hRows (hOk tables hTables)⟩
  | beginBatch =>
    obtain ⟨hAfter, hMeant⟩ := tables_batch (Or.inl rfl) hStep
    exact ⟨tables, hAfter.trans hTables, hMeant ▸ hRows⟩
  | commitBatch =>
    obtain ⟨hAfter, hMeant⟩ := tables_batch (Or.inr rfl) hStep
    exact ⟨tables, hAfter.trans hTables, hMeant ▸ hRows⟩

theorem not_onTables_step {call : Call}
    (hBad : ∀ {tables meant operation}, Inv tables meant → ¬ ok tables meant operation →
      ¬ P (operation.apply codec tables) (next tables meant operation))
    (hInv : OnTables Inv s) (hNot : ¬ OnOperations ok s call)
    (hStep : step codec dialect next s call = some s') : ¬ OnTables P s' := by
  rintro ⟨after, hAfter, hP⟩
  obtain ⟨tables, hTables, hRows⟩ := hInv
  cases call with
  | beginBatch => exact hNot trivial
  | commitBatch => exact hNot trivial
  | operation operation =>
    obtain ⟨hApplied, hMeant⟩ := tables_operation hTables hStep
    obtain rfl := Option.some.inj (hAfter.symm.trans hApplied)
    refine hNot fun tables' hTables' => ?_
    obtain rfl := Option.some.inj (hTables.symm.trans hTables')
    by_contra hNotOk
    exact hBad hRows hNotOk (hMeant ▸ hP)

/-- What holds of the operations one by one holds of runs, directly and in batches. -/
theorem onTables_iff (hP : ∀ {tables meant}, Inv tables meant → P tables meant)
    (hGood : ∀ {tables meant operation}, Inv tables meant → ok tables meant operation →
      Inv (operation.apply codec tables) (next tables meant operation))
    (hBad : ∀ {tables meant operation}, Inv tables meant → ¬ ok tables meant operation →
      ¬ P (operation.apply codec tables) (next tables meant operation))
    {calls : List Call} {t : State γ} (hInv : OnTables Inv s)
    (hRun : run (step codec dialect next) s calls = some t) :
    Always (step codec dialect next) (OnTables P) s calls ↔
      Along (step codec dialect next) (OnOperations ok) s calls := by
  refine always_iff_along ?_ ?_ ?_ hInv hRun
  · rintro s ⟨tables, hTables, hRows⟩
    exact ⟨tables, hTables, hP hRows⟩
  · exact fun _ _ _ => onTables_step hGood
  · exact fun _ _ _ => not_onTables_step hBad

end Session

def TransactionDetails.Fits (details : TransactionDetails) : Prop :=
  details.received.toNat < 2 ^ 63 ∧ details.sent.toNat < 2 ^ 63 ∧
    (∀ fee, details.fee = some fee → fee.toNat < 2 ^ 63) ∧
    ∀ time, details.confirmationTime = some time → time.timestamp.toNat < 2 ^ 63

def transactionRow (codec : Codec Transaction) (transaction : Transaction) : TransactionRow :=
  ⟨transaction.txid.bytes.toList, codec.write transaction⟩

def detailsRow (details : TransactionDetails) : TransactionDetailsRow := details.columns.toRow

/-- The rows are those of `txs`, with distinct ids, and of `ds`. -/
structure Represents (codec : Codec Transaction) (tables : WalletTables) (txs : List Transaction)
    (ds : List TransactionDetails) : Prop where
  transactions_eq : tables.transactions = txs.map (transactionRow codec)
  txids_nodup : (txs.map Transaction.txid).Nodup
  details_eq : tables.transactionDetails = ds.map detailsRow

variable {codec : Codec Transaction} {tables : WalletTables} {txs : List Transaction}
  {ds : List TransactionDetails}

theorem readDetails_of_fits {details : TransactionDetails} (h : details.Fits)
    (rawTx : Option Bytes) :
    readDetails codec (detailsRow details) rawTx =
      (rawTx.mapM (readTransaction codec)).map fun body => details.withBody body := by
  obtain ⟨transaction, txid, received, sent, fee, time⟩ := details
  obtain ⟨hReceived, hSent, hFee, hTime⟩ := h
  cases fee <;> cases time <;>
    simp_all [readDetails, detailsRow, TransactionDetails.columns,
      Kld.TransactionDetails.toRow, toU64_of_lt] <;> rfl

theorem fits_of_readDetails {details read : TransactionDetails} {rawTx : Option Bytes}
    (h : readDetails codec (detailsRow details) rawTx = .ok read) : details.Fits := by
  obtain ⟨transaction, txid, received, sent, fee, time⟩ := details
  simp only [readDetails, detailsRow, TransactionDetails.columns, Kld.TransactionDetails.toRow,
    readTxid_toList] at h
  obtain ⟨timestamp, hTimestamp, h⟩ := ok_of_bind h
  obtain ⟨_, hReceived, h⟩ := ok_of_bind h
  obtain ⟨_, hSent, h⟩ := ok_of_bind h
  obtain ⟨_, hFee, h⟩ := ok_of_bind h
  refine ⟨lt_of_toU64 hReceived, lt_of_toU64 hSent, ?_, ?_⟩
  · rintro fee rfl
    obtain ⟨_, hRead, _⟩ := ok_of_bind hFee
    exact lt_of_toU64 hRead
  · rintro time rfl
    obtain ⟨_, hRead, _⟩ := ok_of_bind hTimestamp
    exact lt_of_toU64 hRead

theorem readTransaction_write (transaction : Transaction) :
    readTransaction codec (codec.write transaction) = .ok transaction := by
  simp [readTransaction]

theorem selectTransactionByTxid_eq (h : Represents codec tables txs ds) (txid : Txid) :
    selectTransactionByTxid codec tables txid =
      .ok (txs.find? fun transaction => transaction.txid = txid) := by
  unfold selectTransactionByTxid
  simp only [h.transactions_eq, List.find?_map, Function.comp_def, transactionRow, toList_inj]
  cases txs.find? fun transaction => transaction.txid = txid with
  | none => rfl
  | some transaction =>
    change (readTransaction codec (codec.write transaction)).map some = _
    rw [readTransaction_write]
    rfl

theorem joinedDetails_eq (h : Represents codec tables txs ds) :
    joinedDetails tables =
      (innerJoin (fun details transaction => details.txid = transaction.txid) ds txs).map
        fun row => (detailsRow row.1, transactionRow codec row.2) := by
  rw [joinedDetails, h.details_eq, h.transactions_eq, innerJoin_map]
  simp only [detailsRow, transactionRow, TransactionDetails.columns,
    Kld.TransactionDetails.toRow, toList_inj]

theorem selectDetails_eq (h : Represents codec tables txs ds) (txid : Txid) :
    selectTransactionDetailsByTxid codec tables txid =
      match ds.find? (fun details => details.txid = txid),
        txs.find? (fun transaction => transaction.txid = txid) with
      | some details, some transaction =>
        (readDetails codec (detailsRow details) (some (codec.write transaction))).map some
      | _, _ => .ok none := by
  have hTxid : ∀ row : TransactionDetails × Transaction,
      (detailsRow row.1).txid = txid.bytes.toList ↔ row.1.txid = txid := fun _ => toList_inj
  unfold selectTransactionDetailsByTxid
  simp only [joinedDetails_eq h, List.find?_map, Function.comp_def, hTxid]
  rw [find_innerJoin]
  cases ds.find? fun details => details.txid = txid with
  | none => rfl
  | some details => cases txs.find? fun transaction => transaction.txid = txid <;> rfl

/-- The lookup of details finds the first details of the id, if there is a body and their numbers
can be read. -/
theorem selectDetails_cases (h : Represents codec tables txs ds) (txid : Txid) :
    (∃ details transaction, ds.find? (fun details => details.txid = txid) = some details ∧
      txs.find? (fun transaction => transaction.txid = txid) = some transaction ∧ details.Fits ∧
      selectTransactionDetailsByTxid codec tables txid =
        .ok (some (details.withBody (some transaction)))) ∨
    (∃ details transaction fault, ds.find? (fun details => details.txid = txid) = some details ∧
      txs.find? (fun transaction => transaction.txid = txid) = some transaction ∧ ¬ details.Fits ∧
      selectTransactionDetailsByTxid codec tables txid = .error fault) ∨
    (ds.find? (fun details => details.txid = txid) = none ∨
      txs.find? (fun transaction => transaction.txid = txid) = none) ∧
      selectTransactionDetailsByTxid codec tables txid = .ok none := by
  rw [selectDetails_eq h]
  cases hDetails : ds.find? fun details => details.txid = txid with
  | none => exact Or.inr (Or.inr ⟨Or.inl rfl, rfl⟩)
  | some details =>
    cases hTx : txs.find? fun transaction => transaction.txid = txid with
    | none => exact Or.inr (Or.inr ⟨Or.inr rfl, rfl⟩)
    | some transaction =>
      dsimp only
      by_cases hFits : details.Fits
      · refine Or.inl ⟨details, transaction, rfl, rfl, hFits, ?_⟩
        rw [readDetails_of_fits hFits, Option.mapM_some, readTransaction_write]
        rfl
      · refine Or.inr (Or.inl ?_)
        cases hRead : readDetails codec (detailsRow details) (some (codec.write transaction)) with
        | ok read => exact absurd (fits_of_readDetails hRead) hFits
        | error fault => exact ⟨details, transaction, fault, rfl, rfl, hFits, rfl⟩

theorem setTx_of_fault {details : TransactionDetails} {fault : Fault}
    (h : selectTransactionDetailsByTxid codec tables details.txid = .error fault) :
    (setTx codec tables details).2 = tables := by
  rw [setTx, h]

theorem delTx_of_fault {txid : Txid} {includeRaw : Bool} {fault : Fault}
    (h : selectTransactionDetailsByTxid codec tables txid = .error fault) :
    (delTx codec tables txid includeRaw).2 = tables := by
  rw [delTx, h]
  rfl

theorem delTx_of_none {txid : Txid} {includeRaw : Bool}
    (h : selectTransactionDetailsByTxid codec tables txid = .ok none) :
    (delTx codec tables txid includeRaw).2 = tables := by
  rw [delTx, h]
  rfl

theorem setRawTx_represents (hLength : ∀ transaction, (codec.write transaction).length ≠ 32)
    (h : Represents codec tables txs ds) (transaction : Transaction) :
    Represents codec (setRawTx codec tables transaction).2
      (if (txs.find? fun tx => tx.txid = transaction.txid).isSome then txs
        else txs ++ [transaction]) ds := by
  unfold setRawTx
  rw [selectTransactionByTxid_eq h]
  cases hFind : txs.find? fun tx => tx.txid = transaction.txid with
  | some tx =>
    -- No stored id has the length of a serialised transaction, so that no row is updated.
    refine ⟨?_, h.txids_nodup, h.details_eq⟩
    have hKeep : ∀ tx ∈ txs, (if (transactionRow codec tx).txid = codec.write transaction then
        { transactionRow codec tx with rawTx := transaction.txid.bytes.toList }
        else transactionRow codec tx) = transactionRow codec tx := by
      intro tx _
      refine if_neg fun hSame => hLength transaction ?_
      rw [← hSame]
      simp [transactionRow]
    change tables.transactions.map _ = _
    rw [h.transactions_eq, List.map_map, if_pos (Option.isSome_some ..)]
    exact List.map_congr_left hKeep
  | none =>
    refine ⟨?_, ?_, h.details_eq⟩
    · change tables.transactions ++ _ = _
      rw [h.transactions_eq, if_neg (by simp), List.map_append]
      rfl
    · rw [if_neg (by simp), nodup_map_concat_iff]
      refine ⟨h.txids_nodup, fun tx hTx hSame => ?_⟩
      simpa [hSame] using List.find?_eq_none.mp hFind tx hTx

theorem setTx_represents (hLength : ∀ transaction, (codec.write transaction).length ≠ 32)
    (h : Represents codec tables txs ds) (details : TransactionDetails)
    {found : Option TransactionDetails}
    (hFound : selectTransactionDetailsByTxid codec tables details.txid = .ok found) :
    Represents codec (setTx codec tables details).2
      (details.transaction.elim txs fun transaction =>
        if (txs.find? fun tx => tx.txid = transaction.txid).isSome then txs
          else txs ++ [transaction])
      (if found.isSome then ds.map fun other => if other.txid = details.txid then details else other
        else ds ++ [details]) := by
  have hWritten : ∃ written : WalletTables,
      (if found.isSome then execute (.updateTransactionDetails details.columns) tables
        else execute (.insertTransactionDetails details.columns) tables) = (.ok (), written) ∧
      Represents codec written txs
        (if found.isSome then ds.map fun other =>
            if other.txid = details.txid then details else other
          else ds ++ [details]) := by
    split
    · refine ⟨_, rfl, h.transactions_eq, h.txids_nodup, ?_⟩
      change tables.transactionDetails.map _ = _
      rw [h.details_eq, List.map_map, List.map_map]
      refine List.map_congr_left fun other _ => ?_
      have hTxid : (detailsRow other).txid = details.columns.txid ↔ other.txid = details.txid :=
        toList_inj
      simp only [Function.comp_apply, hTxid]
      split <;> rfl
    · refine ⟨_, rfl, h.transactions_eq, h.txids_nodup, ?_⟩
      change tables.transactionDetails ++ _ = _
      rw [h.details_eq, List.map_append]
      rfl
  obtain ⟨written, hExecute, hRepresents⟩ := hWritten
  unfold setTx
  rw [hFound]
  dsimp only
  rw [hExecute]
  cases details.transaction with
  | none => exact hRepresents
  | some transaction => exact setRawTx_represents hLength hRepresents transaction

theorem deleteTransactions_eq (h : Represents codec tables txs ds) (txid : Txid) :
    tables.transactions.filter (fun row => row.txid ≠ txid.bytes.toList) =
      (txs.filter fun tx => tx.txid ≠ txid).map (transactionRow codec) := by
  simp only [h.transactions_eq, List.filter_map, Function.comp_def, transactionRow, ne_eq,
    toList_inj]

theorem delRawTx_represents (h : Represents codec tables txs ds) (txid : Txid) :
    Represents codec (delRawTx codec tables txid).2 (txs.filter fun tx => tx.txid ≠ txid) ds := by
  refine ⟨?_, (List.filter_sublist.map _).nodup h.txids_nodup, ?_⟩
  · unfold delRawTx
    rw [selectTransactionByTxid_eq h]
    cases hFind : txs.find? fun tx => tx.txid = txid with
    | some tx => exact deleteTransactions_eq h txid
    | none =>
      change tables.transactions = _
      rw [List.filter_eq_self.mpr, h.transactions_eq]
      intro tx hTx
      simpa using List.find?_eq_none.mp hFind tx hTx
  · unfold delRawTx
    rw [selectTransactionByTxid_eq h]
    cases txs.find? fun tx => tx.txid = txid <;> exact h.details_eq

theorem delTx_represents (h : Represents codec tables txs ds) (txid : Txid) (includeRaw : Bool)
    {details : TransactionDetails}
    (hFound : selectTransactionDetailsByTxid codec tables txid = .ok (some details)) :
    Represents codec (delTx codec tables txid includeRaw).2
      (if includeRaw then txs.filter fun tx => tx.txid ≠ txid else txs)
      (ds.filter fun other => other.txid ≠ txid) := by
  have hDetails : tables.transactionDetails.filter (fun row => row.txid ≠ txid.bytes.toList) =
      (ds.filter fun other => other.txid ≠ txid).map detailsRow := by
    have hTxid : ∀ other : TransactionDetails,
        (detailsRow other).txid = txid.bytes.toList ↔ other.txid = txid := fun _ => toList_inj
    simp only [h.details_eq, List.filter_map, Function.comp_def, ne_eq, hTxid]
  unfold delTx
  rw [hFound]
  cases includeRaw with
  | false => exact ⟨h.transactions_eq, h.txids_nodup, hDetails⟩
  | true =>
    exact ⟨deleteTransactions_eq h txid, (List.filter_sublist.map _).nodup h.txids_nodup, hDetails⟩

/-- A codec whose bytes are longer than an id. -/
def exampleCodec : Codec Transaction where
  write transaction := 0 :: (transaction.txid.bytes.toList ++ transaction.body)
  read bytes := (readTxid (bytes.tail.take 32)).map fun txid => ⟨txid, bytes.tail.drop 32⟩
  read_write transaction := by
    obtain ⟨⟨txid⟩, body⟩ := transaction
    have hTake : (txid.toList ++ body).take 32 = txid.toList := by simp
    have hDrop : (txid.toList ++ body).drop 32 = body := by simp
    rw [List.tail_cons, hTake, hDrop, readTxid_toList ⟨txid⟩]
    rfl

theorem exampleCodec_length (transaction : Transaction) :
    (exampleCodec.write transaction).length ≠ 32 := by
  simp only [exampleCodec, List.length_cons, List.length_append, Vector.length_toList]
  omega

def exampleTx (witness : UInt8) : Transaction := ⟨⟨.replicate 32 7⟩, [witness]⟩

end Kld.WalletTransactions
