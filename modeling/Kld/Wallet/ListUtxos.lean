import Kld.Api.PeerChannels
import Kld.Database.TransactionDetails
import Kld.Database.WalletUtxos

/-!
# The funds of the wallet

Outputs and transactions are written to the tables of the wallet in any order. The listing joins
the unspent outputs with the details of their transactions, and leaves an output out whose details
are not found.
-/

namespace Kld.ListUtxos

open Sql Serial Wallet Transition Fallible
open WalletUtxos (LocalUtxo Maps selectUtxos)
open WalletTransactions (DetailsInv KeepsDetails nextDetails)

/-- What the library of the wallet reads. -/
structure WalletReader where
  listUnspent : WalletTables → Except Fault (List LocalUtxo)
  getTx : WalletTables → Txid → Bool → Except Fault (Option WalletTransactions.TransactionDetails)

/-- The library reads the database of the wallet. -/
structure WalletReader.Reads (wallet : WalletReader) (codec : Codec Transaction) : Prop where
  listUnspent_eq : ∀ tables, wallet.listUnspent tables =
    (selectUtxos tables).map fun utxos => utxos.filter fun utxo => !utxo.isSpent
  getTx_eq : ∀ tables txid includeRaw, wallet.getTx tables txid includeRaw =
    WalletTransactions.getTx codec tables txid includeRaw

section Source

variable (wallet : WalletReader) (tables : WalletTables) (locked : Bool)

def withDetails :
    List LocalUtxo → Except Fault (List (LocalUtxo × WalletTransactions.TransactionDetails))
  | [] => .ok []
  | utxo :: utxos => do
    let tx ← wallet.getTx tables utxo.outpoint.txid false
    let result ← withDetails utxos
    return (tx.map fun tx => (utxo, tx)).toList ++ result

/-- Nothing is listed of a wallet that is locked elsewhere. -/
def listUtxos : Except Fault (List (LocalUtxo × WalletTransactions.TransactionDetails)) :=
  if locked then .ok [] else do
    let utxos ← wallet.listUnspent tables
    withDetails wallet tables utxos

def fundsUtxo (row : LocalUtxo × WalletTransactions.TransactionDetails) : Api.LocalUtxo where
  txid := row.1.outpoint.txid
  vout := row.1.outpoint.vout
  value := row.1.txout.value
  scriptPubkey := row.1.txout.scriptPubkey
  confirmationHeight := row.2.confirmationTime.map BlockTime.height

def listFunds (library : Api.FundsLibrary) (node : PeerManager.Node) (message : Fault → String) :
    Except Api.Failure Api.ListFunds :=
  Api.listFunds library node
    (((listUtxos wallet tables locked).map fun rows => rows.map fundsUtxo).mapError message)

end Source

inductive Write where
  | utxo (operation : WalletUtxos.Operation)
  | transaction (operation : WalletTransactions.Operation)
deriving DecidableEq

/-- The tables, beside what was written to them. -/
structure State where
  tables : WalletTables
  maps : Maps
  details : Txid → Option WalletTransactions.TransactionDetails

def initial : State := ⟨(default : Database).wallet, .empty, fun _ => none⟩

def step (checks : Bool) (codec : Codec Transaction) (s : State) : Write → Option State
  | .utxo operation =>
    -- The maps have no derivation index after the last one.
    (s.maps.step operation).map fun answer =>
      { s with tables := (WalletUtxos.step checks s.tables operation).2, maps := answer.2 }
  | .transaction operation =>
    some { s with
      tables := operation.apply codec s.tables
      details := nextDetails s.tables s.details operation }

/-- Numbers fit their columns, and the details of a transaction are stored with its body. -/
def Allowed (s : State) : Write → Prop
  | .utxo operation => operation.Fits
  | .transaction operation => KeepsDetails s.tables s.details operation

/-- The unspent outputs whose transactions are known. -/
def funds (s : State) (outpoint : WalletUtxos.OutPoint) :
    Option (LocalUtxo × WalletTransactions.TransactionDetails) :=
  ((s.maps.utxos outpoint).filter fun utxo => !utxo.isSpent).bind fun utxo =>
    (s.details utxo.outpoint.txid).map fun tx => (utxo, tx.withBody none)

section Frames

variable {α : Type} {view : WalletTables → α} {statement : WalletStatement}
  {tables tables' : WalletTables} {codec : Codec Transaction}

/-- The statement changes nothing that is in view. -/
def Leaves (view : WalletTables → α) (statement : WalletStatement) : Prop :=
  ∀ tables tables', statement.run tables = some tables' → view tables' = view tables

theorem view_execute (h : Leaves view statement) (tables : WalletTables) :
    view (execute statement tables).2 = view tables := by
  unfold execute
  cases hRun : statement.run tables with
  | none => rfl
  | some tables' => exact h tables tables' hRun

theorem view_deleteFound {β : Type} (h : Leaves view statement)
    (found : Except Fault (Option β)) (tables : WalletTables) :
    view (deleteFound found statement tables).2 = view tables := by
  cases found with
  | error fault => rfl
  | ok found =>
    cases found with
    | none => rfl
    | some value => exact view_execute h tables

/-- What the details of transactions are read from. -/
def transactionsView (tables : WalletTables) :
    List TransactionRow × List TransactionDetailsRow :=
  (tables.transactions, tables.transactionDetails)

/-- What the maps are read from. -/
def mapsView (tables : WalletTables) :
    Table (Bytes × Int32) UtxoRow × Table String Int64 × Table Int SyncTimeRow :=
  (tables.utxos, tables.lastDerivationIndices, tables.syncTime)

theorem transactionsView_increment (checks : Bool) (tables : WalletTables)
    (keychain : KeychainKind) :
    transactionsView (WalletUtxos.incrementLastIndex tables checks keychain).2 =
      transactionsView tables := by
  unfold WalletUtxos.incrementLastIndex
  split
  · split
    · refine view_execute (fun _ _ hRun => ?_) tables
      cases hRun
      rfl
    · rfl
  · refine view_execute (fun _ _ hRun => ?_) tables
    obtain ⟨t, _, rfl⟩ := Option.map_eq_some_iff.mp hRun
    rfl
  · rfl

theorem transactionsView_step (checks : Bool) (tables : WalletTables)
    (operation : WalletUtxos.Operation) :
    transactionsView (WalletUtxos.step checks tables operation).2 = transactionsView tables := by
  cases operation with
  | setUtxo utxo => rfl
  | setLastIndex keychain value => rfl
  | setSyncTime time => rfl
  | incrementLastIndex keychain => exact transactionsView_increment checks tables keychain
  | delUtxo outpoint =>
    refine view_deleteFound (fun _ _ hRun => ?_) _ tables
    cases hRun
    rfl
  | delLastIndex keychain =>
    refine view_deleteFound (fun _ _ hRun => ?_) _ tables
    cases hRun
    rfl
  | delSyncTime =>
    refine view_deleteFound (fun _ _ hRun => ?_) _ tables
    cases hRun
    rfl

theorem mapsView_setRawTx (codec : Codec Transaction) (tables : WalletTables)
    (transaction : Transaction) :
    mapsView (WalletTransactions.setRawTx codec tables transaction).2 = mapsView tables := by
  unfold WalletTransactions.setRawTx
  split <;> rfl

theorem mapsView_setTx (codec : Codec Transaction) (tables : WalletTables)
    (details : WalletTransactions.TransactionDetails) :
    mapsView (WalletTransactions.setTx codec tables details).2 = mapsView tables := by
  unfold WalletTransactions.setTx
  split
  · rename_i found _
    have hWritten : mapsView (if found.isSome then
        execute (.updateTransactionDetails details.columns) tables
        else execute (.insertTransactionDetails details.columns) tables).2 = mapsView tables := by
      split <;> rfl
    dsimp only
    split
    · exact (mapsView_setRawTx codec _ _).trans hWritten
    · exact hWritten
  · rfl

theorem mapsView_delTx (codec : Codec Transaction) (tables : WalletTables) (txid : Txid)
    (includeRaw : Bool) :
    mapsView (WalletTransactions.delTx codec tables txid includeRaw).2 = mapsView tables := by
  have hDeleted : mapsView (deleteFound
      (WalletTransactions.selectTransactionDetailsByTxid codec tables txid)
      (.deleteTransactionDetailsByTxid txid.bytes.toList) tables).2 = mapsView tables := by
    refine view_deleteFound (fun _ _ hRun => ?_) _ tables
    cases hRun
    rfl
  unfold WalletTransactions.delTx
  dsimp only
  split
  · split
    · exact hDeleted
    · exact hDeleted
  · exact hDeleted

theorem mapsView_apply (codec : Codec Transaction) (tables : WalletTables)
    (operation : WalletTransactions.Operation) :
    mapsView (operation.apply codec tables) = mapsView tables := by
  cases operation with
  | setRawTx transaction => exact mapsView_setRawTx codec tables transaction
  | setTx details => exact mapsView_setTx codec tables details
  | delTx txid includeRaw => exact mapsView_delTx codec tables txid includeRaw
  | delRawTx txid =>
    refine view_deleteFound (fun _ _ hRun => ?_) _ tables
    cases hRun
    rfl

theorem represents_of_view {m : Maps} (hView : mapsView tables' = mapsView tables)
    (h : WalletUtxos.Represents tables m) : WalletUtxos.Represents tables' m := by
  obtain ⟨hUtxos, hRest⟩ := Prod.mk.inj hView
  obtain ⟨hIndices, hSync⟩ := Prod.mk.inj hRest
  exact ⟨hUtxos ▸ h.utxo_row, h.utxo_outpoint, h.utxo_fits, hIndices ▸ h.index_row,
    hSync ▸ h.sync_row, h.sync_fits⟩

theorem detailsInv_of_view {stored : Txid → Option WalletTransactions.TransactionDetails}
    (hView : transactionsView tables' = transactionsView tables)
    (h : DetailsInv codec tables stored) : DetailsInv codec tables' stored := by
  obtain ⟨hTransactions, hDetails⟩ := Prod.mk.inj hView
  obtain ⟨txs, ds, hRows, hRest⟩ := h
  exact ⟨txs, ds, ⟨hTransactions.trans hRows.transactions_eq, hRows.txids_nodup,
    hDetails.trans hRows.details_eq⟩, hRest⟩

end Frames

structure Inv (codec : Codec Transaction) (s : State) : Prop where
  maps : WalletUtxos.Represents s.tables s.maps
  details : DetailsInv codec s.tables s.details

variable {checks : Bool} {codec : Codec Transaction} {wallet : WalletReader} {s s' : State}

theorem inv_initial : Inv codec initial where
  maps := WalletUtxos.represents_initial
  details := ⟨[], [], ⟨rfl, List.nodup_nil, rfl⟩,
    Lists.nil WalletTransactions.TransactionDetails.txid, nofun, nofun⟩

theorem inv_step (hLength : ∀ transaction, (codec.write transaction).length ≠ 32) {write : Write}
    (hInv : Inv codec s) (hAllowed : Allowed s write)
    (hStep : step checks codec s write = some s') : Inv codec s' := by
  cases write with
  | utxo operation =>
    obtain ⟨⟨answer, m⟩, hMaps, rfl⟩ := Option.map_eq_some_iff.mp hStep
    obtain ⟨tables, hTables, hRepresents⟩ :=
      WalletUtxos.step_refines checks hInv.maps hAllowed hMaps
    refine ⟨?_, detailsInv_of_view (transactionsView_step checks s.tables operation) hInv.details⟩
    rw [hTables]
    exact hRepresents
  | transaction operation =>
    cases hStep
    exact ⟨represents_of_view (mapsView_apply codec s.tables operation) hInv.maps,
      WalletTransactions.detailsInv_apply hLength hInv.details hAllowed⟩

theorem withDetails_eq {tables : WalletTables}
    {details : Txid → Option WalletTransactions.TransactionDetails}
    (hGet : ∀ txid, wallet.getTx tables txid false = .ok (details txid))
    (utxos : List LocalUtxo) :
    withDetails wallet tables utxos = .ok (utxos.filterMap fun utxo =>
      (details utxo.outpoint.txid).map fun tx => (utxo, tx)) := by
  induction utxos with
  | nil => rfl
  | cons utxo utxos ih =>
    rw [withDetails, hGet, ih, List.filterMap_cons]
    cases details utxo.outpoint.txid <;> rfl

theorem listUtxos_eq (hReads : wallet.Reads codec) (hInv : Inv codec s) :
    ∃ rows, listUtxos wallet s.tables false = .ok rows ∧
      Lists (fun row => row.1.outpoint) rows (funds s) := by
  obtain ⟨utxos, hSelect, hList⟩ := WalletUtxos.selectUtxos_eq hInv.maps
  have hGet : ∀ txid, wallet.getTx s.tables txid false =
      .ok ((s.details txid).map fun tx => tx.withBody none) := by
    intro txid
    obtain ⟨body, _, hFound⟩ :=
      (WalletTransactions.detailsMap_of_inv hInv.details).getTx_eq txid
    exact (hReads.getTx_eq s.tables txid false).trans (hFound false)
  have hJoin : ∀ utxo : LocalUtxo, ∀ row, (s.details utxo.outpoint.txid).map
      (fun tx => (utxo, tx.withBody none)) = some row → row.1.outpoint = utxo.outpoint := by
    intro utxo row hRow
    obtain ⟨tx, _, rfl⟩ := Option.map_eq_some_iff.mp hRow
    rfl
  refine ⟨_, ?_, (hList.filter fun utxo => !utxo.isSpent).filterMap hJoin⟩
  change (wallet.listUnspent s.tables >>= withDetails wallet s.tables) = _
  rw [hReads.listUnspent_eq, hSelect]
  refine (withDetails_eq hGet _).trans ?_
  simp only [Option.map_map, Function.comp_def]

theorem outputs_of_listFunds {library : Api.FundsLibrary} {node : PeerManager.Node}
    {found : Except String (List Api.LocalUtxo)} {answer : Api.ListFunds}
    (h : Api.listFunds library node found = .ok answer) :
    ∃ utxos, found = .ok utxos ∧
      List.Forall₂ (fun utxo output => Api.fundsOutput library utxo = .ok output) utxos
        answer.outputs := by
  obtain ⟨utxos, hUtxos, h⟩ := ok_of_bind h
  obtain ⟨outputs, hOutputs, h⟩ := ok_of_bind h
  obtain ⟨_, _, h⟩ := ok_of_bind h
  obtain ⟨_, _, h⟩ := ok_of_bind h
  cases h
  exact ⟨utxos, ok_of_mapError hUtxos, forall₂_of_mapM hOutputs fun _ _ _ hOutput => hOutput⟩

/-- After any writes, in whatever order, the listing has every unspent output once whose
transaction is stored, with the details that were stored last, and no other, unless the wallet is
locked elsewhere; and the funds are shown from its rows one by one. -/
theorem funds_after_run (hReads : wallet.Reads codec)
    (hLength : ∀ transaction, (codec.write transaction).length ≠ 32) {writes : List Write}
    (hAllowed : Along (step checks codec) Allowed initial writes)
    (hRun : run (step checks codec) initial writes = some s) (locked : Bool) :
    ∃ rows, listUtxos wallet s.tables locked = .ok rows ∧
      Lists (fun row => row.1.outpoint) rows
        (fun outpoint => if locked then none else funds s outpoint) ∧
      ∀ library node message answer,
        listFunds wallet s.tables locked library node message = .ok answer →
          List.Forall₂ (fun row output => Api.fundsOutput library (fundsUtxo row) = .ok output)
            rows answer.outputs := by
  have hInv : Inv codec s := invariant_of_along
    (fun _ _ _ hInv hAllowed hStep => inv_step hLength hInv hAllowed hStep) inv_initial hAllowed
    hRun
  obtain ⟨rows, hRows, hList⟩ : ∃ rows, listUtxos wallet s.tables locked = .ok rows ∧
      Lists (fun row => row.1.outpoint) rows
        (fun outpoint => if locked then none else funds s outpoint) := by
    cases locked with
    | true => exact ⟨[], rfl, Lists.nil _⟩
    | false => exact listUtxos_eq hReads hInv
  refine ⟨rows, hRows, hList, fun library node message answer hAnswer => ?_⟩
  rw [listFunds, hRows] at hAnswer
  obtain ⟨utxos, hUtxos, hOutputs⟩ := outputs_of_listFunds hAnswer
  cases hUtxos
  exact List.forall₂_map_left_iff.mp hOutputs

section Example

def exampleReader : WalletReader where
  listUnspent tables := (selectUtxos tables).map fun utxos => utxos.filter fun utxo => !utxo.isSpent
  getTx := WalletTransactions.getTx WalletTransactions.exampleCodec

def exampleUtxo : LocalUtxo :=
  ⟨⟨(WalletTransactions.exampleTx 1).txid, 0⟩, ⟨1000, [0x51]⟩, .external, false⟩

/-- The output is stored before the transaction that it is of. -/
def exampleWrites : List Write :=
  [.utxo (.setUtxo exampleUtxo), .transaction (.setTx
    (WalletTransactions.exampleDetails (some (WalletTransactions.exampleTx 1))))]

theorem example_funds_after_run :
    ∃ s rows, run (step true WalletTransactions.exampleCodec) initial exampleWrites = some s ∧
      listUtxos exampleReader s.tables false = .ok rows ∧
      (exampleUtxo, WalletTransactions.exampleDetails none) ∈ rows := by
  have hRun : run (step true WalletTransactions.exampleCodec) initial exampleWrites = some _ := rfl
  have hReads : exampleReader.Reads WalletTransactions.exampleCodec :=
    ⟨fun _ => rfl, fun _ _ _ => rfl⟩
  have hAllowed : Along (step true WalletTransactions.exampleCodec) Allowed initial
      exampleWrites := by
    have hFits : (1000 : UInt64).toNat < 2 ^ 63 := by decide
    refine ⟨hFits, fun s _ => ⟨⟨⟨by decide, by decide, nofun, nofun⟩, Or.inl ⟨_, rfl, rfl⟩⟩, ?_⟩⟩
    exact fun _ _ => trivial
  obtain ⟨rows, hRows, hList, _⟩ :=
    funds_after_run hReads WalletTransactions.exampleCodec_length hAllowed hRun false
  exact ⟨_, rows, hRun, hRows, ((hList.some_iff exampleUtxo.outpoint _).mp rfl).1⟩

end Example

end Kld.ListUtxos
