import Kld.Database.Schema
import Kld.Lib.Session

/-!
# Statements and batches of the wallet database

Every operation of `WalletDatabase` sends a sequence of the statements below,
one at a time, over the connection it shares with `LdkDatabase`. A batch is
`BEGIN`, the statements of its operations, and `COMMIT` when `commit_batch` is
reached; nothing is sent when a batch is dropped.
-/

namespace Kld

open Sql

structure TransactionDetails where
  txid : Bytes
  timestamp : Option UInt64
  received : UInt64
  sent : UInt64
  fee : Option UInt64
  height : Option UInt32
deriving DecidableEq

def TransactionDetails.toRow (details : TransactionDetails) : TransactionDetailsRow :=
  { txid := details.txid, timestamp := details.timestamp.map UInt64.toInt64
    received := details.received.toInt64, sent := details.sent.toInt64
    fee := details.fee.map UInt64.toInt64
    height := details.height.map fun h => h.toUInt64.toInt64 }

/-- The statements of `wallet_database.rs`; `select` stands for those of `query_blocking!`. -/
inductive WalletStatement where
  | select
  | insertScriptPubkey (keychain : String) (child : UInt32) (script : Bytes)
  | insertUtxo (value : UInt64) (keychain : String) (vout : UInt32) (txid script : Bytes)
      (isSpent : Bool)
  | insertTransaction (txid rawTx : Bytes)
  | updateTransaction (txid rawTx : Bytes)
  | insertTransactionDetails (details : TransactionDetails)
  | updateTransactionDetails (details : TransactionDetails)
  | insertLastDerivationIndex (keychain : String) (value : UInt32)
  | updateLastDerivationIndex (keychain : String) (value : UInt32)
  | insertChecksum (keychain : String) (checksum : Bytes)
  | updateSyncTime (height : UInt32) (timestamp : UInt64)
  | deleteScriptPubkeyByPath (keychain : String) (child : UInt32)
  | deleteScriptPubkeyByScript (script : Bytes)
  | deleteUtxoByOutpoint (txid : Bytes) (vout : UInt32)
  | deleteTransactionByTxid (txid : Bytes)
  | deleteTransactionDetailsByTxid (txid : Bytes)
  | deleteLastDerivationIndexByKeychain (keychain : String)
  | deleteSyncTime
deriving DecidableEq

def WalletStatement.run (tables : WalletTables) : WalletStatement → Option WalletTables
  | .select => some tables
  | .insertScriptPubkey keychain child script =>
    some { tables with
      scriptPubkeys := tables.scriptPubkeys ++ [⟨keychain, child.toInt32, script⟩] }
  | .insertUtxo value keychain vout txid script isSpent =>
    let row : UtxoRow := ⟨value.toInt64, keychain, script, isSpent⟩
    some { tables with utxos := tables.utxos.upsert (txid, vout.toInt32) row fun _ => row }
  | .insertTransaction txid rawTx =>
    some { tables with transactions := tables.transactions ++ [⟨txid, rawTx⟩] }
  -- The parameters are bound in the order `txid, raw_tx` to `SET raw_tx=$1 WHERE txid=$2`.
  | .updateTransaction txid rawTx =>
    some { tables with
      transactions := tables.transactions.map fun row =>
        if row.txid = rawTx then { row with rawTx := txid } else row }
  | .insertTransactionDetails details =>
    some { tables with transactionDetails := tables.transactionDetails ++ [details.toRow] }
  | .updateTransactionDetails details =>
    some { tables with
      transactionDetails := tables.transactionDetails.map fun row =>
        if row.txid = details.txid then details.toRow else row }
  | .insertLastDerivationIndex keychain value =>
    (tables.lastDerivationIndices.insertNew keychain value.toUInt64.toInt64).map fun t =>
      { tables with lastDerivationIndices := t }
  | .updateLastDerivationIndex keychain value =>
    some { tables with
      lastDerivationIndices := tables.lastDerivationIndices.upsert keychain
        value.toUInt64.toInt64 fun _ => value.toUInt64.toInt64 }
  | .insertChecksum keychain checksum =>
    some { tables with checksums := tables.checksums ++ [⟨keychain, checksum⟩] }
  | .updateSyncTime height timestamp =>
    let row : SyncTimeRow := ⟨height.toUInt64.toInt64, timestamp.toInt64⟩
    some { tables with syncTime := tables.syncTime.upsert 0 row fun _ => row }
  | .deleteScriptPubkeyByPath keychain child =>
    some { tables with
      scriptPubkeys := tables.scriptPubkeys.filter fun row =>
        ¬ (row.keychain = keychain ∧ row.child = child.toInt32) }
  | .deleteScriptPubkeyByScript script =>
    some { tables with
      scriptPubkeys := tables.scriptPubkeys.filter fun row => row.script ≠ script }
  | .deleteUtxoByOutpoint txid vout =>
    some { tables with utxos := tables.utxos.erase (txid, vout.toInt32) }
  | .deleteTransactionByTxid txid =>
    some { tables with transactions := tables.transactions.filter fun row => row.txid ≠ txid }
  | .deleteTransactionDetailsByTxid txid =>
    some { tables with
      transactionDetails := tables.transactionDetails.filter fun row => row.txid ≠ txid }
  | .deleteLastDerivationIndexByKeychain keychain =>
    some { tables with lastDerivationIndices := tables.lastDerivationIndices.erase keychain }
  | .deleteSyncTime => some { tables with syncTime := tables.syncTime.erase 0 }

def WalletStatement.effect (statement : WalletStatement) (refused : Bool) (db : Database) :
    Option Database :=
  if refused then none else (statement.run db.wallet).map fun tables => { db with wallet := tables }

/-- What `WalletDatabase` sends over the shared connection. -/
inductive WalletCommand where
  | beginBatch
  | execute (statement : WalletStatement) (refused : Bool)
  | commitBatch (accepted : Bool)
deriving DecidableEq

def WalletCommand.toCommand : WalletCommand → Command Database
  | .beginBatch => .begin
  | .execute statement refused => .statement (statement.effect refused)
  | .commitBatch accepted => .commit accepted

theorem WalletStatement.effect_channelMonitors {statement : WalletStatement} {refused : Bool}
    {db db' : Database} (h : statement.effect refused db = some db') :
    db'.channelMonitors = db.channelMonitors := by
  unfold WalletStatement.effect at h
  split at h
  · cases h
  · obtain ⟨tables, _, rfl⟩ := Option.map_eq_some_iff.mp h
    rfl

end Kld
