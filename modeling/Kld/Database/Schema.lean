import Kld.Database.Forward
import Kld.Database.Payment
import Kld.Lib.Table

/-!
# The database schema

One record for each table of the migrations, with the columns that the node
reads or writes. Tables without a primary key are lists of rows in insertion
order. Columns of serialised values hold bytes.
-/

namespace Kld

open Sql

/-- A row of `channel_monitors`, keyed by the serialised funding outpoint. -/
structure MonitorRow where
  updateId : Int64
  monitor : Bytes
deriving DecidableEq

structure ChannelRow where
  counterparty : PublicKey
  shortChannelId : Option Int64
  isUsable : Bool
  isPublic : Bool
  data : Option Bytes
  openTimestamp : Timestamp
  updateTimestamp : Timestamp
  closureReason : Option String
deriving DecidableEq

structure InitializingChannelRow where
  counterparty : PublicKey
  isPublic : Bool
  channelId : Option ChannelId
  status : Option String
  txid : Txid
  vout : Option Int32
  openTimestamp : Timestamp
  updateTimestamp : Timestamp
deriving DecidableEq

/-- A row of `spendable_outputs`, keyed by transaction id and output index. -/
structure SpendableOutputRow where
  value : Int64
  channelId : Option ChannelId
  data : Bytes
  isSpent : Bool
  timestamp : Timestamp
deriving DecidableEq

structure ScriptPubkeyRow where
  keychain : String
  child : Int32
  script : Bytes
deriving DecidableEq

/-- A row of `wallet_utxos`, keyed by transaction id and output index. -/
structure UtxoRow where
  value : Int64
  keychain : String
  script : Bytes
  isSpent : Bool
deriving DecidableEq

structure TransactionRow where
  txid : Bytes
  rawTx : Bytes
deriving DecidableEq

structure TransactionDetailsRow where
  txid : Bytes
  timestamp : Option Int64
  received : Int64
  sent : Int64
  fee : Option Int64
  height : Option Int64
deriving DecidableEq

structure ChecksumRow where
  keychain : String
  checksum : Bytes
deriving DecidableEq

structure SyncTimeRow where
  height : Int64
  timestamp : Int64
deriving DecidableEq

/-- The tables of `V2__wallet.sql`. -/
structure WalletTables where
  scriptPubkeys : List ScriptPubkeyRow
  utxos : Table (Bytes × Int32) UtxoRow
  transactions : List TransactionRow
  transactionDetails : List TransactionDetailsRow
  lastDerivationIndices : Table String Int64
  checksums : List ChecksumRow
  syncTime : Table Int SyncTimeRow

structure Database where
  channelManager : Table String Bytes
  scorer : Table String Bytes
  channelMonitors : Table Bytes MonitorRow
  payments : Table PaymentId PaymentRow
  invoices : Table PaymentHash InvoiceRow
  spendableOutputs : Table (Txid × Int16) SpendableOutputRow
  forwards : Table Uuid ForwardRow
  channels : Table ChannelId ChannelRow
  initializingChannels : Table ChannelId InitializingChannelRow
  wallet : WalletTables

/-- The database after the migrations, with no rows. -/
instance : Inhabited Database where
  default :=
    { channelManager := ∅, scorer := ∅, channelMonitors := ∅, payments := ∅, invoices := ∅
      spendableOutputs := ∅, forwards := ∅, channels := ∅, initializingChannels := ∅
      wallet :=
        { scriptPubkeys := [], utxos := ∅, transactions := [], transactionDetails := []
          lastDerivationIndices := ∅, checksums := [], syncTime := ∅ } }

end Kld
