import Kld.Lib.Run
import Kld.Lib.Table
import Kld.Lib.Listing
import Kld.Lib.Machine
import Kld.Lib.Fallible
import Kld.Lib.Session
import Kld.Lib.Codec
import Kld.Lib.Runtime
import Kld.Lib.Decimal
import Kld.Lib.Utf8
import Kld.Lib.FormUrlencoded
import Kld.Types
import Kld.Ldk.ChannelDetails
import Kld.Database.Payment
import Kld.Database.Forward
import Kld.Database.Schema
import Kld.Database.WalletDatabase
import Kld.Database.WalletBatch
import Kld.Database.LdkDatabase
import Kld.Database.ChannelMonitors
import Kld.Database.MonitorPersistence
import Kld.Database.ManagerPersistence
import Kld.Database.ChannelHistory
import Kld.Database.Peers
import Kld.Database.WalletStore
import Kld.Database.WalletScripts
import Kld.Database.WalletUtxos
import Kld.Database.RawTransactions
import Kld.Database.TransactionDetails
import Kld.Database.WalletTransactions
import Kld.Database.PaymentQueries
import Kld.Database.InvoiceQueries
import Kld.Database.Invoice
import Kld.Database.ChannelRecords
import Kld.Ldk.Controller
import Kld.Ldk.AsyncSenders
import Kld.Ldk.OpenChannel
import Kld.Ldk.JitChannels
import Kld.Ldk.PaymentRequests
import Kld.Ldk.PaymentMoves
import Kld.Ldk.PaymentOutcome
import Kld.Ldk.ReturnedPayments
import Kld.Ldk.EventReplay
import Kld.Ldk.SpendableOutputs
import Kld.Ldk.InitializingChannels
import Kld.Ldk.ListPeers
import Kld.Bitcoind.FeeEstimates
import Kld.Wallet.BdkWallet
import Kld.Wallet.DoubleSpend
import Kld.Api.Channels
import Kld.Api.ChannelFees
import Kld.Api.AllChannelFees
import Kld.Api.Invoices
import Kld.Api.GenerateInvoice
import Kld.Api.Forwards
import Kld.Api.ListChannels
import Kld.Api.PeerChannels
import Kld.Api.Payments
import Kld.Api.PaymentResponses
import Kld.Api.Wallet
import Kld.Api.MacaroonAuth
import Kld.Api.Extractors
import Kld.Cli.Client
import Kld.Cli.ListFilters
import Kld.Cli.CloseChannel
import Kld.Mgr.Pki
import Kld.Mgr.LightningCerts
import Kld.Mgr.CockroachdbCerts
import Kld.Mgr.Certs
import Kld.Mgr.SubjectAltNames
import Kld.Mgr.IpAddr
import Kld.Mgr.Config
import Kld.Mgr.HostNetwork
import Kld.Tui.History
import Kld.Ldk.Probe
import Kld.KeyGenerator
import Kld.Mgr.IpAddrTexts
import Kld.Api.SktAddr
import Kld.Lib.Trim
import Kld.Api.FeeRate
import Kld.Tui.Keys
import Kld.Tui.KeyTexts
import Kld.Tui.KeyBindings
import Kld.Tui.CmdDetails
import Kld.Tui.App
import Kld.Tui.Dispatch
import Kld.Tui.Focus
import Kld.Lib.Toml
import Kld.Mgr.ConfigFile
import Kld.Mgr.Flake
import Kld.Mgr.FlakeLines
import Kld.Mgr.NodeToml
import Kld.Ldk.ChannelUtils
import Kld.Bitcoind.UtxoLookup
import Kld.Lib.Trace
import Kld.Ldk.PeerConnections
import Kld.Ldk.StoredPeers
import Kld.Ldk.ReconnectLoop
import Kld.Ldk.ConnectRequests
import Kld.Api.Router
import Kld.Cli.Commands
import Kld.Api.TotalForwards
import Kld.Lib.FileTree
import Kld.Lib.FileAction
import Kld.Mgr.Secrets
import Kld.Mgr.MacaroonFiles
import Kld.Mgr.NodeStart
import Kld.Mgr.Deployment
import Kld.Lib.Mirror
import Kld.Tui.ActionTexts
import Kld.Tui.Components
import Kld.Tui.KeyEvents
import Kld.Tui.Tabs
import Kld.Lib.Interaction
import Kld.Mgr.Ssh
import Kld.Mgr.Install
import Kld.Mgr.Fleet
import Kld.Database.DurableConnection
import Kld.Ldk.StartLdk
import Kld.Wallet.ListUtxos
