import Kld.Types

/-! # Forwarded payments, as `forward.rs` builds them -/

namespace Kld

structure Uuid where
  bytes : Vector UInt8 16
deriving DecidableEq

inductive ForwardStatus where
  | succeeded
  | failed
deriving DecidableEq

inductive HTLCDestination where
  | nextHopChannel (nodeId : Option PublicKey) (channelId : ChannelId)
  | unknownNextHop (requestedForwardScid : UInt64)
  | invalidForward (requestedForwardScid : UInt64)
  | failedPayment (paymentHash : PaymentHash)
deriving DecidableEq

structure Forward where
  id : Uuid
  inboundChannelId : ChannelId
  outboundChannelId : Option ChannelId
  amount : Option MillisatAmount
  fee : Option MillisatAmount
  status : ForwardStatus
  htlcDestination : Option HTLCDestination
  timestamp : Timestamp
deriving DecidableEq

namespace Forward

def success (id : Uuid) (now : Timestamp) (inboundChannelId outboundChannelId : ChannelId)
    (amount fee : MillisatAmount) : Forward :=
  { id := id, inboundChannelId := inboundChannelId, outboundChannelId := some outboundChannelId
    amount := some amount, fee := some fee, status := .succeeded, htlcDestination := none
    timestamp := now }

def failure (id : Uuid) (now : Timestamp) (inboundChannelId : ChannelId)
    (htlcDestination : HTLCDestination) : Forward :=
  { id := id, inboundChannelId := inboundChannelId, outboundChannelId := none, amount := none
    fee := none, status := .failed, htlcDestination := some htlcDestination, timestamp := now }

end Forward

structure ForwardRow where
  inboundChannelId : ChannelId
  outboundChannelId : Option ChannelId
  amount : Option Int64
  fee : Option Int64
  status : ForwardStatus
  htlcDestination : Option HTLCDestination
  timestamp : Timestamp
deriving DecidableEq

namespace Forward

def toRow (forward : Forward) : ForwardRow :=
  { inboundChannelId := forward.inboundChannelId, outboundChannelId := forward.outboundChannelId
    amount := forward.amount.map UInt64.toInt64, fee := forward.fee.map UInt64.toInt64
    status := forward.status, htlcDestination := forward.htlcDestination
    timestamp := forward.timestamp }

def ofRow (id : Uuid) (row : ForwardRow) : Forward :=
  { id := id, inboundChannelId := row.inboundChannelId, outboundChannelId := row.outboundChannelId
    amount := row.amount.map Int64.toUInt64, fee := row.fee.map Int64.toUInt64
    status := row.status, htlcDestination := row.htlcDestination, timestamp := row.timestamp }

theorem ofRow_toRow (forward : Forward) : ofRow forward.id forward.toRow = forward := by
  obtain ⟨id, inbound, outbound, amount, fee, status, destination, timestamp⟩ := forward
  cases amount <;> cases fee <;> simp [toRow, ofRow]

end Forward

end Kld
