import Kld.Types

/-!
# Channel details

What `ChannelManager::list_channels` reports of a channel. Feature vectors are
kept as their flag bytes.
-/

namespace Kld

inductive MaxDustHTLCExposure where
  | fixedLimitMsat (value : UInt64)
  | feeRateMultiplier (value : UInt64)
deriving DecidableEq, Encodable

@[ext] structure ChannelConfig where
  forwardingFeeProportionalMillionths : UInt32
  forwardingFeeBaseMsat : UInt32
  cltvExpiryDelta : UInt16
  maxDustHTLCExposure : MaxDustHTLCExposure
  forceCloseAvoidanceMaxFeeSatoshis : UInt64
  acceptUnderpayingHtlcs : Bool
deriving DecidableEq, Encodable

/-- LDK's default channel configuration. -/
instance : Inhabited ChannelConfig where
  default :=
    { forwardingFeeProportionalMillionths := 0
      forwardingFeeBaseMsat := 1000
      cltvExpiryDelta := 72
      maxDustHTLCExposure := .feeRateMultiplier 5000
      forceCloseAvoidanceMaxFeeSatoshis := 1000
      acceptUnderpayingHtlcs := false }

inductive ChannelShutdownState where
  | notShuttingDown
  | shutdownInitiated
  | resolvingHTLCs
  | negotiatingClosingFee
  | shutdownComplete
deriving DecidableEq, Encodable

structure CounterpartyForwardingInfo where
  feeBaseMsat : UInt32
  feeProportionalMillionths : UInt32
  cltvExpiryDelta : UInt16
deriving DecidableEq, Encodable

structure ChannelCounterparty where
  nodeId : PublicKey
  features : Bytes
  unspendablePunishmentReserve : UInt64
  forwardingInfo : Option CounterpartyForwardingInfo
  outboundHtlcMinimumMsat : Option UInt64
  outboundHtlcMaximumMsat : Option UInt64
deriving DecidableEq, Encodable

structure ChannelDetails where
  channelId : ChannelId
  counterparty : ChannelCounterparty
  fundingTxo : Option OutPoint
  channelType : Option Bytes
  shortChannelId : Option UInt64
  outboundScidAlias : Option UInt64
  inboundScidAlias : Option UInt64
  channelValueSatoshis : UInt64
  unspendablePunishmentReserve : Option UInt64
  userChannelId : BitVec 128
  feerateSatPer1000Weight : Option UInt32
  balanceMsat : UInt64
  outboundCapacityMsat : UInt64
  nextOutboundHtlcLimitMsat : UInt64
  nextOutboundHtlcMinimumMsat : UInt64
  inboundCapacityMsat : UInt64
  confirmationsRequired : Option UInt32
  confirmations : Option UInt32
  forceCloseSpendDelay : Option UInt16
  isOutbound : Bool
  isChannelReady : Bool
  channelShutdownState : Option ChannelShutdownState
  isUsable : Bool
  isPublic : Bool
  inboundHtlcMinimumMsat : Option UInt64
  inboundHtlcMaximumMsat : Option UInt64
  config : Option ChannelConfig
deriving DecidableEq, Encodable

def pendingChannel : ChannelDetails :=
  { channelId := ⟨.replicate 32 7⟩
    counterparty :=
      { nodeId := ⟨.replicate 33 2⟩, features := [], unspendablePunishmentReserve := 0
        forwardingInfo := none
        outboundHtlcMinimumMsat := none, outboundHtlcMaximumMsat := none }
    fundingTxo := none, channelType := none, shortChannelId := none, outboundScidAlias := none
    inboundScidAlias := none, channelValueSatoshis := 100000, unspendablePunishmentReserve := none
    userChannelId := 1, feerateSatPer1000Weight := none, balanceMsat := 0, outboundCapacityMsat := 0
    nextOutboundHtlcLimitMsat := 0, nextOutboundHtlcMinimumMsat := 0, inboundCapacityMsat := 0
    confirmationsRequired := some 6, confirmations := some 0, forceCloseSpendDelay := none
    isOutbound := true, isChannelReady := false, channelShutdownState := none, isUsable := false
    isPublic := true, inboundHtlcMinimumMsat := none, inboundHtlcMaximumMsat := none
    config := some default }

def otherPeersChannel : ChannelDetails :=
  { pendingChannel with
    channelId := ⟨.replicate 32 8⟩
    counterparty := { pendingChannel.counterparty with nodeId := ⟨.replicate 33 3⟩ } }

end Kld
