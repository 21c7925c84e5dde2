import Kld.Ldk.ChannelDetails

/-!
# The controller over the channel manager

`LightningInterface` is what the API calls; `Controller` implements it with the
channel manager of LDK, which is a parameter here. Every method gives its result
and the state that it leaves behind.
-/

namespace Kld

inductive APIError where
  | apiMisuseError (err : String)
  | feeRateTooHigh (err : String) (feerate : UInt32)
  | invalidRoute (err : String)
  | channelUnavailable (err : String)
  | monitorUpdateInProgress
  | incompatibleShutdownScript (script : String)
deriving DecidableEq

def ldkError : APIError → String
  | .apiMisuseError err => "Misuse error: " ++ err
  | .feeRateTooHigh err feerate => err ++ " feerate: " ++ toString feerate.toNat
  | .invalidRoute err => "Invalid route provided: " ++ err
  | .channelUnavailable err => "Channel unavailable: " ++ err
  | .monitorUpdateInProgress =>
    "Client indicated a channel monitor update is in progress but not yet complete"
  | .incompatibleShutdownScript script =>
    "Provided a scriptpubkey format not accepted by peer: " ++ script

variable {σ : Type}

/-- The methods of LDK's channel manager that the controller uses, and the block chain client. -/
structure ChannelManager (σ : Type) where
  listChannels : σ → List ChannelDetails
  currentDefaultConfiguration : ChannelConfig
  updateChannelConfig : PublicKey → List ChannelId → ChannelConfig → σ → Except APIError Unit × σ
  closeChannel : ChannelId → PublicKey → σ → Except APIError Unit × σ
  closeChannelWithFeerateAndScript :
    ChannelId → PublicKey → Option UInt32 → σ → Except APIError Unit × σ
  forceCloseBroadcastingLatestTxn : ChannelId → PublicKey → σ → Except APIError Unit × σ
  forceCloseWithoutBroadcastingTxn : ChannelId → PublicKey → σ → Except APIError Unit × σ
  isSynchronised : σ → Bool

structure LightningInterface (σ : Type) where
  listActiveChannels : σ → List ChannelDetails
  closeChannel : ChannelId → PublicKey → Option UInt32 → σ → Except String Unit × σ
  forceCloseChannel : ChannelId → PublicKey → Bool → σ → Except String Unit × σ
  setChannelFee : PublicKey → List ChannelId → Option UInt32 → Option UInt32 → σ →
    Except String (UInt32 × UInt32) × σ

namespace Controller

variable (manager : ChannelManager σ)

def mapLdkError {α : Type} (answer : Except APIError α × σ) : Except String α × σ :=
  (answer.1.mapError ldkError, answer.2)

def closeChannel (channelId : ChannelId) (counterpartyNodeId : PublicKey) (feeRate : Option UInt32)
    (s : σ) : Except String Unit × σ :=
  if !manager.isSynchronised s then (.error "Bitcoind is synchronising blockchain", s)
  else if feeRate.isSome then
    mapLdkError (manager.closeChannelWithFeerateAndScript channelId counterpartyNodeId feeRate s)
  else mapLdkError (manager.closeChannel channelId counterpartyNodeId s)

def forceCloseChannel (channelId : ChannelId) (counterpartyNodeId : PublicKey)
    (withBroadcast : Bool) (s : σ) : Except String Unit × σ :=
  if !manager.isSynchronised s then (.error "Bitcoind is synchronising blockchain", s)
  else if withBroadcast then
    mapLdkError (manager.forceCloseBroadcastingLatestTxn channelId counterpartyNodeId s)
  else mapLdkError (manager.forceCloseWithoutBroadcastingTxn channelId counterpartyNodeId s)

def requestedConfig (ppm base : Option UInt32) : ChannelConfig :=
  { manager.currentDefaultConfiguration with
    forwardingFeeProportionalMillionths :=
      ppm.getD manager.currentDefaultConfiguration.forwardingFeeProportionalMillionths
    forwardingFeeBaseMsat := base.getD manager.currentDefaultConfiguration.forwardingFeeBaseMsat }

def setChannelFee (counterpartyNodeId : PublicKey) (channelIds : List ChannelId)
    (ppm base : Option UInt32) (s : σ) : Except String (UInt32 × UInt32) × σ :=
  let config := requestedConfig manager ppm base
  let answer := manager.updateChannelConfig counterpartyNodeId channelIds config s
  (match answer.1 with
    | .ok () => .ok (config.forwardingFeeBaseMsat, config.forwardingFeeProportionalMillionths)
    | .error e => .error (ldkError e),
   answer.2)

end Controller

def controller (manager : ChannelManager σ) : LightningInterface σ where
  listActiveChannels := manager.listChannels
  closeChannel := Controller.closeChannel manager
  forceCloseChannel := Controller.forceCloseChannel manager
  setChannelFee := Controller.setChannelFee manager

def ChannelManager.configOf (manager : ChannelManager σ) (s : σ) (channelId : ChannelId) :
    Option (Option ChannelConfig) :=
  ((manager.listChannels s).find? fun c => c.channelId = channelId).map ChannelDetails.config

/-- An update that LDK accepts gives every channel of the call the configuration of the call,
and leaves those of the other channels as they are. -/
structure ChannelManager.Lawful (manager : ChannelManager σ) : Prop where
  configOf_update : ∀ {peer channelIds config s s'},
    manager.updateChannelConfig peer channelIds config s = (.ok (), s') → ∀ channelId,
      manager.configOf s' channelId =
        if channelId ∈ channelIds then some (some config) else manager.configOf s channelId

def listManager : ChannelManager (List ChannelDetails) where
  listChannels s := s
  currentDefaultConfiguration := default
  updateChannelConfig peer channelIds config s :=
    if ∀ channelId ∈ channelIds,
        ∃ c ∈ s, c.channelId = channelId ∧ c.counterparty.nodeId = peer then
      (.ok (), s.map fun c =>
        if c.channelId ∈ channelIds then { c with config := some config } else c)
    else (.error (.channelUnavailable "no such channel"), s)
  closeChannel := removeChannel
  closeChannelWithFeerateAndScript channelId peer _ := removeChannel channelId peer
  forceCloseBroadcastingLatestTxn := removeChannel
  forceCloseWithoutBroadcastingTxn := removeChannel
  isSynchronised _ := true
where
  removeChannel (channelId : ChannelId) (peer : PublicKey) (s : List ChannelDetails) :
      Except APIError Unit × List ChannelDetails :=
    if ∃ c ∈ s, c.channelId = channelId ∧ c.counterparty.nodeId = peer then
      (.ok (), s.filter fun c => c.channelId ≠ channelId)
    else (.error (.channelUnavailable "no such channel"), s)

theorem listManager_lawful : listManager.Lawful where
  configOf_update := by
    intro peer channelIds config s s' hUpdate channelId
    dsimp only [listManager] at hUpdate
    split at hUpdate
    · rename_i hAll
      obtain rfl := (Prod.mk.inj hUpdate).2
      have hIds : (fun c : ChannelDetails => decide (c.channelId = channelId)) ∘
          (fun c => if c.channelId ∈ channelIds then { c with config := some config } else c) =
          fun c => decide (c.channelId = channelId) := by
        funext c
        dsimp only [Function.comp]
        split <;> rfl
      dsimp only [ChannelManager.configOf, listManager]
      rw [List.find?_map, hIds, Option.map_map]
      cases hFind : s.find? fun c => c.channelId = channelId with
      | none =>
        rw [if_neg]
        · rfl
        · intro hIn
          obtain ⟨c, hC, hSame, _⟩ := hAll channelId hIn
          exact List.find?_eq_none.mp hFind c hC (decide_eq_true hSame)
      | some c =>
        have hSame := List.find?_some hFind
        obtain rfl : c.channelId = channelId := of_decide_eq_true hSame
        rw [Option.map_some, Function.comp_apply]
        split <;> rfl
    · cases (Prod.mk.inj hUpdate).1

end Kld
