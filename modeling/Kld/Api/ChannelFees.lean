import Kld.Api.Channels
import Kld.Lib.Run

/-!
# Sequences of fee requests

A request gives the base fee, the proportional fee, both or neither, for one
channel or for all. Each channel named by a request is sent the configuration of
the node with the given fees put in, so what a channel ends up with depends on
the last request that names it and on the node's own configuration.
-/

namespace Kld.Api

open Kld Transition

variable {σ : Type}

structure IterationOrder where
  arrange : List (PublicKey × List ChannelDetails) → List (PublicKey × List ChannelDetails)
  perm : ∀ groups, (arrange groups).Perm groups

structure FeeRequest where
  fee : ChannelFee
  order : IterationOrder

def feeStep (manager : ChannelManager σ) (s : σ) (request : FeeRequest) : Option σ :=
  match setChannelFee (controller manager) request.order.arrange request.fee s with
  | (.ok _, s') => some s'
  | (.error _, _) => none

def targets (manager : ChannelManager σ) (s : σ) (channelId : ChannelId) (fee : ChannelFee) :
    Bool :=
  if fee.id = "all" then (manager.listChannels s).any fun c => c.channelId = channelId
  else ((manager.listChannels s).find? (isNamed fee.id)).any fun c => c.channelId = channelId

def targeting (manager : ChannelManager σ) (channelId : ChannelId) :
    σ → List FeeRequest → List ChannelFee
  | _, [] => []
  | s, request :: rest =>
    let others := (feeStep manager s request).elim [] fun s' => targeting manager channelId s' rest
    if targets manager s channelId request.fee then request.fee :: others else others

def lastGiven (before : UInt32) (given : List (Option UInt32)) : UInt32 :=
  given.foldl (fun value fee => fee.getD value) before

/-- What was asked for: the fees given last, and the configuration from before for the rest. -/
def askedConfig (config : ChannelConfig) (fees : List ChannelFee) : ChannelConfig :=
  { config with
    forwardingFeeBaseMsat := lastGiven config.forwardingFeeBaseMsat (fees.map (·.base))
    forwardingFeeProportionalMillionths :=
      lastGiven config.forwardingFeeProportionalMillionths (fees.map (·.ppm)) }

def withFeesOf (config other : ChannelConfig) : ChannelConfig :=
  { config with
    forwardingFeeBaseMsat := other.forwardingFeeBaseMsat
    forwardingFeeProportionalMillionths := other.forwardingFeeProportionalMillionths }

/-- The configuration of the node has what the last request leaves out: everything but the fees
as in the channel, and each fee that is not given as it was given last or was before. -/
def NodeSupplies (node config : ChannelConfig) (fees : List ChannelFee) : Prop :=
  ∀ last, fees.getLast? = some last →
    withFeesOf node config = config ∧
    (last.base = none →
      node.forwardingFeeBaseMsat = (askedConfig config fees).forwardingFeeBaseMsat) ∧
    (last.ppm = none → node.forwardingFeeProportionalMillionths =
      (askedConfig config fees).forwardingFeeProportionalMillionths)

variable {manager : ChannelManager σ} {s s' : σ} {channelId : ChannelId}

theorem controller_setChannelFee_spec (channelId : ChannelId) (hLawful : manager.Lawful)
    {peer : PublicKey} {channelIds : List ChannelId} {ppm base : Option UInt32}
    {fees : UInt32 × UInt32}
    (h : (controller manager).setChannelFee peer channelIds ppm base s = (.ok fees, s')) :
    manager.configOf s' channelId =
      if channelId ∈ channelIds then some (some (Controller.requestedConfig manager ppm base))
      else manager.configOf s channelId := by
  dsimp only [controller, Controller.setChannelFee] at h
  cases hUpdate : manager.updateChannelConfig peer channelIds
      (Controller.requestedConfig manager ppm base) s with
  | mk answer s'' =>
    rw [hUpdate] at h
    obtain ⟨hAnswer, rfl⟩ := Prod.mk.inj h
    cases answer with
    | error e => cases hAnswer
    | ok _ => exact hLawful.configOf_update hUpdate channelId

theorem mem_addToPeer {c : ChannelDetails} {groups : List (PublicKey × List ChannelDetails)}
    {d : ChannelDetails} :
    (∃ group ∈ addToPeer c groups, d ∈ group.2) ↔ d = c ∨ ∃ group ∈ groups, d ∈ group.2 := by
  induction groups with
  | nil => simp [addToPeer]
  | cons group rest ih =>
    obtain ⟨nodeId, channels⟩ := group
    unfold addToPeer
    split
    · simp only [List.mem_cons, exists_eq_or_imp, List.mem_append, List.not_mem_nil, or_false]
      exact (or_congr_left or_comm).trans or_assoc
    · simp only [List.mem_cons, exists_eq_or_imp, ih]
      exact or_left_comm

theorem mem_peerChannels {channels : List ChannelDetails} {d : ChannelDetails} :
    (∃ group ∈ peerChannels channels, d ∈ group.2) ↔ d ∈ channels := by
  have hFold : ∀ groups,
      (∃ group ∈ channels.foldl (fun groups c => addToPeer c groups) groups, d ∈ group.2) ↔
      d ∈ channels ∨ ∃ group ∈ groups, d ∈ group.2 := by
    induction channels with
    | nil => simp
    | cons c rest ih =>
      intro groups
      rw [List.foldl_cons, ih, mem_addToPeer, List.mem_cons]
      exact or_left_comm.trans or_assoc.symm
  rw [peerChannels, hFold]
  simp

theorem setPeerFees_spec (hLawful : manager.Lawful) {fee : ChannelFee}
    {groups : List (PublicKey × List ChannelDetails)} {updated : List SetChannelFee}
    (h : setPeerFees (controller manager) fee groups s = (.ok updated, s')) :
    manager.configOf s' channelId =
      if ∃ group ∈ groups, ∃ c ∈ group.2, c.channelId = channelId
      then some (some (Controller.requestedConfig manager fee.ppm fee.base))
      else manager.configOf s channelId := by
  induction groups generalizing s updated with
  | nil =>
    obtain rfl := (Prod.mk.inj h).2
    simp
  | cons group rest ih =>
    obtain ⟨nodeId, channels⟩ := group
    rw [setPeerFees] at h
    cases hAnswer : (controller manager).setChannelFee nodeId (channels.map (·.channelId))
        fee.ppm fee.base s with
    | mk answer s₁ =>
      simp only [internalServer, hAnswer] at h
      cases answer with
      | error e => cases h
      | ok fees =>
        have hHead := controller_setChannelFee_spec channelId hLawful hAnswer
        cases hOthers : setPeerFees (controller manager) fee rest s₁ with
        | mk others s₂ =>
          simp only [Except.mapError, hOthers, Prod.mk.injEq] at h
          obtain ⟨hOk, rfl⟩ := h
          cases others with
          | error e => cases hOk
          | ok others =>
            have hOr :
              (∃ group ∈ (nodeId, channels) :: rest, ∃ c ∈ group.2, c.channelId = channelId) ↔
                channelId ∈ channels.map (·.channelId) ∨
                  ∃ group ∈ rest, ∃ c ∈ group.2, c.channelId = channelId := by
              rw [List.mem_map]
              simp only [List.mem_cons, exists_eq_or_imp]
            rw [ih hOthers, hHead]
            by_cases hRest : ∃ group ∈ rest, ∃ c ∈ group.2, c.channelId = channelId
            · rw [if_pos hRest, if_pos (hOr.mpr (Or.inr hRest))]
            · rw [if_neg hRest]
              by_cases hIn : channelId ∈ channels.map (·.channelId)
              · rw [if_pos hIn, if_pos (hOr.mpr (Or.inl hIn))]
              · rw [if_neg hIn, if_neg fun h => (hOr.mp h).elim hIn hRest]

theorem feeStep_spec (hLawful : manager.Lawful) {request : FeeRequest}
    (h : feeStep manager s request = some s') :
    manager.configOf s' channelId =
      if targets manager s channelId request.fee
      then some (some (Controller.requestedConfig manager request.fee.ppm request.fee.base))
      else manager.configOf s channelId := by
  obtain ⟨⟨id, base, ppm⟩, order⟩ := request
  unfold feeStep setChannelFee at h
  unfold targets
  dsimp only at h ⊢
  split at h
  · rename_i updated s₁ hServed
    obtain rfl := Option.some.inj h
    by_cases hAll : id = "all"
    · rw [if_pos hAll] at hServed ⊢
      rw [setPeerFees_spec hLawful hServed]
      have hGroups : (∃ group ∈ order.arrange (peerChannels (manager.listChannels s)),
          ∃ c ∈ group.2, c.channelId = channelId) ↔
            ∃ c ∈ manager.listChannels s, c.channelId = channelId := by
        constructor
        · rintro ⟨group, hGroup, c, hC, hSame⟩
          exact ⟨c, mem_peerChannels.mp ⟨group, (order.perm _).mem_iff.mp hGroup, hC⟩, hSame⟩
        · rintro ⟨c, hC, hSame⟩
          obtain ⟨group, hGroup, hIn⟩ := mem_peerChannels.mpr hC
          exact ⟨group, (order.perm _).mem_iff.mpr hGroup, c, hIn, hSame⟩
      refine ite_congr (propext (hGroups.trans ?_)) (fun _ => rfl) fun _ => rfl
      simp
    · rw [if_neg hAll] at hServed ⊢
      unfold onNamedChannel at hServed
      split at hServed
      · rename_i c hFind
        have hFind' : (manager.listChannels s).find? (isNamed id) = some c := hFind
        cases hAnswer : (controller manager).setChannelFee c.counterparty.nodeId [c.channelId]
            ppm base s with
        | mk answer s₂ =>
          simp only [internalServer, setNamedFee, hAnswer, Prod.mk.injEq] at hServed
          obtain ⟨hOk, rfl⟩ := hServed
          cases answer with
          | error e => cases hOk
          | ok fees =>
            rw [controller_setChannelFee_spec channelId hLawful hAnswer]
            refine ite_congr (propext ?_) (fun _ => rfl) fun _ => rfl
            rw [List.mem_singleton, hFind', Option.any_some, decide_eq_true_iff]
            exact eq_comm
      · cases hServed
  · cases h

theorem targeting_cons {request : FeeRequest} {rest : List FeeRequest}
    (hStep : feeStep manager s request = some s') :
    targeting manager channelId s (request :: rest) =
      if targets manager s channelId request.fee then
        request.fee :: targeting manager channelId s' rest
      else targeting manager channelId s' rest := by
  rw [targeting, hStep]
  rfl

/-- What the code computes: the last request that names the channel decides everything. -/
theorem configOf_run (hLawful : manager.Lawful) {requests : List FeeRequest}
    (hRun : run (feeStep manager) s requests = some s') :
    manager.configOf s' channelId =
      (targeting manager channelId s requests).getLast?.elim (manager.configOf s channelId)
        fun last => some (some (Controller.requestedConfig manager last.ppm last.base)) := by
  induction requests generalizing s with
  | nil =>
    obtain rfl := Option.some.inj hRun
    rfl
  | cons request rest ih =>
    obtain ⟨s₁, hStep, hRest⟩ := run_cons_eq_some hRun
    rw [ih hRest, feeStep_spec hLawful hStep, targeting_cons hStep]
    split
    · rw [List.getLast?_cons]
      cases (targeting manager channelId s₁ rest).getLast? <;> rfl
    · rfl

theorem lastGiven_append (before value : UInt32) (given : List (Option UInt32)) :
    lastGiven before (given ++ [some value]) = value := by
  rw [lastGiven, List.foldl_append]
  rfl

theorem getD_eq_lastGiven_iff {fees : List ChannelFee} {last : ChannelFee}
    (hLast : fees.getLast? = some last)
    (field : ChannelFee → Option UInt32) (node before : UInt32) :
    (field last).getD node = lastGiven before (fees.map field) ↔
      (field last = none → node = lastGiven before (fees.map field)) := by
  cases hField : field last with
  | none => exact ⟨fun h _ => h, fun h => h rfl⟩
  | some value =>
    obtain ⟨earlier, rfl⟩ := List.getLast?_eq_some_iff.mp hLast
    rw [List.map_append, List.map_singleton, hField, lastGiven_append]
    exact iff_of_true rfl nofun

/-- After a run a channel has what was asked for exactly if the node supplies what was left out. -/
theorem fees_as_asked_iff (hLawful : manager.Lawful) {requests : List FeeRequest}
    (hRun : run (feeStep manager) s requests = some s') {config : ChannelConfig}
    (hConfig : manager.configOf s channelId = some (some config)) :
    manager.configOf s' channelId =
      some (some (askedConfig config (targeting manager channelId s requests))) ↔
      NodeSupplies manager.currentDefaultConfiguration config
        (targeting manager channelId s requests) := by
  rw [configOf_run hLawful hRun, hConfig]
  generalize targeting manager channelId s requests = fees
  cases hLast : fees.getLast? with
  | none =>
    obtain rfl := List.getLast?_eq_none_iff.mp hLast
    exact iff_of_true rfl nofun
  | some last =>
    have hSupplies : NodeSupplies manager.currentDefaultConfiguration config fees ↔
        withFeesOf manager.currentDefaultConfiguration config = config ∧
          last.base.getD manager.currentDefaultConfiguration.forwardingFeeBaseMsat =
            (askedConfig config fees).forwardingFeeBaseMsat ∧
          last.ppm.getD manager.currentDefaultConfiguration.forwardingFeeProportionalMillionths =
            (askedConfig config fees).forwardingFeeProportionalMillionths := by
      rw [askedConfig, getD_eq_lastGiven_iff hLast (·.base), getD_eq_lastGiven_iff hLast (·.ppm)]
      constructor
      · exact fun h => h last hLast
      · intro h last' hLast'
        obtain rfl : last = last' := Option.some.inj (hLast.symm.trans hLast')
        exact h
    rw [hSupplies, Option.elim_some, Option.some.injEq, Option.some.injEq]
    rw [ChannelConfig.ext_iff, ChannelConfig.ext_iff]
    dsimp only [Controller.requestedConfig, askedConfig, withFeesOf]
    tauto

def insertionOrder : IterationOrder := ⟨fun groups => groups, fun groups => .refl groups⟩

def setBaseOfAll (base : UInt32) : FeeRequest := ⟨⟨"all", some base, none⟩, insertionOrder⟩

def setPpmOfAll (ppm : UInt32) : FeeRequest := ⟨⟨"all", none, some ppm⟩, insertionOrder⟩

/-- Setting the proportional fee after the base fee resets the base fee. -/
theorem base_fee_reset :
    ∃ s, run (feeStep listManager) [pendingChannel] [setBaseOfAll 5, setPpmOfAll 7] = some s ∧
      listManager.configOf [pendingChannel] pendingChannel.channelId = some (some default) ∧
      targeting listManager pendingChannel.channelId [pendingChannel]
          [setBaseOfAll 5, setPpmOfAll 7] =
        [(setBaseOfAll 5).fee, (setPpmOfAll 7).fee] ∧
      listManager.configOf s pendingChannel.channelId ≠
        some (some (askedConfig default [(setBaseOfAll 5).fee, (setPpmOfAll 7).fee])) := by
  refine ⟨_, rfl, rfl, rfl, ?_⟩
  decide

/-- The last request gives both fees. -/
def setFeesOfAll (base ppm : UInt32) : FeeRequest := ⟨⟨"all", some base, some ppm⟩, insertionOrder⟩

theorem full_request_as_asked :
    ∃ s, run (feeStep listManager) [pendingChannel, otherPeersChannel]
        [setBaseOfAll 5, setFeesOfAll 6 7] = some s ∧
      listManager.configOf s otherPeersChannel.channelId = some (some
        (askedConfig default (targeting listManager otherPeersChannel.channelId
          [pendingChannel, otherPeersChannel] [setBaseOfAll 5, setFeesOfAll 6 7]))) := by
  have hRun : run (feeStep listManager) [pendingChannel, otherPeersChannel]
      [setBaseOfAll 5, setFeesOfAll 6 7] = some _ := rfl
  refine ⟨_, hRun, (fees_as_asked_iff listManager_lawful hRun rfl).mpr ?_⟩
  intro last hLast
  obtain rfl : (setFeesOfAll 6 7).fee = last := Option.some.inj hLast
  exact ⟨rfl, nofun, nofun⟩

end Kld.Api
