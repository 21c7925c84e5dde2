import Kld.Api.ChannelFees

/-!
# Setting the fees of all channels

The peers are asked one after the other, and the first refusal ends the request:
the channels of the peers before it keep what they were given. Any channel may
close between two calls.
-/

namespace Kld.Api

variable {σ : Type}

/-- A channel that closed has no configuration, any other one what is expected. -/
def ClosedOr (found expected : Option (Option ChannelConfig)) : Prop :=
  found = none ∨ found = expected

/-- An update of LDK is for all channels of the call or for none of them, and leaves the
configurations of the others as they are. -/
structure UpdatesAtOnce (manager : ChannelManager σ) : Prop where
  accepted : ∀ {peer channelIds config s s'},
    manager.updateChannelConfig peer channelIds config s = (.ok (), s') → ∀ channelId,
      ClosedOr (manager.configOf s' channelId)
        (if channelId ∈ channelIds then some (some config) else manager.configOf s channelId)
  refused : ∀ {peer channelIds config s e s'},
    manager.updateChannelConfig peer channelIds config s = (.error e, s') → ∀ channelId,
      ClosedOr (manager.configOf s' channelId) (manager.configOf s channelId)

/-- The response has an entry for every channel, with the fees that it has now. -/
def ListsInForce (manager : ChannelManager σ) (channels : List ChannelDetails)
    (updated : List SetChannelFee) (s' : σ) : Prop :=
  ∃ fees, updated.Perm (channels.map (updatedChannel fees)) ∧
    ∀ c ∈ channels, ∀ config, manager.configOf s' c.channelId = some config →
      ∃ set, config = some set ∧
        fees = (set.forwardingFeeBaseMsat, set.forwardingFeeProportionalMillionths)

def AllOrNothing (manager : ChannelManager σ) (s : σ) :
    Except ApiError (List SetChannelFee) × σ → Prop
  | (.ok updated, s') => ListsInForce manager (manager.listChannels s) updated s'
  | (.error _, s') =>
    ∀ channelId, ClosedOr (manager.configOf s' channelId) (manager.configOf s channelId)

/-- The configuration after the request of the channels of these peers. -/
def configAfter (manager : ChannelManager σ) (fee : ChannelFee)
    (groups : List (PublicKey × List ChannelDetails)) (s : σ) (channelId : ChannelId) :
    Option (Option ChannelConfig) :=
  if ∃ group ∈ groups, ∃ c ∈ group.2, c.channelId = channelId
  then some (some (Controller.requestedConfig manager fee.ppm fee.base))
  else manager.configOf s channelId

/-- The request ended at a peer that refused: those before it have the fees, no other has. -/
structure EndedAt (manager : ChannelManager σ) (fee : ChannelFee)
    (groups done : List (PublicKey × List ChannelDetails))
    (refusing : PublicKey × List ChannelDetails) (e : ApiError) (s s' : σ) : Prop where
  before : (done ++ [refusing]).IsPrefix groups
  refusal : ∃ s₁ message, (controller manager).setChannelFee refusing.1
      (refusing.2.map (·.channelId)) fee.ppm fee.base s₁ = (.error message, s') ∧
    e = .internalServerError message
  configs : ∀ channelId,
    ClosedOr (manager.configOf s' channelId) (configAfter manager fee done s channelId)

variable {manager : ChannelManager σ} {fee : ChannelFee} {s s' : σ}

theorem ClosedOr.trans {found middle expected : Option (Option ChannelConfig)}
    (h : ClosedOr found middle) (hMiddle : ClosedOr middle expected) : ClosedOr found expected := by
  rcases h with hNone | rfl
  · exact Or.inl hNone
  · exact hMiddle

theorem configAfter_nil (channelId : ChannelId) :
    configAfter manager fee [] s channelId = manager.configOf s channelId :=
  if_neg fun ⟨_, hMem, _⟩ => absurd hMem List.not_mem_nil

/-- What the first peer is given stays, unless a later one has the channel too. -/
theorem closedOr_configAfter_cons {group : PublicKey × List ChannelDetails}
    {rest : List (PublicKey × List ChannelDetails)} {s₁ : σ} {channelId : ChannelId}
    (hHead : ClosedOr (manager.configOf s₁ channelId)
      (if channelId ∈ group.2.map (·.channelId)
        then some (some (Controller.requestedConfig manager fee.ppm fee.base))
        else manager.configOf s channelId))
    (hRest : ClosedOr (manager.configOf s' channelId) (configAfter manager fee rest s₁ channelId)) :
    ClosedOr (manager.configOf s' channelId)
      (configAfter manager fee (group :: rest) s channelId) := by
  unfold configAfter at hRest ⊢
  simp only [List.exists_mem_cons_iff]
  by_cases hLater : ∃ group ∈ rest, ∃ c ∈ group.2, c.channelId = channelId
  · rw [if_pos hLater] at hRest
    rwa [if_pos (Or.inr hLater)]
  · rw [if_neg hLater] at hRest
    refine hRest.trans ?_
    simpa only [hLater, or_false, List.mem_map] using hHead

theorem controller_accepted (hUpdates : UpdatesAtOnce manager) {peer : PublicKey}
    {channelIds : List ChannelId} {fees : UInt32 × UInt32}
    (h : (controller manager).setChannelFee peer channelIds fee.ppm fee.base s = (.ok fees, s')) :
    fees = ((Controller.requestedConfig manager fee.ppm fee.base).forwardingFeeBaseMsat,
        (Controller.requestedConfig manager fee.ppm fee.base).forwardingFeeProportionalMillionths) ∧
      ∀ channelId, ClosedOr (manager.configOf s' channelId)
        (if channelId ∈ channelIds
          then some (some (Controller.requestedConfig manager fee.ppm fee.base))
          else manager.configOf s channelId) := by
  dsimp only [controller, Controller.setChannelFee] at h
  cases hUpdate : manager.updateChannelConfig peer channelIds
      (Controller.requestedConfig manager fee.ppm fee.base) s with
  | mk answer s'' =>
    rw [hUpdate] at h
    obtain ⟨hAnswer, rfl⟩ := Prod.mk.inj h
    cases answer with
    | error e => cases hAnswer
    | ok _ => exact ⟨(Except.ok.inj hAnswer).symm, hUpdates.accepted hUpdate⟩

theorem controller_refused (hUpdates : UpdatesAtOnce manager) {peer : PublicKey}
    {channelIds : List ChannelId} {message : String}
    (h : (controller manager).setChannelFee peer channelIds fee.ppm fee.base s =
      (.error message, s')) (channelId : ChannelId) :
    ClosedOr (manager.configOf s' channelId) (manager.configOf s channelId) := by
  dsimp only [controller, Controller.setChannelFee] at h
  cases hUpdate : manager.updateChannelConfig peer channelIds
      (Controller.requestedConfig manager fee.ppm fee.base) s with
  | mk answer s'' =>
    rw [hUpdate] at h
    obtain ⟨hAnswer, rfl⟩ := Prod.mk.inj h
    cases answer with
    | error e => exact hUpdates.refused hUpdate channelId
    | ok _ => cases hAnswer

/-- One peer of the loop: it refuses, or it accepts and the loop goes on. -/
theorem setPeerFees_cons (manager : ChannelManager σ) (fee : ChannelFee)
    (group : PublicKey × List ChannelDetails) (rest : List (PublicKey × List ChannelDetails))
    (s : σ) :
    setPeerFees (controller manager) fee (group :: rest) s =
      match (controller manager).setChannelFee group.1 (group.2.map (·.channelId)) fee.ppm
        fee.base s with
      | (.error message, s₁) => (.error (.internalServerError message), s₁)
      | (.ok fees, s₁) =>
        ((setPeerFees (controller manager) fee rest s₁).1.map fun updated =>
            group.2.map (updatedChannel fees) ++ updated,
          (setPeerFees (controller manager) fee rest s₁).2) := by
  obtain ⟨nodeId, channels⟩ := group
  rw [setPeerFees]
  dsimp only [internalServer]
  cases (controller manager).setChannelFee nodeId (channels.map (·.channelId)) fee.ppm fee.base s
    with
  | mk answer s₁ => cases answer <;> rfl

theorem setPeerFees_ok (hUpdates : UpdatesAtOnce manager)
    {groups : List (PublicKey × List ChannelDetails)} {updated : List SetChannelFee}
    (h : setPeerFees (controller manager) fee groups s = (.ok updated, s')) :
    updated = (groups.flatMap Prod.snd).map (updatedChannel
        ((Controller.requestedConfig manager fee.ppm fee.base).forwardingFeeBaseMsat,
          (Controller.requestedConfig manager fee.ppm
            fee.base).forwardingFeeProportionalMillionths)) ∧
      ∀ channelId,
        ClosedOr (manager.configOf s' channelId) (configAfter manager fee groups s channelId) := by
  induction groups generalizing s updated with
  | nil =>
    obtain ⟨hNone, rfl⟩ := Prod.mk.inj h
    refine ⟨(Except.ok.inj hNone).symm, fun channelId => Or.inr ?_⟩
    exact (configAfter_nil channelId).symm
  | cons group rest ih =>
    rw [setPeerFees_cons] at h
    split at h
    · cases (Prod.mk.inj h).1
    · rename_i fees s₁ hAnswer
      obtain ⟨rfl, hHead⟩ := controller_accepted hUpdates hAnswer
      cases hOthers : setPeerFees (controller manager) fee rest s₁ with
      | mk others s₂ =>
        rw [hOthers] at h
        obtain ⟨hOk, rfl⟩ := Prod.mk.inj h
        cases others with
        | error e => cases hOk
        | ok others =>
          obtain ⟨rfl, hRest⟩ := ih hOthers
          refine ⟨?_, fun channelId => closedOr_configAfter_cons (hHead channelId)
            (hRest channelId)⟩
          rw [List.flatMap_cons, List.map_append]
          exact (Except.ok.inj hOk).symm

theorem setPeerFees_error (hUpdates : UpdatesAtOnce manager)
    {groups : List (PublicKey × List ChannelDetails)} {e : ApiError}
    (h : setPeerFees (controller manager) fee groups s = (.error e, s')) :
    ∃ done refusing, EndedAt manager fee groups done refusing e s s' := by
  induction groups generalizing s with
  | nil => cases (Prod.mk.inj h).1
  | cons group rest ih =>
    rw [setPeerFees_cons] at h
    split at h
    · rename_i message s₁ hAnswer
      obtain ⟨hError, rfl⟩ := Prod.mk.inj h
      refine ⟨[], group, ⟨rest, rfl⟩, ⟨s, message, hAnswer, (Except.error.inj hError).symm⟩,
        fun channelId => ?_⟩
      rw [configAfter_nil]
      exact controller_refused hUpdates hAnswer channelId
    · rename_i fees s₁ hAnswer
      have hHead := (controller_accepted hUpdates hAnswer).2
      cases hOthers : setPeerFees (controller manager) fee rest s₁ with
      | mk others s₂ =>
        rw [hOthers] at h
        obtain ⟨hError, rfl⟩ := Prod.mk.inj h
        cases others with
        | ok others => cases hError
        | error e' =>
          obtain rfl : e' = e := Except.error.inj hError
          obtain ⟨done, refusing, hEnded⟩ := ih hOthers
          refine ⟨group :: done, refusing, List.cons_prefix_cons.mpr ⟨rfl, hEnded.before⟩,
            hEnded.refusal, fun channelId => ?_⟩
          exact closedOr_configAfter_cons (hHead channelId) (hEnded.configs channelId)

theorem flatMap_addToPeer (c : ChannelDetails) (groups : List (PublicKey × List ChannelDetails)) :
    ((addToPeer c groups).flatMap Prod.snd).Perm (c :: groups.flatMap Prod.snd) := by
  induction groups with
  | nil => exact .refl _
  | cons group rest ih =>
    obtain ⟨nodeId, channels⟩ := group
    unfold addToPeer
    split
    · rw [List.flatMap_cons, List.flatMap_cons, List.append_assoc]
      exact List.perm_middle
    · rw [List.flatMap_cons, List.flatMap_cons]
      exact (ih.append_left channels).trans List.perm_middle

/-- Grouping by peers loses no channel and doubles none. -/
theorem flatMap_peerChannels (channels : List ChannelDetails) :
    ((peerChannels channels).flatMap Prod.snd).Perm channels := by
  have hFold : ∀ groups : List (PublicKey × List ChannelDetails),
      ((channels.foldl (fun groups c => addToPeer c groups) groups).flatMap Prod.snd).Perm
        (channels ++ groups.flatMap Prod.snd) := by
    induction channels with
    | nil => exact fun groups => .refl _
    | cons c rest ih =>
      intro groups
      rw [List.foldl_cons, List.cons_append]
      refine (ih (addToPeer c groups)).trans ?_
      exact ((flatMap_addToPeer c groups).append_left rest).trans List.perm_middle
  exact (hFold []).trans (by rw [List.flatMap_nil, List.append_nil])

/-- A request for all channels that succeeds lists every channel with its fees. One that fails
ends at a peer that refuses, and the channels of the peers before it keep what they were given. -/
theorem setChannelFee_all (hUpdates : UpdatesAtOnce manager) (order : IterationOrder)
    (hAll : fee.id = "all") (s : σ) :
    (∀ updated s', setChannelFee (controller manager) order.arrange fee s = (.ok updated, s') →
      ListsInForce manager (manager.listChannels s) updated s') ∧
    ∀ e s', setChannelFee (controller manager) order.arrange fee s = (.error e, s') →
      ∃ done refusing, EndedAt manager fee
        (order.arrange (peerChannels (manager.listChannels s))) done refusing e s s' := by
  have hSet : setChannelFee (controller manager) order.arrange fee s =
      setPeerFees (controller manager) fee
        (order.arrange (peerChannels (manager.listChannels s))) s := if_pos hAll
  rw [hSet]
  refine ⟨fun updated s' h => ?_, fun e s' h => setPeerFees_error hUpdates h⟩
  obtain ⟨rfl, hConfigs⟩ := setPeerFees_ok hUpdates h
  have hChannels : ((order.arrange (peerChannels (manager.listChannels s))).flatMap Prod.snd).Perm
      (manager.listChannels s) :=
    ((order.perm _).flatMap_right _).trans (flatMap_peerChannels _)
  refine ⟨_, hChannels.map _, fun c hMem config hConfig => ⟨_, ?_, rfl⟩⟩
  obtain ⟨group, hGroup, hIn⟩ := List.mem_flatMap.mp (hChannels.mem_iff.mpr hMem)
  rcases hConfigs c.channelId with hNone | hSome
  · exact nomatch hNone.symm.trans hConfig
  · rw [configAfter, if_pos ⟨group, hGroup, c, hIn, rfl⟩, hConfig] at hSome
    exact Option.some.inj hSome

def onListed (act : List ChannelDetails → Except APIError Unit × List ChannelDetails)
    (s : List ChannelDetails × List ChannelId) :
    Except APIError Unit × List ChannelDetails × List ChannelId :=
  ((act s.1).1, (act s.1).2, s.2)

/-- A manager whose listed channels may be closed when an update comes. -/
def closingManager : ChannelManager (List ChannelDetails × List ChannelId) where
  listChannels s := s.1
  currentDefaultConfiguration := default
  updateChannelConfig peer channelIds config s :=
    onListed (listManager.updateChannelConfig peer channelIds config)
      (s.1.filter fun c => c.channelId ∉ s.2, s.2)
  closeChannel channelId peer := onListed (listManager.closeChannel channelId peer)
  closeChannelWithFeerateAndScript channelId peer feeRate :=
    onListed (listManager.closeChannelWithFeerateAndScript channelId peer feeRate)
  forceCloseBroadcastingLatestTxn channelId peer :=
    onListed (listManager.forceCloseBroadcastingLatestTxn channelId peer)
  forceCloseWithoutBroadcastingTxn channelId peer :=
    onListed (listManager.forceCloseWithoutBroadcastingTxn channelId peer)
  isSynchronised _ := true

theorem configOf_closing (channels : List ChannelDetails) (closing : List ChannelId)
    (channelId : ChannelId) :
    ClosedOr (listManager.configOf (channels.filter fun c => c.channelId ∉ closing) channelId)
      (listManager.configOf channels channelId) := by
  dsimp only [ClosedOr, ChannelManager.configOf, listManager]
  rw [List.find?_filter]
  by_cases hClosing : channelId ∈ closing
  · refine Or.inl (Option.map_eq_none_iff.mpr (List.find?_eq_none.mpr fun c _ hFound => ?_))
    obtain ⟨hOpen, hSame⟩ := of_decide_eq_true hFound
    exact of_decide_eq_true hOpen (of_decide_eq_true hSame ▸ hClosing)
  · refine Or.inr (congrArg (fun test => (channels.find? test).map _) (funext fun c => ?_))
    refine decide_eq_decide.mpr ⟨fun hBoth => of_decide_eq_true hBoth.2, fun hSame => ?_⟩
    exact ⟨decide_eq_true (hSame ▸ hClosing), decide_eq_true hSame⟩

theorem closingManager_updatesAtOnce : UpdatesAtOnce closingManager where
  accepted := by
    intro peer channelIds config s s' hUpdate channelId
    have hList : listManager.updateChannelConfig peer channelIds config
        (s.1.filter fun c => c.channelId ∉ s.2) = (.ok (), s'.1) :=
      Prod.ext (congrArg Prod.fst hUpdate :) (congrArg (fun answer => answer.2.1) hUpdate :)
    have hListed := listManager_lawful.configOf_update hList channelId
    have hConfig : closingManager.configOf s' channelId = listManager.configOf s'.1 channelId := rfl
    rw [hConfig, hListed]
    split
    · exact Or.inr rfl
    · exact configOf_closing s.1 s.2 channelId
  refused := by
    intro peer channelIds config s e s' hUpdate channelId
    have hListed : s'.1 = s.1.filter fun c => c.channelId ∉ s.2 := by
      have hAnswer := congrArg Prod.fst hUpdate
      rw [← congrArg (fun answer => answer.2.1) hUpdate]
      dsimp only [closingManager, onListed, listManager] at hAnswer ⊢
      split at hAnswer
      · cases hAnswer
      · rename_i hRefused
        rw [if_neg hRefused]
    have hConfig : closingManager.configOf s' channelId = listManager.configOf s'.1 channelId := rfl
    rw [hConfig, hListed]
    exact configOf_closing s.1 s.2 channelId

/-- The channel of the second peer closes after the channels were listed. -/
def closingState : List ChannelDetails × List ChannelId :=
  ([pendingChannel, otherPeersChannel], [otherPeersChannel.channelId])

/-- The first peer's channel keeps its new fee, although the request fails at the second. -/
theorem first_peer_keeps_fee :
    ¬ AllOrNothing closingManager closingState (setChannelFee (controller closingManager)
      insertionOrder.arrange (setBaseOfAll 5).fee closingState) := by
  intro hAtomic
  rcases hAtomic pendingChannel.channelId with hClosed | hKept
  · exact absurd hClosed (by decide)
  · exact absurd hKept (by decide)

theorem setChannelFee_all_closing :
    (∀ updated s', setChannelFee (controller closingManager) insertionOrder.arrange
        (setBaseOfAll 5).fee closingState = (.ok updated, s') →
      ListsInForce closingManager (closingManager.listChannels closingState) updated s') ∧
    ∀ e s', setChannelFee (controller closingManager) insertionOrder.arrange
        (setBaseOfAll 5).fee closingState = (.error e, s') →
      ∃ done refusing, EndedAt closingManager (setBaseOfAll 5).fee
        (insertionOrder.arrange (peerChannels (closingManager.listChannels closingState)))
        done refusing e closingState s' :=
  setChannelFee_all closingManager_updatesAtOnce insertionOrder rfl closingState

end Kld.Api
