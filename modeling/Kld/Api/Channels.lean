import Kld.Ldk.Controller
import Std.Data.String.ToNat

/-!
# The endpoints that act on one channel

Each endpoint looks for the channel that its id names, by the hexadecimal digits
of the channel id or by the decimal digits of the short channel id, and asks the
lightning interface to act on the first that it finds. The handlers start where
the parameters of the request have been extracted.
-/

namespace Kld.Api

open Kld

variable {σ α : Type}

inductive ApiError where
  | unauthorized
  | notFound (message : String)
  | badRequest (message : String)
  | internalServerError (message : String)
deriving DecidableEq

def hexDigit (n : Nat) : Char := if n < 10 then Char.ofNat (48 + n) else Char.ofNat (87 + n)

def hexEncode (bytes : Bytes) : String :=
  .ofList (bytes.flatMap fun b => [hexDigit (b.toNat / 16), hexDigit (b.toNat % 16)])

def channelIdHex (c : ChannelDetails) : String := hexEncode c.channelId.bytes.toList

structure ChannelFee where
  id : String
  base : Option UInt32
  ppm : Option UInt32
deriving DecidableEq

structure SetChannelFee where
  base : UInt32
  ppm : UInt32
  peerId : String
  channelId : String
  shortChannelId : String
deriving DecidableEq

/-- The lookup that every endpoint makes: a missing short channel id counts as zero. -/
def isNamed (id : String) (c : ChannelDetails) : Bool :=
  channelIdHex c = id || toString (c.shortChannelId.getD 0).toNat = id

def internalServer (answer : Except String α × σ) : Except ApiError α × σ :=
  (answer.1.mapError .internalServerError, answer.2)

def onNamedChannel (li : LightningInterface σ) (id : String)
    (act : ChannelDetails → σ → Except String α × σ) (s : σ) : Except ApiError α × σ :=
  match (li.listActiveChannels s).find? (isNamed id) with
  | some channel => internalServer (act channel s)
  | none => (.error (.notFound id), s)

def closeChannel (li : LightningInterface σ) (id : String) (s : σ) : Except ApiError Unit × σ :=
  onNamedChannel li id (fun c => li.closeChannel c.channelId c.counterparty.nodeId none) s

def closeChannelWithFee (li : LightningInterface σ) (id : String) (feeRate : UInt32) (s : σ) :
    Except ApiError Unit × σ :=
  onNamedChannel li id (fun c => li.closeChannel c.channelId c.counterparty.nodeId (some feeRate)) s

def forceCloseChannelWithBroadcast (li : LightningInterface σ) (id : String) (s : σ) :
    Except ApiError Unit × σ :=
  onNamedChannel li id (fun c => li.forceCloseChannel c.channelId c.counterparty.nodeId true) s

def forceCloseChannelWithoutBroadcast (li : LightningInterface σ) (id : String) (s : σ) :
    Except ApiError Unit × σ :=
  onNamedChannel li id (fun c => li.forceCloseChannel c.channelId c.counterparty.nodeId false) s

def updatedChannel (fees : UInt32 × UInt32) (c : ChannelDetails) : SetChannelFee :=
  { base := fees.1, ppm := fees.2
    peerId := hexEncode c.counterparty.nodeId.bytes.toList
    channelId := channelIdHex c
    shortChannelId := c.shortChannelId.elim "" fun scid => toString scid.toNat }

def addToPeer (c : ChannelDetails) :
    List (PublicKey × List ChannelDetails) → List (PublicKey × List ChannelDetails)
  | [] => [(c.counterparty.nodeId, [c])]
  | (nodeId, channels) :: rest =>
    if nodeId = c.counterparty.nodeId then (nodeId, channels ++ [c]) :: rest
    else (nodeId, channels) :: addToPeer c rest

def peerChannels (channels : List ChannelDetails) : List (PublicKey × List ChannelDetails) :=
  channels.foldl (fun groups c => addToPeer c groups) []

def setPeerFees (li : LightningInterface σ) (fee : ChannelFee) :
    List (PublicKey × List ChannelDetails) → σ → Except ApiError (List SetChannelFee) × σ
  | [], s => (.ok [], s)
  | (nodeId, channels) :: rest, s =>
    let answer :=
      internalServer (li.setChannelFee nodeId (channels.map (·.channelId)) fee.ppm fee.base s)
    match answer.1 with
    | .error e => (.error e, answer.2)
    | .ok fees =>
      let others := setPeerFees li fee rest answer.2
      (others.1.map fun updated => channels.map (updatedChannel fees) ++ updated, others.2)

def setNamedFee (li : LightningInterface σ) (fee : ChannelFee) (c : ChannelDetails) (s : σ) :
    Except String (List SetChannelFee) × σ :=
  let answer := li.setChannelFee c.counterparty.nodeId [c.channelId] fee.ppm fee.base s
  (answer.1.map fun fees => [updatedChannel fees c], answer.2)

/-- `order` arranges the groups as the iteration over the hash map does. -/
def setChannelFee (li : LightningInterface σ)
    (order : List (PublicKey × List ChannelDetails) → List (PublicKey × List ChannelDetails))
    (fee : ChannelFee) (s : σ) : Except ApiError (List SetChannelFee) × σ :=
  if fee.id = "all" then setPeerFees li fee (order (peerChannels (li.listActiveChannels s))) s
  else onNamedChannel li fee.id (setNamedFee li fee) s

inductive InterfaceCall where
  | closeChannel (channelId : ChannelId) (counterparty : PublicKey) (feeRate : Option UInt32)
  | forceCloseChannel (channelId : ChannelId) (counterparty : PublicKey) (withBroadcast : Bool)
  | setChannelFee (counterparty : PublicKey) (channelIds : List ChannelId)
      (ppm base : Option UInt32)
deriving DecidableEq

def InterfaceCall.channelIds : InterfaceCall → List ChannelId
  | .closeChannel channelId _ _ => [channelId]
  | .forceCloseChannel channelId _ _ => [channelId]
  | .setChannelFee _ channelIds _ _ => channelIds

/-- The interface `li` with a record of the calls made to it. -/
def recorded (li : LightningInterface σ) : LightningInterface (σ × List InterfaceCall) where
  listActiveChannels s := li.listActiveChannels s.1
  closeChannel channelId peer feeRate s :=
    let answer := li.closeChannel channelId peer feeRate s.1
    (answer.1, answer.2, s.2 ++ [.closeChannel channelId peer feeRate])
  forceCloseChannel channelId peer withBroadcast s :=
    let answer := li.forceCloseChannel channelId peer withBroadcast s.1
    (answer.1, answer.2, s.2 ++ [.forceCloseChannel channelId peer withBroadcast])
  setChannelFee peer channelIds ppm base s :=
    let answer := li.setChannelFee peer channelIds ppm base s.1
    (answer.1, answer.2, s.2 ++ [.setChannelFee peer channelIds ppm base])

inductive Endpoint where
  | closeChannel
  | closeChannelWithFee (feeRate : UInt32)
  | forceCloseChannelWithBroadcast
  | forceCloseChannelWithoutBroadcast
  | setChannelFee (base ppm : Option UInt32)
deriving DecidableEq

def serve (li : LightningInterface σ)
    (order : List (PublicKey × List ChannelDetails) → List (PublicKey × List ChannelDetails))
    (endpoint : Endpoint) (id : String) (s : σ) : Except ApiError Unit × σ × List InterfaceCall :=
  match endpoint with
  | .closeChannel => closeChannel (recorded li) id (s, [])
  | .closeChannelWithFee feeRate => closeChannelWithFee (recorded li) id feeRate (s, [])
  | .forceCloseChannelWithBroadcast => forceCloseChannelWithBroadcast (recorded li) id (s, [])
  | .forceCloseChannelWithoutBroadcast => forceCloseChannelWithoutBroadcast (recorded li) id (s, [])
  | .setChannelFee base ppm =>
    let answer := setChannelFee (recorded li) order ⟨id, base, ppm⟩ (s, [])
    (answer.1.map fun _ => (), answer.2)

def Endpoint.Single (id : String) : Endpoint → Prop
  | .setChannelFee _ _ => id ≠ "all"
  | _ => True

def Names (id : String) (c : ChannelDetails) : Prop :=
  id = channelIdHex c ∨ ∃ scid, c.shortChannelId = some scid ∧ id = toString scid.toNat

/-- Every call is for a channel that the id names, and where it names none, the request is
answered as not found without a call. -/
def ActsOnNamedOnly (channels : List ChannelDetails) (id : String)
    (outcome : Except ApiError Unit × σ × List InterfaceCall) : Prop :=
  (∀ call ∈ outcome.2.2, ∀ channelId ∈ call.channelIds,
    ∃ c ∈ channels, c.channelId = channelId ∧ Names id c) ∧
  ((∀ c ∈ channels, ¬ Names id c) → outcome.1 = .error (.notFound id) ∧ outcome.2.2 = [])

theorem hexDigit_inj : ∀ {m n : Fin 16}, hexDigit m = hexDigit n → m = n := by decide

theorem hexEncode_inj {bytes bytes' : Bytes} :
    hexEncode bytes = hexEncode bytes' ↔ bytes = bytes' := by
  refine ⟨fun h => ?_, congrArg _⟩
  have hDigits := String.ofList_injective h
  clear h
  induction bytes generalizing bytes' with
  | nil =>
    cases bytes' with
    | nil => rfl
    | cons b' bytes' => cases hDigits
  | cons b bytes ih =>
    cases bytes' with
    | nil => cases hDigits
    | cons b' bytes' =>
      have hLt := b.toNat_lt
      have hLt' := b'.toNat_lt
      obtain ⟨hHigh, hDigits⟩ := List.cons.inj hDigits
      obtain ⟨hLow, hDigits⟩ := List.cons.inj hDigits
      have hHigh' := @hexDigit_inj ⟨b.toNat / 16, by omega⟩ ⟨b'.toNat / 16, by omega⟩ hHigh
      have hLow' := @hexDigit_inj ⟨b.toNat % 16, by omega⟩ ⟨b'.toNat % 16, by omega⟩ hLow
      have hByte : b = b' := by
        rw [← UInt8.toNat_inj, ← Nat.div_add_mod b.toNat 16, ← Nat.div_add_mod b'.toNat 16,
          Fin.mk.inj hHigh', Fin.mk.inj hLow']
      rw [hByte, ih hDigits]

/-- The digits of a field tell apart what the field tells apart. -/
theorem hexEncode_field_inj {τ : Type} {n : Nat} {field : τ → Vector UInt8 n}
    (hField : Function.Injective field) {a b : τ} :
    hexEncode (field a).toList = hexEncode (field b).toList ↔ a = b := by
  rw [hexEncode_inj, Vector.toList_inj, hField.eq_iff]

theorem hexEncode_length (bytes : Bytes) : (hexEncode bytes).length = 2 * bytes.length := by
  rw [hexEncode, String.length_ofList, List.length_flatMap]
  simp
  omega

theorem channelIdHex_ne_zero (c : ChannelDetails) : channelIdHex c ≠ "0" := by
  intro h
  have hLength := congrArg String.length h
  rw [channelIdHex, hexEncode_length, Vector.length_toList] at hLength
  exact absurd hLength (by decide)

theorem toString_toNat_eq_zero_iff (scid : UInt64) : toString scid.toNat = "0" ↔ scid = 0 := by
  have hRepr : Nat.repr scid.toNat = Nat.repr (0 : UInt64).toNat ↔ scid = 0 :=
    Nat.repr_inj.trans UInt64.toNat_inj
  exact hRepr

/-- The lookup finds no other channels than the id names, unless the id is zero. -/
theorem names_of_isNamed {id : String} {c : ChannelDetails} (hId : id ≠ "0")
    (h : isNamed id c = true) :
    Names id c := by
  rcases Bool.or_eq_true_iff.mp h with hHex | hScid
  · exact Or.inl (of_decide_eq_true hHex).symm
  · have hEq := of_decide_eq_true hScid
    cases hC : c.shortChannelId with
    | some scid =>
      rw [hC] at hEq
      exact Or.inr ⟨scid, hC, hEq.symm⟩
    | none =>
      rw [hC] at hEq
      exact absurd hEq.symm hId

theorem isNamed_zero (c : ChannelDetails) :
    isNamed "0" c = decide (c.shortChannelId.getD 0 = 0) := by
  rw [isNamed, decide_eq_false (channelIdHex_ne_zero c), Bool.false_or]
  exact decide_eq_decide.mpr (toString_toNat_eq_zero_iff _)

theorem names_zero_iff (c : ChannelDetails) : Names "0" c ↔ c.shortChannelId = some 0 := by
  constructor
  · rintro (hHex | ⟨scid, hScid, hZero⟩)
    · exact absurd hHex.symm (channelIdHex_ne_zero c)
    · rw [hScid, (toString_toNat_eq_zero_iff scid).mp hZero.symm]
  · intro h
    exact Or.inr ⟨0, h, rfl⟩

theorem onNamedChannel_spec (li : LightningInterface (σ × List InterfaceCall)) (id : String)
    (act : ChannelDetails → σ × List InterfaceCall → Except String α × σ × List InterfaceCall)
    (s : σ) (hAct : ∀ c, ∃ call, (act c (s, [])).2.2 = [call] ∧ call.channelIds = [c.channelId]) :
    match (li.listActiveChannels (s, [])).find? (isNamed id) with
    | some c =>
      ∃ call, (onNamedChannel li id act (s, [])).2.2 = [call] ∧ call.channelIds = [c.channelId]
    | none => onNamedChannel li id act (s, []) = (.error (.notFound id), s, []) := by
  unfold onNamedChannel
  split
  · rename_i c hFind
    exact hAct c
  · rename_i hFind
    rfl

theorem serve_spec (li : LightningInterface σ)
    (order : List (PublicKey × List ChannelDetails) → List (PublicKey × List ChannelDetails))
    (endpoint : Endpoint) (id : String) (hSingle : endpoint.Single id) (s : σ) :
    match (li.listActiveChannels s).find? (isNamed id) with
    | some c =>
      ∃ call, (serve li order endpoint id s).2.2 = [call] ∧ call.channelIds = [c.channelId]
    | none => serve li order endpoint id s = (.error (.notFound id), s, []) := by
  cases endpoint with
  | closeChannel => exact onNamedChannel_spec (recorded li) id _ s fun c => ⟨_, rfl, rfl⟩
  | closeChannelWithFee feeRate =>
    exact onNamedChannel_spec (recorded li) id _ s fun c => ⟨_, rfl, rfl⟩
  | forceCloseChannelWithBroadcast =>
    exact onNamedChannel_spec (recorded li) id _ s fun c => ⟨_, rfl, rfl⟩
  | forceCloseChannelWithoutBroadcast =>
    exact onNamedChannel_spec (recorded li) id _ s fun c => ⟨_, rfl, rfl⟩
  | setChannelFee base ppm =>
    have hSpec := onNamedChannel_spec (recorded li) id (setNamedFee (recorded li) ⟨id, base, ppm⟩) s
      fun c => ⟨_, rfl, rfl⟩
    dsimp only [serve, setChannelFee]
    rw [if_neg hSingle]
    cases hFind : (li.listActiveChannels s).find? (isNamed id) with
    | some c => simpa only [recorded, hFind] using hSpec
    | none =>
      have hNone :
          onNamedChannel (recorded li) id (setNamedFee (recorded li) ⟨id, base, ppm⟩) (s, []) =
          (.error (.notFound id), s, []) := by simpa only [recorded, hFind] using hSpec
      rw [hNone]
      rfl

/-- The endpoints act on named channels only, unless the id is zero and the first channel that
counts as zero has no short channel id. -/
theorem acts_on_named_only_iff (li : LightningInterface σ)
    (order : List (PublicKey × List ChannelDetails) → List (PublicKey × List ChannelDetails))
    (endpoint : Endpoint) (id : String) (hSingle : endpoint.Single id) (s : σ) :
    ActsOnNamedOnly (li.listActiveChannels s) id (serve li order endpoint id s) ↔
      (id = "0" → ∀ c,
        (li.listActiveChannels s).find? (fun c => c.shortChannelId.getD 0 = 0) = some c →
        ∃ d ∈ li.listActiveChannels s, d.channelId = c.channelId ∧ d.shortChannelId = some 0) := by
  have hServe := serve_spec li order endpoint id hSingle s
  have hZero : isNamed "0" = fun c => decide (c.shortChannelId.getD 0 = 0) := funext isNamed_zero
  cases hFind : (li.listActiveChannels s).find? (isNamed id) with
  | none =>
    rw [hFind] at hServe
    dsimp only at hServe
    rw [hServe]
    refine iff_of_true ⟨nofun, fun _ => ⟨rfl, rfl⟩⟩ ?_
    rintro rfl c hC
    rw [hZero, hC] at hFind
    cases hFind
  | some c =>
    rw [hFind] at hServe
    obtain ⟨call, hCalls, hIds⟩ := hServe
    have hMem := List.mem_of_find?_eq_some hFind
    have hFirst : ActsOnNamedOnly (li.listActiveChannels s) id (serve li order endpoint id s) ↔
        ∃ d ∈ li.listActiveChannels s, d.channelId = c.channelId ∧ Names id d := by
      constructor
      · intro hOnly
        exact hOnly.1 call (hCalls ▸ List.mem_singleton_self call) _
          (hIds ▸ List.mem_singleton_self _)
      · rintro ⟨d, hD, hSame, hNames⟩
        refine ⟨?_, fun hNone => absurd hNames (hNone d hD)⟩
        intro call' hCall' channelId hIn
        rw [hCalls, List.mem_singleton] at hCall'
        rw [hCall', hIds, List.mem_singleton] at hIn
        exact ⟨d, hD, hSame.trans hIn.symm, hNames⟩
    rw [hFirst]
    by_cases hId : id = "0"
    · subst hId
      rw [hZero] at hFind
      refine Iff.trans
        (exists_congr fun d => and_congr_right' (and_congr_right' (names_zero_iff d))) ?_
      constructor
      · intro hNamed _ c' hC'
        obtain rfl : c = c' := Option.some.inj (hFind.symm.trans hC')
        exact hNamed
      · intro h
        exact h rfl c hFind
    · exact iff_of_true ⟨c, hMem, rfl, names_of_isNamed hId (List.find?_some hFind)⟩
        fun hEq => absurd hEq hId

theorem zero_closes_pending_channel :
    ¬ ActsOnNamedOnly [pendingChannel] "0"
      (serve (controller listManager) (fun groups => groups) .closeChannel "0" [pendingChannel]) :=
    by
  have hServe := serve_spec (controller listManager) (fun groups => groups) .closeChannel "0"
    trivial [pendingChannel]
  have hFind : [pendingChannel].find? (isNamed "0") = some pendingChannel := by
    rw [List.find?_cons_of_pos]
    rw [isNamed_zero]
    rfl
  intro hOnly
  have hMatch : ((controller listManager).listActiveChannels [pendingChannel]).find? (isNamed "0") =
      some pendingChannel := hFind
  rw [hMatch] at hServe
  obtain ⟨call, hCalls, hIds⟩ := hServe
  obtain ⟨c, hC, _, hNames⟩ := hOnly.1 call (hCalls ▸ List.mem_singleton_self call)
    pendingChannel.channelId (hIds ▸ List.mem_singleton_self _)
  rw [List.mem_singleton.mp hC, names_zero_iff] at hNames
  cases hNames

theorem other_id_not_found :
    ActsOnNamedOnly [pendingChannel] "1"
      (serve (controller listManager) (fun groups => groups) (.setChannelFee (some 5) none) "1"
        [pendingChannel]) :=
  (acts_on_named_only_iff (controller listManager) (fun groups => groups)
    (.setChannelFee (some 5) none) "1"
    (show "1" ≠ "all" by decide) [pendingChannel]).mpr fun h => absurd h (by decide)

end Kld.Api
