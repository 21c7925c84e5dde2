import Kld.Api.Channels
import Kld.Lib.Decimal
import Kld.Wallet.BdkWallet

/-!
# Withdrawals from the on-chain wallet

The handler passes the amount on as a number, where the largest one stands for
the whole wallet, and leaves the other fields of the request where they are.
-/

namespace Kld.Api

open BdkWallet Decimal OpenChannel

structure WalletTransfer where
  address : String
  satoshis : String
  feeRate : Option FeeRate
  minConf : Option String
  utxos : List String

structure WalletTransferResponse where
  tx : String
  txid : String
deriving DecidableEq

/-- What the answer to a request depends on, besides the request. -/
structure WalletEnv (ρ : Type) where
  library : WalletLibrary ρ
  bitcoind : Bitcoind
  recorded : Recorded
  checks : Bool
  network : Network
  poisoned : Bool
  draw : ρ
  parseAddress : String → Except String Address
  serialize : SignedTx → Bytes

/-- There is no answer when the handler panics. -/
structure Withdrawal where
  answer : Option (Except ApiError WalletTransferResponse)
  broadcast : List SignedTx

def satoshisToSend (satoshis : String) : Except ParseIntError UInt64 :=
  if satoshis = "all" then .ok 18446744073709551615 else u64FromStr satoshis

section

variable {ρ : Type} (env : WalletEnv ρ)

def WalletEnv.transfer (address : Address) (amount : UInt64) (feeRate : Option FeeRate)
    (minConf : Option UInt8) (utxos : List BdkWallet.OutPoint) : Outcome :=
  BdkWallet.transfer env.library env.bitcoind env.recorded env.checks env.network env.poisoned
    env.draw address amount feeRate minConf utxos

def transferResponse (tx : SignedTx) : WalletTransferResponse where
  tx := hexEncode (env.serialize tx)
  txid := hexEncode (env.library.txid tx.unsigned).bytes.toList.reverse

def Withdrawal.of (outcome : Outcome) : Withdrawal where
  answer := match outcome.answer with
    | .ok tx => some (.ok (transferResponse env tx))
    | .error (.error message) => some (.error (.internalServerError message))
    | .error .panicked => none
  broadcast := outcome.broadcast

def transfer (request : WalletTransfer) : Withdrawal :=
  match env.parseAddress request.address with
  | .error message => ⟨some (.error (.badRequest message)), []⟩
  | .ok address =>
    match satoshisToSend request.satoshis with
    | .error e => ⟨some (.error (.badRequest e.message)), []⟩
    | .ok amount => .of env (env.transfer address amount request.feeRate none [])

/-- A request for `amount` gets as far as a transaction, which is built by `builder`. -/
structure Sends (address : Address) (amount : UInt64) (feeRate : Option FeeRate)
    (builder : TxBuilder) (tx : SignedTx) : Prop where
  ready : ∃ height, Ready env.bitcoind env.network env.poisoned address height ∧
    transferBuilder env.library env.bitcoind env.recorded env.checks height address.scriptPubkey
      amount feeRate none [] = .ok builder
  built : finishAndSign env.library env.recorded env.draw builder = .ok tx

end

/-- A request that gets as far as a transaction, to an address and by a builder. -/
def Withdraws {ρ : Type} (env : WalletEnv ρ) (request : WalletTransfer) (address : Address)
    (builder : TxBuilder) (tx : SignedTx) : Prop :=
  env.parseAddress request.address = .ok address ∧ ∃ amount,
    satoshisToSend request.satoshis = .ok amount ∧
      Sends env address amount request.feeRate builder tx

def DrainsTo (script : Bytes) (builder : TxBuilder) : Prop :=
  builder.drainWallet = true ∧ builder.drainTo = some script ∧ builder.recipients = []

structure PaysAsAsked {ρ : Type} (env : WalletEnv ρ) (request : WalletTransfer) : Prop where
  allOrNothing : ((transfer env request).broadcast = [] ∧
      ∀ response, (transfer env request).answer ≠ some (.ok response)) ∨
    ∃ address builder tx, Withdraws env request address builder tx ∧
      (transfer env request).broadcast = [tx] ∧
      (transfer env request).answer = some (.ok (transferResponse env tx))
  drains : ∀ address builder tx, Withdraws env request address builder tx →
    (DrainsTo address.scriptPubkey builder ↔ request.satoshis = "all")
  pays : ∀ address builder tx, Withdraws env request address builder tx →
    request.satoshis ≠ "all" → ∃ amount, u64FromStr request.satoshis = .ok amount ∧
      ⟨amount, address.scriptPubkey⟩ ∈ tx.unsigned.outputs

/-- Nothing stands in the way of sending the whole wallet to the address of the request. -/
def CanDrain {ρ : Type} (env : WalletEnv ρ) (request : WalletTransfer) : Prop :=
  ∃ address builder tx, env.parseAddress request.address = .ok address ∧
    Sends env address 18446744073709551615 request.feeRate builder tx

variable {ρ : Type} {env : WalletEnv ρ} {request : WalletTransfer} {address : Address}
  {amount : UInt64} {feeRate : Option FeeRate} {builder : TxBuilder} {tx : SignedTx}

theorem mem_broadcast_iff :
    tx ∈ (transfer env request).broadcast ↔
      ∃ address builder, Withdraws env request address builder tx := by
  unfold transfer
  split
  · rename_i message hAddress
    exact iff_of_false List.not_mem_nil fun ⟨_, _, h, _⟩ => nomatch hAddress.symm.trans h
  · rename_i address hAddress
    split
    · rename_i e hAmount
      exact iff_of_false List.not_mem_nil fun ⟨_, _, _, _, h, _⟩ => nomatch hAmount.symm.trans h
    · rename_i amount hAmount
      refine mem_broadcast_transfer_iff.trans ?_
      constructor
      · rintro ⟨height, hReady, hBuild⟩
        obtain ⟨builder, hBuilder, hFinish⟩ := buildTransfer_eq_ok_iff.mp hBuild
        exact ⟨address, builder, hAddress, amount, hAmount, ⟨height, hReady, hBuilder⟩, hFinish⟩
      · rintro ⟨address', builder, hAddress', amount', hAmount', ⟨height, hReady, hBuilder⟩,
          hFinish⟩
        obtain rfl : address = address' := Except.ok.inj (hAddress.symm.trans hAddress')
        obtain rfl : amount = amount' := Except.ok.inj (hAmount.symm.trans hAmount')
        exact ⟨height, hReady, buildTransfer_eq_ok_iff.mpr ⟨builder, hBuilder, hFinish⟩⟩

theorem transferBuilder_eq {height : UInt32} {script : Bytes} :
    transferBuilder env.library env.bitcoind env.recorded env.checks height script amount feeRate
        none [] =
      .ok (if amount = 18446744073709551615 then
        ⟨[], true, some script, [], some height, feeRate.map (toBdkFeeRate env.bitcoind), false⟩
      else ⟨[⟨amount, script⟩], true, none, [], some height,
        feeRate.map (toBdkFeeRate env.bitcoind), false⟩) := by
  by_cases hAmount : amount = 18446744073709551615
  · rw [transferBuilder, payTo, if_pos hAmount, if_pos hAmount]
    rfl
  · rw [transferBuilder, payTo, if_neg hAmount, if_neg hAmount, TxBuilder.addUtxos,
      if_pos nofun]
    rfl

theorem Sends.builder_eq (h : Sends env address amount feeRate builder tx) :
    ∃ height, builder = if amount = 18446744073709551615 then
        ⟨[], true, some address.scriptPubkey, [], some height,
          feeRate.map (toBdkFeeRate env.bitcoind), false⟩
      else ⟨[⟨amount, address.scriptPubkey⟩], true, none, [], some height,
        feeRate.map (toBdkFeeRate env.bitcoind), false⟩ := by
  obtain ⟨height, _, hBuilder⟩ := h.ready
  exact ⟨height, (Except.ok.inj (transferBuilder_eq.symm.trans hBuilder)).symm⟩

theorem Sends.drainsTo_iff (h : Sends env address amount feeRate builder tx) :
    DrainsTo address.scriptPubkey builder ↔ amount = 18446744073709551615 := by
  obtain ⟨height, rfl⟩ := h.builder_eq
  split
  · rename_i hAmount
    exact iff_of_true ⟨rfl, rfl, rfl⟩ hAmount
  · rename_i hAmount
    exact iff_of_false (fun hDrains => nomatch hDrains.2.1) hAmount

theorem Sends.drainWallet (h : Sends env address amount feeRate builder tx) :
    builder.drainWallet = true := by
  obtain ⟨height, rfl⟩ := h.builder_eq
  split <;> rfl

theorem Sends.paid (hPays : PaysRecipients env.library)
    (h : Sends env address amount feeRate builder tx) (hAmount : amount ≠ 18446744073709551615) :
    ⟨amount, address.scriptPubkey⟩ ∈ tx.unsigned.outputs := by
  obtain ⟨height, hBuilder⟩ := h.builder_eq
  rw [if_neg hAmount] at hBuilder
  have hFinish := (finishAndSign_eq_ok_iff.mp h.built).1
  exact hPays _ _ _ _ hFinish _ (hBuilder ▸ List.mem_cons_self)

theorem all_or_nothing (env : WalletEnv ρ) (request : WalletTransfer) :
    ((transfer env request).broadcast = [] ∧
      ∀ response, (transfer env request).answer ≠ some (.ok response)) ∨
    ∃ tx, (transfer env request).broadcast = [tx] ∧
      (transfer env request).answer = some (.ok (transferResponse env tx)) := by
  unfold transfer
  split
  · exact Or.inl ⟨rfl, nofun⟩
  · rename_i address _
    split
    · exact Or.inl ⟨rfl, nofun⟩
    · rename_i amount _
      obtain ⟨answer, hOutcome⟩ : ∃ answer,
          env.transfer address amount request.feeRate none [] = .of answer := ⟨_, rfl⟩
      rw [hOutcome]
      cases answer with
      | ok tx => exact Or.inr ⟨tx, rfl, rfl⟩
      | error failure => cases failure <;> exact Or.inl ⟨rfl, nofun⟩

theorem satoshisToSend_eq_max_iff {satoshis : String} :
    satoshisToSend satoshis = .ok 18446744073709551615 ↔
      satoshis = "all" ∨ u64FromStr satoshis = .ok 18446744073709551615 := by
  unfold satoshisToSend
  split
  · rename_i hAll
    exact iff_of_true rfl (Or.inl hAll)
  · rename_i hAll
    exact (or_iff_right hAll).symm

/-- A wallet of one coin, on a node that is up to date. -/
def oneCoinEnv : WalletEnv Unit where
  library := everyCoin
  bitcoind := ⟨true, some 705, fun _ => 1000⟩
  recorded := oneCoin
  checks := true
  network := .bitcoin
  poisoned := false
  draw := ()
  parseAddress _ := .ok ⟨[.bitcoin], [2]⟩
  serialize tx := [.ofNat tx.witnesses.length]

theorem u64FromStr_all : u64FromStr "all" = .error .invalidDigit := by decide

theorem pays_as_asked_iff (hPays : PaysRecipients env.library) (request : WalletTransfer) :
    PaysAsAsked env request ↔
      ¬ (u64FromStr request.satoshis = .ok 18446744073709551615 ∧ CanDrain env request) := by
  constructor
  · rintro hAsked ⟨hMax, address, builder, tx, hAddress, hSends⟩
    have hSpelled := satoshisToSend_eq_max_iff.mpr (Or.inr hMax)
    have hAll := (hAsked.drains address builder tx ⟨hAddress, _, hSpelled, hSends⟩).mp
      (hSends.drainsTo_iff.mpr rfl)
    rw [hAll, u64FromStr_all] at hMax
    exact nomatch hMax
  · intro hNot
    have hOnly : ∀ {address amount builder tx}, env.parseAddress request.address = .ok address →
        satoshisToSend request.satoshis = .ok amount →
        Sends env address amount request.feeRate builder tx →
        (amount = 18446744073709551615 ↔ request.satoshis = "all") := by
      intro address amount builder tx hAddress hAmount hSends
      constructor
      · rintro rfl
        refine (satoshisToSend_eq_max_iff.mp hAmount).resolve_right fun hMax => hNot ?_
        exact ⟨hMax, address, builder, tx, hAddress, hSends⟩
      · intro hAll
        rw [satoshisToSend, if_pos hAll] at hAmount
        exact (Except.ok.inj hAmount).symm
    refine ⟨?_, ?_, ?_⟩
    · refine (all_or_nothing env request).imp_right ?_
      rintro ⟨tx, hBroadcast, hAnswer⟩
      have hTx : tx ∈ (transfer env request).broadcast := hBroadcast ▸ List.mem_singleton_self tx
      obtain ⟨address, builder, hWithdraws⟩ := mem_broadcast_iff.mp hTx
      exact ⟨address, builder, tx, hWithdraws, hBroadcast, hAnswer⟩
    · rintro address builder tx ⟨hAddress, amount, hAmount, hSends⟩
      exact hSends.drainsTo_iff.trans (hOnly hAddress hAmount hSends)
    · rintro address builder tx ⟨hAddress, amount, hAmount, hSends⟩ hAll
      refine ⟨amount, ?_, hSends.paid hPays fun hMax => ?_⟩
      · rwa [satoshisToSend, if_neg hAll] at hAmount
      · exact hAll ((hOnly hAddress hAmount hSends).mp hMax)

def transferOf (satoshis : String) : WalletTransfer :=
  ⟨"bc1qexample", satoshis, none, none, []⟩

theorem largest_amount_drains_wallet :
    ¬ PaysAsAsked oneCoinEnv (transferOf "18446744073709551615") := by
  intro hAsked
  have hSends : Sends oneCoinEnv ⟨[.bitcoin], [2]⟩ 18446744073709551615 none
      ⟨[], true, some [2], [], some 705, none, false⟩
      ⟨⟨oneCoin.unspent, [⟨99800, [2]⟩]⟩, [[[1]]]⟩ :=
    ⟨⟨705, ⟨rfl, rfl, by decide, rfl⟩, rfl⟩, rfl⟩
  have hSpelled : satoshisToSend "18446744073709551615" = .ok 18446744073709551615 := by decide
  have hAll := (hAsked.drains _ _ _ ⟨rfl, _, hSpelled, hSends⟩).mp ⟨rfl, rfl, rfl⟩
  exact absurd hAll (by decide)

theorem sixty_thousand_paid_as_asked : PaysAsAsked oneCoinEnv (transferOf "60000") :=
  (pays_as_asked_iff everyCoin_paysRecipients (transferOf "60000")).mpr
    fun h => absurd h.1 (by decide)

section CoinControl

/-- The number of confirmations of an output at a height of the chain. -/
def confirmations (recorded : Recorded) (height : UInt32) (outpoint : BdkWallet.OutPoint) : Nat :=
  (recorded.confirmedAt outpoint.txid).elim 0 fun confirmed => height.toNat + 1 - confirmed.toNat

/-- Every one of these outputs is in the list of the request, if that is not empty, and has the
confirmations that it asks for. -/
structure Allowed {ρ : Type} (parseOutPoint : String → Option BdkWallet.OutPoint)
    (env : WalletEnv ρ) (request : WalletTransfer) (outpoints : List BdkWallet.OutPoint) :
    Prop where
  listed : request.utxos ≠ [] → ∀ outpoint ∈ outpoints, ∃ text ∈ request.utxos,
    parseOutPoint text = some outpoint
  confirmed : ∀ text, request.minConf = some text → ∃ n, fromStr UInt8.size text = .ok n ∧
    ∃ height, env.bitcoind.bestHeight = some height ∧
      ∀ outpoint ∈ outpoints, n ≤ confirmations env.recorded height outpoint

def HonoursCoins (parseOutPoint : String → Option BdkWallet.OutPoint) (env : WalletEnv ρ)
    (request : WalletTransfer) : Prop :=
  ∀ tx ∈ (transfer env request).broadcast, Allowed parseOutPoint env request tx.unsigned.inputs

/-- The height is lowered by exactly the confirmations asked for. -/
def HeightExact (checks : Bool) (height : UInt32) (minConf : UInt8) : Prop :=
  ∃ below, heightBelow checks height (some minConf) = some below ∧
    below.toNat + minConf.toNat = height.toNat

/-- The request gets as far as a transaction. -/
def CanWithdraw (env : WalletEnv ρ) (request : WalletTransfer) : Prop :=
  ∃ address builder tx, Withdraws env request address builder tx

variable {parseOutPoint : String → Option BdkWallet.OutPoint}

theorem Allowed.mono {outpoints outpoints' : List BdkWallet.OutPoint}
    (h : Allowed parseOutPoint env request outpoints) (hSub : outpoints' ⊆ outpoints) :
    Allowed parseOutPoint env request outpoints' := by
  refine ⟨fun hUtxos outpoint hOut => h.listed hUtxos outpoint (hSub hOut), ?_⟩
  intro text hText
  obtain ⟨n, hParse, height, hHeight, hConfirmed⟩ := h.confirmed text hText
  exact ⟨n, hParse, height, hHeight, fun outpoint hOut => hConfirmed outpoint (hSub hOut)⟩

theorem heightExact_iff {checks : Bool} {height : UInt32} {minConf : UInt8} :
    HeightExact checks height minConf ↔ minConf.toNat ≤ height.toNat := by
  rw [← UInt8.toNat_toUInt32 minConf]
  exact Machine.subU32_toNat_iff checks height minConf.toUInt32

/-- Every unspent output becomes an input, whatever the request says about coins. -/
theorem honoursCoins_iff (hSelects : SelectsUnspent env.library)
    (hDrains : DrainsWallet env.library) :
    HonoursCoins parseOutPoint env request ↔
      (CanWithdraw env request → Allowed parseOutPoint env request env.recorded.unspent) := by
  constructor
  · rintro hHonours ⟨address, builder, tx, hWithdraws⟩
    refine (hHonours tx (mem_broadcast_iff.mpr ⟨address, builder, hWithdraws⟩)).mono ?_
    obtain ⟨_, amount, _, hSends⟩ := hWithdraws
    have hFinish := (finishAndSign_eq_ok_iff.mp hSends.built).1
    exact hDrains _ _ _ _ hFinish hSends.drainWallet
  · intro hAllowed tx hTx
    obtain ⟨address, builder, hWithdraws⟩ := mem_broadcast_iff.mp hTx
    refine (hAllowed ⟨address, builder, tx, hWithdraws⟩).mono ?_
    obtain ⟨_, amount, _, hSends⟩ := hWithdraws
    exact hSelects.finishAndSign hSends.built

theorem coin_control_iff (hSelects : SelectsUnspent env.library)
    (hDrains : DrainsWallet env.library)
    (parseOutPoint : String → Option BdkWallet.OutPoint) (request : WalletTransfer)
    (height : UInt32) (minConf : UInt8) :
    HonoursCoins parseOutPoint env request ∧ HeightExact env.checks height minConf ↔
      (CanWithdraw env request → Allowed parseOutPoint env request env.recorded.unspent) ∧
        minConf.toNat ≤ height.toNat :=
  and_congr (honoursCoins_iff hSelects hDrains) heightExact_iff

def coinListed (text : String) : Option BdkWallet.OutPoint :=
  if text = "07:0" then some ⟨⟨Vector.replicate 32 7⟩, 0⟩ else none

/-- The one coin of the wallet is spent although another was asked for. -/
theorem unlisted_coin_spent :
    ¬ (HonoursCoins coinListed oneCoinEnv { transferOf "60000" with utxos := ["08:0"] } ∧
      HeightExact oneCoinEnv.checks 705 6) := by
  rintro ⟨hHonours, _⟩
  have hAllowed := hHonours _ List.mem_cons_self
  obtain ⟨text, hText, hParse⟩ :=
    hAllowed.listed (by decide) ⟨⟨Vector.replicate 32 7⟩, 0⟩ List.mem_cons_self
  obtain rfl := List.mem_singleton.mp hText
  exact absurd hParse (by decide)

theorem coin_control_iff_one_coin :
    HonoursCoins coinListed oneCoinEnv { transferOf "60000" with utxos := ["07:0"] } ∧
        HeightExact oneCoinEnv.checks 705 6 ↔
      (CanWithdraw oneCoinEnv { transferOf "60000" with utxos := ["07:0"] } →
        Allowed coinListed oneCoinEnv { transferOf "60000" with utxos := ["07:0"] }
          oneCoinEnv.recorded.unspent) ∧ (6 : UInt8).toNat ≤ (705 : UInt32).toNat :=
  coin_control_iff everyCoin_selectsUnspent everyCoin_drainsWallet coinListed _ 705 6

end CoinControl

end Kld.Api
