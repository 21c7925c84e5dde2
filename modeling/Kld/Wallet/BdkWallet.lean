import Kld.Database.WalletUtxos
import Kld.Ldk.OpenChannel

/-!
# Transactions of the on-chain wallet

A transfer and the funding of a channel each script a transaction builder of the
wallet library. The library selects the inputs from the outputs that the last
synchronisation recorded; what it draws at random is an argument.
-/

namespace Kld.BdkWallet

open WalletUtxos OpenChannel

abbrev OutPoint := WalletUtxos.OutPoint

inductive Network where
  | bitcoin
  | testnet
  | signet
  | regtest
deriving DecidableEq

/-- An address that has been parsed, with the networks on which it is valid. -/
structure Address where
  networks : List Network
  scriptPubkey : Bytes
deriving DecidableEq

inductive ConfirmationTarget where
  | onChainSweep
  | nonAnchorChannelFee
  | channelCloseMinimum
deriving DecidableEq

inductive BdkFeeRate where
  | satPerKwu (rate : UInt32)
  | satPerKvb (rate : UInt32)
deriving DecidableEq

structure TxBuilder where
  recipients : List TxOut
  drainWallet : Bool
  drainTo : Option Bytes
  utxos : List OutPoint
  currentHeight : Option UInt32
  feeRate : Option BdkFeeRate
  rbf : Bool
deriving DecidableEq

structure Tx where
  inputs : List OutPoint
  outputs : List TxOut
deriving DecidableEq

structure SignedTx where
  unsigned : Tx
  witnesses : List (List Bytes)
deriving DecidableEq

/-- What a synchronisation leaves in the database of the wallet. -/
structure Recorded where
  utxos : List LocalUtxo
  confirmedAt : Txid → Option UInt32
  height : UInt32

def Recorded.unspent (recorded : Recorded) : List OutPoint :=
  (recorded.utxos.filter fun utxo => !utxo.isSpent).map (·.outpoint)

structure WalletLibrary (ρ : Type) where
  finish : ρ → TxBuilder → Recorded → Except String Tx
  sign : Tx → Except String (List (List Bytes))
  txid : Tx → Txid
  unknownUtxo : String
  invalidNetwork : String

structure Bitcoind where
  synchronised : Bool
  bestHeight : Option UInt32
  satPer1000Weight : ConfirmationTarget → UInt32

inductive Failure where
  | error (message : String)
  | panicked
deriving DecidableEq

namespace TxBuilder

def buildTx : TxBuilder := ⟨[], false, none, [], none, none, false⟩

def addRecipient (script : Bytes) (amount : UInt64) (b : TxBuilder) : TxBuilder :=
  { b with recipients := b.recipients ++ [⟨amount, script⟩] }

def drain (b : TxBuilder) : TxBuilder := { b with drainWallet := true }

def drainInto (script : Bytes) (b : TxBuilder) : TxBuilder := { b with drainTo := some script }

def addUtxos (unknownUtxo : String) (recorded : Recorded) (utxos : List OutPoint)
    (b : TxBuilder) : Except Failure TxBuilder :=
  if ∀ outpoint ∈ utxos, outpoint ∈ recorded.utxos.map (·.outpoint) then
    .ok { b with utxos := b.utxos ++ utxos }
  else .error (.error unknownUtxo)

end TxBuilder

section

variable {ρ : Type} (library : WalletLibrary ρ) (bitcoind : Bitcoind) (recorded : Recorded)

def toBdkFeeRate : FeeRate → BdkFeeRate
  | .urgent => .satPerKwu (bitcoind.satPer1000Weight .onChainSweep)
  | .normal => .satPerKwu (bitcoind.satPer1000Weight .nonAnchorChannelFee)
  | .slow => .satPerKwu (bitcoind.satPer1000Weight .channelCloseMinimum)
  | .perKw rate => .satPerKwu rate
  | .perKb rate => .satPerKvb rate

/-- The part of a build that both producers share: `finish`, `sign` and `extract_tx`. -/
def finishAndSign (draw : ρ) (builder : TxBuilder) : Except Failure SignedTx :=
  match library.finish draw builder recorded with
  | .error message => .error (.error message)
  | .ok tx =>
    match library.sign tx with
    | .error message => .error (.error message)
    | .ok witnesses => .ok ⟨tx, witnesses⟩

def payTo (script : Bytes) (amount : UInt64) (utxos : List OutPoint) : Except Failure TxBuilder :=
  if amount = 18446744073709551615 then .ok (TxBuilder.buildTx.drain.drainInto script)
  else (TxBuilder.buildTx.addRecipient script amount).drain.addUtxos library.unknownUtxo recorded
    utxos

/-- `height - min_conf`, in a build with or without overflow checks. -/
def heightBelow (checks : Bool) (height : UInt32) : Option UInt8 → Option UInt32
  | none => some height
  | some minConf => Machine.subU32 checks height minConf.toUInt32

def transferBuilder (checks : Bool) (height : UInt32) (script : Bytes) (amount : UInt64)
    (feeRate : Option FeeRate) (minConf : Option UInt8) (utxos : List OutPoint) :
    Except Failure TxBuilder :=
  match payTo library recorded script amount utxos with
  | .error failure => .error failure
  | .ok builder =>
    match heightBelow checks height minConf with
    | none => .error .panicked
    | some currentHeight => .ok { builder with
        currentHeight := some currentHeight
        feeRate := feeRate.map (toBdkFeeRate bitcoind) }

/-- The locked part of a transfer. -/
def buildTransfer (checks : Bool) (draw : ρ) (height : UInt32) (script : Bytes) (amount : UInt64)
    (feeRate : Option FeeRate) (minConf : Option UInt8) (utxos : List OutPoint) :
    Except Failure SignedTx :=
  match transferBuilder library bitcoind recorded checks height script amount feeRate minConf
    utxos with
  | .error failure => .error failure
  | .ok builder => finishAndSign library recorded draw builder

/-- The answer is a transaction exactly if that transaction has been broadcast. -/
structure Outcome where
  answer : Except Failure SignedTx
  broadcast : List SignedTx

def Outcome.of (answer : Except Failure SignedTx) : Outcome :=
  ⟨answer, match answer with
    | .error _ => []
    | .ok tx => [tx]⟩

def transfer (checks : Bool) (network : Network) (poisoned : Bool) (draw : ρ) (address : Address)
    (amount : UInt64) (feeRate : Option FeeRate) (minConf : Option UInt8)
    (utxos : List OutPoint) : Outcome :=
  .of <|
    if !bitcoind.synchronised then .error (.error "Bitcoind is synchronising the blockchain")
    else match bitcoind.bestHeight with
    | none => .error (.error "Failed to fetch best block")
    | some height =>
      if network ∉ address.networks then .error (.error library.invalidNetwork)
      else if poisoned then .error (.error "Wallet is still syncing with chain")
      else buildTransfer library bitcoind recorded checks draw height address.scriptPubkey amount
        feeRate minConf utxos

def fundTxBuilder (outputScript : Bytes) (channelValueSatoshis : UInt64) (feeRate : FeeRate) :
    TxBuilder :=
  { TxBuilder.buildTx.addRecipient outputScript channelValueSatoshis with
    feeRate := some (toBdkFeeRate bitcoind feeRate), rbf := true }

/-- A poisoned lock is unwrapped here. -/
def fundTx (poisoned : Bool) (draw : ρ) (outputScript : Bytes) (channelValueSatoshis : UInt64)
    (feeRate : FeeRate) : Except Failure SignedTx :=
  if poisoned then .error .panicked
  else finishAndSign library recorded draw
    (fundTxBuilder bitcoind outputScript channelValueSatoshis feeRate)

end

section Library

variable {ρ : Type} {library : WalletLibrary ρ} {bitcoind : Bitcoind} {recorded : Recorded}
  {draw : ρ} {tx : SignedTx}

/-- The inputs of a built transaction are recorded as unspent. -/
def SelectsUnspent (library : WalletLibrary ρ) : Prop :=
  ∀ draw builder recorded tx, library.finish draw builder recorded = .ok tx →
    ∀ outpoint ∈ tx.inputs, outpoint ∈ recorded.unspent

/-- The recipients are paid what the builder says. -/
def PaysRecipients (library : WalletLibrary ρ) : Prop :=
  ∀ draw builder recorded tx, library.finish draw builder recorded = .ok tx →
    ∀ output ∈ builder.recipients, output ∈ tx.outputs

/-- A drained wallet spends every unspent output. -/
def DrainsWallet (library : WalletLibrary ρ) : Prop :=
  ∀ draw builder recorded tx, library.finish draw builder recorded = .ok tx →
    builder.drainWallet = true → ∀ outpoint ∈ recorded.unspent, outpoint ∈ tx.inputs

theorem finishAndSign_eq_ok_iff {builder : TxBuilder} :
    finishAndSign library recorded draw builder = .ok tx ↔
      library.finish draw builder recorded = .ok tx.unsigned ∧
        library.sign tx.unsigned = .ok tx.witnesses := by
  unfold finishAndSign
  split
  · rename_i message hFinish
    exact iff_of_false nofun fun h => nomatch hFinish.symm.trans h.1
  · rename_i unsigned hFinish
    rw [hFinish, Except.ok.injEq]
    split
    · rename_i message hSign
      refine iff_of_false nofun ?_
      rintro ⟨rfl, h⟩
      exact nomatch hSign.symm.trans h
    · rename_i witnesses hSign
      constructor
      · intro h
        cases h
        exact ⟨rfl, hSign⟩
      · rintro ⟨rfl, h⟩
        rw [hSign, Except.ok.injEq] at h
        rw [h]

theorem fundTx_eq_ok_iff {poisoned : Bool} {outputScript : Bytes} {channelValueSatoshis : UInt64}
    {feeRate : FeeRate} :
    fundTx library bitcoind recorded poisoned draw outputScript channelValueSatoshis feeRate =
        .ok tx ↔
      poisoned = false ∧ finishAndSign library recorded draw
        (fundTxBuilder bitcoind outputScript channelValueSatoshis feeRate) = .ok tx := by
  unfold fundTx
  cases poisoned with
  | true => exact iff_of_false nofun fun h => nomatch h.1
  | false => exact (and_iff_right rfl).symm

theorem buildTransfer_eq_ok_iff {checks : Bool} {height : UInt32} {script : Bytes}
    {amount : UInt64} {feeRate : Option FeeRate} {minConf : Option UInt8} {utxos : List OutPoint} :
    buildTransfer library bitcoind recorded checks draw height script amount feeRate minConf
        utxos = .ok tx ↔
      ∃ builder, transferBuilder library bitcoind recorded checks height script amount feeRate
        minConf utxos = .ok builder ∧ finishAndSign library recorded draw builder = .ok tx := by
  unfold buildTransfer
  split
  · rename_i failure hBuilder
    exact iff_of_false nofun fun ⟨_, h, _⟩ => nomatch hBuilder.symm.trans h
  · rename_i builder hBuilder
    constructor
    · exact fun h => ⟨builder, hBuilder, h⟩
    · rintro ⟨builder', h, hFinish⟩
      obtain rfl : builder = builder' := Except.ok.inj (hBuilder.symm.trans h)
      exact hFinish

/-- The state in which a transfer gets as far as building its transaction. -/
structure Ready (bitcoind : Bitcoind) (network : Network) (poisoned : Bool) (address : Address)
    (height : UInt32) : Prop where
  synchronised : bitcoind.synchronised = true
  bestHeight : bitcoind.bestHeight = some height
  onNetwork : network ∈ address.networks
  unlocked : poisoned = false

theorem mem_broadcast_of {answer : Except Failure SignedTx} :
    tx ∈ (Outcome.of answer).broadcast ↔ answer = .ok tx := by
  cases answer with
  | error failure => exact iff_of_false List.not_mem_nil nofun
  | ok tx' =>
    rw [Except.ok.injEq]
    exact List.mem_singleton.trans eq_comm

theorem mem_broadcast_transfer_iff {checks : Bool} {network : Network} {poisoned : Bool}
    {address : Address} {amount : UInt64} {feeRate : Option FeeRate} {minConf : Option UInt8}
    {utxos : List OutPoint} :
    tx ∈ (transfer library bitcoind recorded checks network poisoned draw address amount feeRate
      minConf utxos).broadcast ↔
    ∃ height, Ready bitcoind network poisoned address height ∧
      buildTransfer library bitcoind recorded checks draw height address.scriptPubkey amount
        feeRate minConf utxos = .ok tx := by
  rw [transfer, mem_broadcast_of]
  split
  · rename_i hSync
    refine iff_of_false nofun ?_
    rintro ⟨height, hReady, _⟩
    rw [hReady.synchronised] at hSync
    exact nomatch hSync
  · rename_i hSync
    split
    · rename_i hHeight
      refine iff_of_false nofun ?_
      rintro ⟨height, hReady, _⟩
      exact nomatch hHeight.symm.trans hReady.bestHeight
    · rename_i height hHeight
      split
      · rename_i hNetwork
        refine iff_of_false nofun ?_
        rintro ⟨_, hReady, _⟩
        exact hNetwork hReady.onNetwork
      · rename_i hNetwork
        split
        · rename_i hPoisoned
          refine iff_of_false nofun ?_
          rintro ⟨_, hReady, _⟩
          exact nomatch hPoisoned.symm.trans hReady.unlocked
        · rename_i hPoisoned
          constructor
          · intro hBuild
            exact ⟨height, ⟨by simpa using hSync, hHeight, not_not.mp hNetwork,
              Bool.eq_false_iff.mpr hPoisoned⟩, hBuild⟩
          · rintro ⟨height', hReady, hBuild⟩
            obtain rfl : height = height' :=
              Option.some.inj (hHeight.symm.trans hReady.bestHeight)
            exact hBuild

theorem SelectsUnspent.finishAndSign (hSelects : SelectsUnspent library) {builder : TxBuilder}
    (h : finishAndSign library recorded draw builder = .ok tx) :
    ∀ outpoint ∈ tx.unsigned.inputs, outpoint ∈ recorded.unspent :=
  hSelects draw builder recorded tx.unsigned (finishAndSign_eq_ok_iff.mp h).1

end Library

/-- A library that spends every coin and takes a flat fee. -/
def everyCoin : WalletLibrary Unit where
  finish _ builder recorded :=
    let coins := recorded.utxos.filter fun utxo => !utxo.isSpent
    let total := (coins.map fun utxo => utxo.txout.value.toNat).sum
    let asked := (builder.recipients.map fun output => output.value.toNat).sum
    if total < asked + 200 then .error "Insufficient funds"
    else .ok ⟨recorded.unspent, builder.recipients ++
      [⟨.ofNat (total - asked - 200), builder.drainTo.getD [0]⟩]⟩
  sign tx := .ok (tx.inputs.map fun _ => [[1]])
  txid tx := ⟨Vector.replicate 32 (.ofNat tx.outputs.length)⟩
  unknownUtxo := "UTXO not found in the internal database"
  invalidNetwork := "address is not valid on this network"

theorem everyCoin_finish {draw : Unit} {builder : TxBuilder} {recorded : Recorded} {tx : Tx}
    (h : everyCoin.finish draw builder recorded = .ok tx) :
    tx.inputs = recorded.unspent ∧ ∀ output ∈ builder.recipients, output ∈ tx.outputs := by
  unfold everyCoin at h
  dsimp only at h
  split at h
  · exact nomatch h
  · cases h
    exact ⟨rfl, fun output hOutput => List.mem_append_left _ hOutput⟩

theorem everyCoin_selectsUnspent : SelectsUnspent everyCoin := by
  intro draw builder recorded tx h outpoint hOut
  rwa [(everyCoin_finish h).1] at hOut

theorem everyCoin_paysRecipients : PaysRecipients everyCoin :=
  fun _ _ _ _ h => (everyCoin_finish h).2

theorem everyCoin_drainsWallet : DrainsWallet everyCoin := by
  intro draw builder recorded tx h _ outpoint hOut
  rwa [(everyCoin_finish h).1]

/-- A wallet with one coin of 100000 satoshis that was confirmed in the block of height 700. -/
def oneCoin : Recorded where
  utxos := [⟨⟨⟨Vector.replicate 32 7⟩, 0⟩, ⟨100000, [1]⟩, .external, false⟩]
  confirmedAt _ := some 700
  height := 700

end Kld.BdkWallet
