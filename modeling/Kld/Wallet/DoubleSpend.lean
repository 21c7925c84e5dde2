import Kld.Wallet.BdkWallet
import Kld.Lib.Run

/-!
# Outputs spent twice

Channel fundings, transfers and synchronisations of one wallet in any order. A
returned transaction is unseen until a synchronisation reports it, and gone once
a later one no longer does. Only a synchronisation changes the recorded outputs.
-/

namespace Kld.BdkWallet

open OpenChannel Transition

inductive Fate where
  | unseen
  | seen
  | gone
deriving DecidableEq

/-- The rivals are the transactions returned before and not reported as gone by then. -/
structure Returned where
  tx : SignedTx
  fate : Fate
  rivals : List SignedTx

structure Wallet where
  recorded : Recorded
  poisoned : Bool
  returned : List Returned

/-- The outputs that a reported transaction spends are not recorded as unspent. -/
structure Report where
  recorded : Recorded
  present : List Tx
  spent : ∀ tx ∈ present, ∀ outpoint ∈ tx.inputs, outpoint ∉ recorded.unspent

inductive Step (ρ : Type) where
  | fundTx (bitcoind : Bitcoind) (draw : ρ) (outputScript : Bytes) (channelValueSatoshis : UInt64)
      (feeRate : FeeRate)
  | transfer (bitcoind : Bitcoind) (draw : ρ) (address : Address) (amount : UInt64)
      (feeRate : Option FeeRate) (minConf : Option UInt8) (utxos : List OutPoint)
  | sync (answer : Option Report)

def initial (recorded : Recorded) : Wallet := ⟨recorded, false, []⟩

def Fate.after (present : Bool) : Fate → Fate
  | .unseen => if present then .seen else .unseen
  | .seen => if present then .seen else .gone
  | .gone => .gone

def Returned.after (present : List Tx) (r : Returned) : Returned :=
  { r with fate := r.fate.after (decide (r.tx.unsigned ∈ present)) }

def Wallet.rivals (w : Wallet) : List SignedTx :=
  (w.returned.filter fun r => r.fate ≠ .gone).map (·.tx)

def Wallet.give (w : Wallet) (tx : SignedTx) : Wallet :=
  { w with returned := ⟨tx, .unseen, w.rivals⟩ :: w.returned }

def Wallet.record (w : Wallet) : Option (Except Failure SignedTx) → Wallet
  | some (.ok tx) => w.give tx
  | some (.error .panicked) => { w with poisoned := true }
  | _ => w

/-- One turn of the loop; there is no answer when electrs cannot be reached or fails. -/
def Wallet.keepSyncWithChain (w : Wallet) : Option Report → Wallet
  | none => w
  | some report =>
    if w.poisoned then w
    else if w.recorded.height < report.recorded.height then
      { w with
        recorded := report.recorded
        returned := w.returned.map (Returned.after report.present) }
    else w

section

variable {ρ : Type} (library : WalletLibrary ρ) (checks : Bool) (network : Network)

/-- What a step answers to its caller, if it is a call that builds a transaction. -/
def answer (w : Wallet) : Step ρ → Option (Except Failure SignedTx)
  | .fundTx bitcoind draw outputScript channelValueSatoshis feeRate =>
    some (Kld.BdkWallet.fundTx library bitcoind w.recorded w.poisoned draw outputScript
      channelValueSatoshis feeRate)
  | .transfer bitcoind draw address amount feeRate minConf utxos =>
    some (Kld.BdkWallet.transfer library bitcoind w.recorded checks network w.poisoned draw address
      amount feeRate minConf utxos).answer
  | .sync _ => none

/-- A panic can only occur while the lock is held, or because the lock is poisoned already. -/
def next (w : Wallet) : Step ρ → Wallet
  | .sync report => w.keepSyncWithChain report
  | step => w.record (answer library checks network w step)

end

/-- No output is spent by two returned transactions, save those reported gone in between. -/
def NeverTwice (w : Wallet) : Prop :=
  ∀ r ∈ w.returned, ∀ rival ∈ r.rivals,
    ∀ outpoint ∈ r.tx.unsigned.inputs, outpoint ∉ rival.unsigned.inputs

/-- The call gets as far as asking the library for coins. -/
def AsksForCoins {ρ : Type} (library : WalletLibrary ρ) (checks : Bool) (network : Network)
    (w : Wallet) : Step ρ → Prop
  | .fundTx _ _ _ _ _ => w.poisoned = false
  | .transfer bitcoind _ address amount feeRate minConf utxos =>
    ∃ height builder, Ready bitcoind network w.poisoned address height ∧
      transferBuilder library bitcoind w.recorded checks height address.scriptPubkey amount
        feeRate minConf utxos = .ok builder
  | .sync _ => False

/-- When coins are asked for, no output that a returned transaction spends, and that no
synchronisation has reported yet, is still recorded as unspent. -/
def Caught {ρ : Type} (library : WalletLibrary ρ) (checks : Bool) (network : Network)
    (w : Wallet) (step : Step ρ) : Prop :=
  AsksForCoins library checks network w step → ∀ r ∈ w.returned, r.fate = .unseen →
    ∀ outpoint ∈ r.tx.unsigned.inputs, outpoint ∉ w.recorded.unspent

/-- The outputs that the reported transactions spend are no longer selectable. -/
structure Invariant (w : Wallet) : Prop where
  neverTwice : NeverTwice w
  seen : ∀ r ∈ w.returned, r.fate = .seen →
    ∀ outpoint ∈ r.tx.unsigned.inputs, outpoint ∉ w.recorded.unspent

theorem after_eq_seen {present : Bool} {fate : Fate} (h : fate.after present = .seen) :
    present = true := by
  cases present with
  | true => rfl
  | false => cases fate <;> exact nomatch h

theorem mem_rivals {w : Wallet} {rival : SignedTx} :
    rival ∈ w.rivals ↔ ∃ r ∈ w.returned, r.fate ≠ .gone ∧ r.tx = rival := by
  simp [Wallet.rivals, and_assoc]

variable {ρ : Type} {library : WalletLibrary ρ} {checks : Bool} {network : Network} {w : Wallet}

/-- A transaction that a call answers spends recorded outputs. -/
theorem unspent_of_answer (hSelects : SelectsUnspent library) {step : Step ρ} {tx : SignedTx}
    (h : answer library checks network w step = some (.ok tx)) :
    AsksForCoins library checks network w step ∧
      ∀ outpoint ∈ tx.unsigned.inputs, outpoint ∈ w.recorded.unspent := by
  cases step with
  | fundTx bitcoind draw outputScript channelValueSatoshis feeRate =>
    obtain ⟨hLock, hFinish⟩ := fundTx_eq_ok_iff.mp (Option.some.inj h)
    exact ⟨hLock, hSelects.finishAndSign hFinish⟩
  | transfer bitcoind draw address amount feeRate minConf utxos =>
    obtain ⟨height, hReady, hBuild⟩ :=
      mem_broadcast_transfer_iff.mp (mem_broadcast_of.mpr (Option.some.inj h))
    obtain ⟨builder, hBuilder, hFinish⟩ := buildTransfer_eq_ok_iff.mp hBuild
    exact ⟨⟨height, builder, hReady, hBuilder⟩, hSelects.finishAndSign hFinish⟩
  | sync report => exact nomatch h

theorem keepSyncWithChain_cases (w : Wallet) (answer : Option Report) :
    w.keepSyncWithChain answer = w ∨ ∃ report : Report, w.keepSyncWithChain answer = { w with
      recorded := report.recorded
      returned := w.returned.map (Returned.after report.present) } := by
  cases answer with
  | none => exact Or.inl rfl
  | some report =>
    unfold Wallet.keepSyncWithChain
    dsimp only
    split
    · exact Or.inl rfl
    · split
      · exact Or.inr ⟨report, rfl⟩
      · exact Or.inl rfl

theorem record_cases (w : Wallet) (answer : Option (Except Failure SignedTx)) :
    (∃ tx, answer = some (.ok tx) ∧ w.record answer = w.give tx) ∨
      ∃ poisoned, w.record answer = { w with poisoned := poisoned } := by
  unfold Wallet.record
  split
  · rename_i tx
    exact Or.inl ⟨tx, rfl, rfl⟩
  · exact Or.inr ⟨true, rfl⟩
  · exact Or.inr ⟨w.poisoned, rfl⟩

/-- What a step can do to the wallet. -/
theorem next_cases (library : WalletLibrary ρ) (checks : Bool) (network : Network) (w : Wallet)
    (step : Step ρ) :
    (∃ tx, answer library checks network w step = some (.ok tx) ∧
      next library checks network w step = w.give tx) ∨
    (∃ poisoned, next library checks network w step = { w with poisoned := poisoned }) ∨
    ∃ report : Report, next library checks network w step = { w with
      recorded := report.recorded
      returned := w.returned.map (Returned.after report.present) } := by
  cases step with
  | fundTx bitcoind draw outputScript channelValueSatoshis feeRate =>
    exact (record_cases w _).imp_right Or.inl
  | transfer bitcoind draw address amount feeRate minConf utxos =>
    exact (record_cases w _).imp_right Or.inl
  | sync report =>
    obtain hSame | hReport := keepSyncWithChain_cases w report
    · exact Or.inr (Or.inl ⟨w.poisoned, hSame⟩)
    · exact Or.inr (Or.inr hReport)

theorem next_of_ok {step : Step ρ} {tx : SignedTx}
    (h : answer library checks network w step = some (.ok tx)) :
    next library checks network w step = w.give tx := by
  cases step with
  | fundTx bitcoind draw outputScript channelValueSatoshis feeRate =>
    exact congrArg w.record h
  | transfer bitcoind draw address amount feeRate minConf utxos => exact congrArg w.record h
  | sync report => exact nomatch h

theorem invariant_give (hInv : Invariant w) {tx : SignedTx}
    (hUnspent : ∀ outpoint ∈ tx.unsigned.inputs, outpoint ∈ w.recorded.unspent)
    (hFree : ∀ r ∈ w.returned, r.fate = .unseen →
      ∀ outpoint ∈ tx.unsigned.inputs, outpoint ∉ r.tx.unsigned.inputs) :
    Invariant (w.give tx) := by
  constructor
  · intro r hr rival hRival outpoint hOut
    rcases List.mem_cons.mp hr with rfl | hr
    · obtain ⟨earlier, hEarlier, hFate, rfl⟩ := mem_rivals.mp hRival
      cases hCase : earlier.fate with
      | unseen => exact hFree earlier hEarlier hCase outpoint hOut
      | seen =>
        intro hSpent
        exact hInv.seen earlier hEarlier hCase outpoint hSpent (hUnspent outpoint hOut)
      | gone => exact absurd hCase hFate
    · exact hInv.neverTwice r hr rival hRival outpoint hOut
  · intro r hr hSeen
    rcases List.mem_cons.mp hr with rfl | hr
    · exact nomatch hSeen
    · exact hInv.seen r hr hSeen

theorem invariant_report (hInv : Invariant w) (report : Report) :
    Invariant { w with
      recorded := report.recorded
      returned := w.returned.map (Returned.after report.present) } := by
  constructor
  · intro r hr
    obtain ⟨earlier, hEarlier, rfl⟩ := List.mem_map.mp hr
    exact hInv.neverTwice earlier hEarlier
  · intro r hr hSeen
    obtain ⟨earlier, hEarlier, rfl⟩ := List.mem_map.mp hr
    exact report.spent _ (of_decide_eq_true (after_eq_seen hSeen))

theorem invariant_next (hSelects : SelectsUnspent library) {step : Step ρ} (hInv : Invariant w)
    (hCaught : Caught library checks network w step) :
    Invariant (next library checks network w step) := by
  obtain ⟨tx, hAnswer, hNext⟩ | ⟨poisoned, hNext⟩ | ⟨report, hNext⟩ :=
    next_cases library checks network w step
  · rw [hNext]
    obtain ⟨hAsks, hUnspent⟩ := unspent_of_answer hSelects hAnswer
    refine invariant_give hInv hUnspent fun r hr hUnseen outpoint hOut hSpent => ?_
    exact hCaught hAsks r hr hUnseen outpoint hSpent (hUnspent outpoint hOut)
  · rw [hNext]
    exact ⟨hInv.neverTwice, hInv.seen⟩
  · rw [hNext]
    exact invariant_report hInv report

/-- A library that spends every recorded output and signs anything. -/
def greedy (library : WalletLibrary ρ) : WalletLibrary ρ :=
  { library with
    finish := fun _ _ recorded => .ok ⟨recorded.unspent, []⟩
    sign := fun _ => .ok [] }

theorem greedy_selectsUnspent : SelectsUnspent (greedy library) := by
  intro draw builder recorded tx h outpoint hOut
  cases h
  exact hOut

theorem answer_greedy {step : Step ρ} (hAsks : AsksForCoins library checks network w step) :
    answer (greedy library) checks network w step =
      some (.ok ⟨⟨w.recorded.unspent, []⟩, []⟩) := by
  cases step with
  | fundTx bitcoind draw outputScript channelValueSatoshis feeRate =>
    exact congrArg some (fundTx_eq_ok_iff.mpr ⟨hAsks, finishAndSign_eq_ok_iff.mpr ⟨rfl, rfl⟩⟩)
  | transfer bitcoind draw address amount feeRate minConf utxos =>
    obtain ⟨height, builder, hReady, hBuilder⟩ := hAsks
    refine congrArg some (mem_broadcast_of.mp (mem_broadcast_transfer_iff.mpr ?_))
    exact ⟨height, hReady, buildTransfer_eq_ok_iff.mpr
      ⟨builder, hBuilder, finishAndSign_eq_ok_iff.mpr ⟨rfl, rfl⟩⟩⟩
  | sync report => exact hAsks.elim

theorem twice_of_not_caught {step : Step ρ} (hNot : ¬ Caught library checks network w step) :
    ¬ NeverTwice (next (greedy library) checks network w step) := by
  unfold Caught at hNot
  push Not at hNot
  obtain ⟨hAsks, r, hr, hUnseen, outpoint, hSpent, hUnspent⟩ := hNot
  rw [next_of_ok (answer_greedy hAsks)]
  intro hNever
  have hRival : r.tx ∈ w.rivals := mem_rivals.mpr ⟨r, hr, by rw [hUnseen]; exact nofun, rfl⟩
  exact hNever _ List.mem_cons_self r.tx hRival outpoint hUnspent hSpent

/-- Runs in which every call that asks for coins is caught up never spend an output twice. Where
a call is not, some library with the same selection rule does spend one twice. -/
theorem never_twice_of_caught (hSelects : SelectsUnspent library) (recorded : Recorded)
    (steps : List (Step ρ)) :
    (Along (total (next library checks network)) (Caught library checks network)
        (initial recorded) steps →
      Always (total (next library checks network)) NeverTwice (initial recorded) steps) ∧
    ∀ w step, ¬ Caught library checks network w step → ∃ library' : WalletLibrary ρ,
      SelectsUnspent library' ∧ ¬ NeverTwice (next library' checks network w step) := by
  refine ⟨fun hCaught => ?_, fun w step hNot => ?_⟩
  · refine always_of_along (fun w step w' hInv hCaught hStep => ?_)
      (fun w (hInv : Invariant w) => hInv.neverTwice) ⟨nofun, nofun⟩ hCaught
    exact Option.some.inj hStep ▸ invariant_next hSelects hInv hCaught
  · exact ⟨greedy library, greedy_selectsUnspent, twice_of_not_caught hNot⟩

instance decidableNeverTwice (w : Wallet) : Decidable (NeverTwice w) :=
  inferInstanceAs (Decidable (∀ r ∈ w.returned, ∀ rival ∈ r.rivals,
    ∀ outpoint ∈ r.tx.unsigned.inputs, outpoint ∉ rival.unsigned.inputs))

def fundChannel : Step Unit := .fundTx ⟨true, some 700, fun _ => 1000⟩ () [2] 50000 .normal

theorem two_fundings_spend_one_coin :
    ¬ Always (total (next everyCoin true .bitcoin)) NeverTwice (initial oneCoin)
      [fundChannel, fundChannel] := by
  rintro ⟨_, hFirst⟩
  have hSecond : NeverTwice _ := (hFirst _ rfl).2 _ rfl
  exact absurd hSecond (by decide)

/-- The funding of the channel, as everyCoin builds it of the one coin. -/
def fundingTx : Tx where
  inputs := [⟨⟨Vector.replicate 32 7⟩, 0⟩]
  outputs := [⟨50000, [2]⟩, ⟨49800, [0]⟩]

/-- The block of height 701 holds the funding transaction, whose change is the only coin left. -/
def fundingReported : Report where
  recorded :=
    { utxos := [⟨⟨everyCoin.txid fundingTx, 1⟩, ⟨49800, [0]⟩, .internal, false⟩]
      confirmedAt := fun _ => some 701
      height := 701 }
  present := [fundingTx]
  spent := by decide

def fundFromChange : Step Unit := .fundTx ⟨true, some 701, fun _ => 1000⟩ () [3] 20000 .normal

/-- Two channels are funded, and a synchronisation between them reports the first funding. -/
theorem never_twice_of_caught_reported :
    Always (total (next everyCoin true .bitcoin)) NeverTwice (initial oneCoin)
      [fundChannel, .sync (some fundingReported), fundFromChange] := by
  refine (never_twice_of_caught everyCoin_selectsUnspent oneCoin _).1
    ⟨fun _ r hr => absurd hr List.not_mem_nil, fun _ hFirst => ⟨fun hAsks => hAsks.elim, ?_⟩⟩
  intro _ hSecond
  cases hFirst
  cases hSecond
  refine ⟨fun _ => ?_, fun _ _ => trivial⟩
  decide

end Kld.BdkWallet
