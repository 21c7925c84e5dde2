import Kld.Lib.Run
import Kld.Lib.Table
import Kld.Types
import Kld.Ldk.ChannelUtils

/-!
# Looking up the output of a channel

A lookup asks bitcoind for the hash of a block and then for the block, while other lookups
are under way. Every way through its task ends with the only resolution of its future.
-/

namespace Kld.UtxoLookup

open ChannelUtils
open Transition

structure ChainHash where
  bytes : Vector UInt8 32
deriving DecidableEq

structure TxOut where
  value : UInt64
  scriptPubkey : Bytes
deriving DecidableEq

structure Transaction where
  output : List TxOut
deriving DecidableEq

structure Block where
  txdata : List Transaction
deriving DecidableEq

inductive BlockData where
  | fullBlock (block : Block)
  | headerOnly

/-- The blocks in the order of their heights. -/
structure Chain where
  blocks : List (BlockHash × Block)
  nodup : (blocks.map Prod.fst).Nodup

/-- Why a block is not served. -/
inductive BlockFault where
  | error (e : String)
  | headerOnly

/-- A chain, and the faults of the two requests of a lookup. -/
structure Bitcoind where
  chain : Chain
  hashFault : Nat → Option String
  blockFault : Nat → Option BlockFault

inductive UtxoLookupError where
  | unknownChain
  | unknownTx
deriving DecidableEq

inductive UtxoResult where
  | sync (result : Except UtxoLookupError TxOut)
  | async (id : Nat)

/-- How a future is resolved, and whether the announcement is forwarded to the peers. -/
structure Resolution where
  result : Except UtxoLookupError TxOut
  forwarded : Bool

/-- What a task awaits. -/
inductive Stage where
  | blockHash
  | block (hash : BlockHash)
  | done

structure Task where
  shortChannelId : UInt64
  stage : Stage
  resolutions : List Resolution

/-- The tasks of all lookups, and whether there still is a gossip sync. -/
structure State where
  tasks : List Task
  gossipSync : Bool

section Lookup

variable (bitcoind : Bitcoind)

def getBlockHash (id : Nat) (height : UInt32) : Except String BlockHash :=
  match bitcoind.hashFault id, bitcoind.chain.blocks[height.toNat]? with
  | some e, _ => .error e
  | none, some (hash, _) => .ok hash
  | none, none => .error "Block height out of range"

def getBlock (id : Nat) (hash : BlockHash) : Except String BlockData :=
  match bitcoind.blockFault id, bitcoind.chain.blocks.lookup hash with
  | some (.error e), _ => .error e
  | some .headerOnly, _ => .ok .headerOnly
  | none, some block => .ok (.fullBlock block)
  | none, none => .error "Block not found"

/-- For another chain there is no task. -/
def getUtxo (genesis : ChainHash) (s : State) (genesisHash : ChainHash) (shortChannelId : UInt64) :
    State × UtxoResult :=
  if genesisHash ≠ genesis then (s, .sync (.error .unknownChain))
  else ({ s with tasks := s.tasks ++ [⟨shortChannelId, .blockHash, []⟩] }, .async s.tasks.length)

def resolve (gossipSync : Bool) (task : Task) (utxo : Except UtxoLookupError TxOut) : Task :=
  { task with stage := .done, resolutions := task.resolutions ++ [⟨utxo, gossipSync⟩] }

def findOutput (block : Block) (index vout : Nat) : Except UtxoLookupError TxOut :=
  match block.txdata[index]? with
  | some tx =>
    match tx.output[vout]? with
    | some utxo => .ok utxo
    | none => .error .unknownTx
  | none => .error .unknownTx

/-- A task goes on when bitcoind has answered. -/
def resume (gossipSync : Bool) (id : Nat) (task : Task) : Option Task :=
  let height := blockFromScid task.shortChannelId
  let index := txIndexFromScid task.shortChannelId
  let vout := voutFromScid task.shortChannelId
  match task.stage with
  | .blockHash =>
    match getBlockHash bitcoind id height with
    | .ok hash => some { task with stage := .block hash }
    | .error _ => some (resolve gossipSync task (.error .unknownTx))
  | .block hash =>
    match getBlock bitcoind id hash with
    | .ok (.fullBlock block) =>
      some (resolve gossipSync task (findOutput block index.toNat vout.toNat))
    | _ => some (resolve gossipSync task (.error .unknownTx))
  | .done => none

inductive Step where
  | getUtxo (genesisHash : ChainHash) (shortChannelId : UInt64)
  | resume (id : Nat)
  | dropGossipSync
deriving DecidableEq

def step (genesis : ChainHash) (s : State) : Step → Option State
  | .getUtxo genesisHash shortChannelId => some (getUtxo genesis s genesisHash shortChannelId).1
  | .resume id =>
    (s.tasks[id]?).bind fun task =>
      (resume bitcoind s.gossipSync id task).map fun task => { s with tasks := s.tasks.set id task }
  | .dropGossipSync => some { s with gossipSync := false }

end Lookup

section Results

variable {bitcoind : Bitcoind} {genesis : ChainHash} {s s' t : State} {task task' : Task}
  {id n : Nat} {scid : UInt64} {o : TxOut}

/-- The block at the height has the transaction, and the transaction has the output. -/
def Located (chain : Chain) (scid : UInt64) (o : TxOut) : Prop :=
  ∃ hash block tx, chain.blocks[(blockFromScid scid).toNat]? = some (hash, block) ∧
    block.txdata[(txIndexFromScid scid).toNat]? = some tx ∧
    tx.output[(voutFromScid scid).toNat]? = some o

/-- Both requests of a lookup are answered. -/
def Serves (bitcoind : Bitcoind) (id : Nat) : Prop :=
  bitcoind.hashFault id = none ∧ bitcoind.blockFault id = none

/-- The result is the output that there is, and an error if there is none. -/
def RightResult (bitcoind : Bitcoind) (id : Nat) (scid : UInt64)
    (result : Except UtxoLookupError TxOut) : Prop :=
  (∀ o, result = .ok o ↔ Serves bitcoind id ∧ Located bitcoind.chain scid o) ∧
    ∀ e, result = .error e → e = .unknownTx

theorem findOutput_eq (block : Block) (index vout : Nat) :
    findOutput block index vout =
      ((block.txdata[index]?).bind fun tx => tx.output[vout]?).elim (.error .unknownTx) .ok := by
  unfold findOutput
  cases block.txdata[index]? with
  | none => rfl
  | some tx =>
    dsimp only
    rw [Option.bind_some]
    cases tx.output[vout]? <;> rfl

theorem findOutput_eq_ok_iff {block : Block} {index vout : Nat} :
    findOutput block index vout = .ok o ↔
      ∃ tx, block.txdata[index]? = some tx ∧ tx.output[vout]? = some o := by
  rw [findOutput_eq, ← Option.bind_eq_some_iff]
  cases (block.txdata[index]?).bind fun tx => tx.output[vout]? with
  | none => exact iff_of_false (by rintro ⟨⟩) (by rintro ⟨⟩)
  | some utxo => rw [Option.elim_some, Except.ok.injEq, Option.some.injEq]

theorem findOutput_error {block : Block} {index vout : Nat} {e : UtxoLookupError}
    (h : findOutput block index vout = .error e) : e = .unknownTx := by
  rw [findOutput_eq] at h
  cases hFound : (block.txdata[index]?).bind fun tx => tx.output[vout]? with
  | none =>
    rw [hFound] at h
    cases h
    rfl
  | some utxo =>
    rw [hFound] at h
    cases h

theorem getBlockHash_eq_ok_iff {height : UInt32} {hash : BlockHash} :
    getBlockHash bitcoind id height = .ok hash ↔ bitcoind.hashFault id = none ∧
      ∃ block, bitcoind.chain.blocks[height.toNat]? = some (hash, block) := by
  unfold getBlockHash
  split
  · rename_i e _ hFault
    rw [hFault]
    exact iff_of_false (by rintro ⟨⟩) (by rintro ⟨⟨⟩, _⟩)
  · rename_i hash' block hFault hBlock
    rw [hFault, hBlock, Except.ok.injEq]
    constructor
    · rintro rfl
      exact ⟨rfl, block, rfl⟩
    · rintro ⟨_, block', hEq⟩
      cases hEq
      rfl
  · rename_i hFault hBlock
    rw [hBlock]
    exact iff_of_false (by rintro ⟨⟩) (by rintro ⟨_, _, ⟨⟩⟩)

theorem getBlock_eq_fullBlock_iff {hash : BlockHash} {block : Block} :
    getBlock bitcoind id hash = .ok (.fullBlock block) ↔ bitcoind.blockFault id = none ∧
      bitcoind.chain.blocks.lookup hash = some block := by
  unfold getBlock
  split
  · rename_i e _ hFault
    rw [hFault]
    exact iff_of_false (by rintro ⟨⟩) (by rintro ⟨⟨⟩, _⟩)
  · rename_i _ hFault
    rw [hFault]
    exact iff_of_false (by rintro ⟨⟩) (by rintro ⟨⟨⟩, _⟩)
  · rename_i block' hFault hBlock
    rw [hFault, hBlock, Except.ok.injEq, BlockData.fullBlock.injEq, Option.some.injEq]
    exact (and_iff_right rfl).symm
  · rename_i hFault hBlock
    rw [hBlock]
    exact iff_of_false (by rintro ⟨⟩) (by rintro ⟨_, ⟨⟩⟩)

end Results

section Runs

variable {bitcoind : Bitcoind} {genesis : ChainHash} {s s' t : State} {task task' : Task}
  {id n : Nat} {scid : UInt64} {e : Step}

/-- How far the task of a lookup is after `n` of its steps. -/
inductive Progress (bitcoind : Bitcoind) (id : Nat) (scid : UInt64) : Nat → Task → Prop
  | asked : Progress bitcoind id scid 0 ⟨scid, .blockHash, []⟩
  | hashed {hash : BlockHash}
      (hHash : getBlockHash bitcoind id (blockFromScid scid) = .ok hash) :
      Progress bitcoind id scid 1 ⟨scid, .block hash, []⟩
  | resolved {n : Nat} {r : Resolution} (hResult : RightResult bitcoind id scid r.result) :
      Progress bitcoind id scid n ⟨scid, .done, [r]⟩

/-- Where the block cannot be had, there is no output. -/
theorem rightResult_error (hNot : ¬ ∃ o, Serves bitcoind id ∧ Located bitcoind.chain scid o) :
    RightResult bitcoind id scid (.error .unknownTx) := by
  refine ⟨fun o => iff_of_false (by rintro ⟨⟩) fun h => hNot ⟨o, h⟩, fun e h => ?_⟩
  cases h
  rfl

theorem rightResult_findOutput {hash : BlockHash} {block : Block} (hServes : Serves bitcoind id)
    (hBlock : bitcoind.chain.blocks[(blockFromScid scid).toNat]? = some (hash, block)) :
    RightResult bitcoind id scid
      (findOutput block (txIndexFromScid scid).toNat (voutFromScid scid).toNat) := by
  refine ⟨fun o => ?_, fun e => findOutput_error⟩
  rw [findOutput_eq_ok_iff, and_iff_right hServes]
  constructor
  · rintro ⟨tx, hTx, hOutput⟩
    exact ⟨hash, block, tx, hBlock, hTx, hOutput⟩
  · rintro ⟨hash', block', tx, hBlock', hTx, hOutput⟩
    obtain ⟨_, rfl⟩ := Prod.mk.inj (Option.some.inj (hBlock.symm.trans hBlock'))
    exact ⟨tx, hTx, hOutput⟩

theorem Progress.resume {gossipSync : Bool} (h : Progress bitcoind id scid n task)
    (hResume : resume bitcoind gossipSync id task = some task') :
    Progress bitcoind id scid (n + 1) task' := by
  cases h with
  | asked =>
    unfold UtxoLookup.resume at hResume
    dsimp only at hResume
    split at hResume
    · rename_i hash hHash
      cases hResume
      exact .hashed hHash
    · rename_i e hError
      cases hResume
      refine .resolved (rightResult_error ?_)
      rintro ⟨o, ⟨hServed, _⟩, hash, block, tx, hBlock, _⟩
      cases hError.symm.trans (getBlockHash_eq_ok_iff.mpr ⟨hServed, block, hBlock⟩)
  | @hashed hash hHash =>
    obtain ⟨hServed, block, hBlock⟩ := getBlockHash_eq_ok_iff.mp hHash
    have hLookup : bitcoind.chain.blocks.lookup hash = some block :=
      Sql.Table.lookup_eq_some_of_mem bitcoind.chain.nodup (List.mem_of_getElem? hBlock)
    unfold UtxoLookup.resume at hResume
    dsimp only at hResume
    split at hResume
    · rename_i block' hOk
      cases hResume
      obtain ⟨hServed', hFound⟩ := getBlock_eq_fullBlock_iff.mp hOk
      obtain rfl := Option.some.inj (hLookup.symm.trans hFound)
      exact .resolved (rightResult_findOutput ⟨hServed, hServed'⟩ hBlock)
    · rename_i hOther
      cases hResume
      refine .resolved (rightResult_error ?_)
      rintro ⟨o, ⟨_, hServed'⟩, _⟩
      exact hOther block (getBlock_eq_fullBlock_iff.mpr ⟨hServed', hLookup⟩)
  | resolved _ => cases hResume

theorem progress_step (hTask : s.tasks[id]? = some task)
    (hProgress : Progress bitcoind id scid n task)
    (hStep : step bitcoind genesis s e = some s') :
    ∃ task', s'.tasks[id]? = some task' ∧
      Progress bitcoind id scid (n + [e].count (.resume id)) task' := by
  have hLt : id < s.tasks.length := (List.getElem?_eq_some_iff.mp hTask).1
  cases e with
  | getUtxo genesisHash shortChannelId =>
    obtain rfl := Option.some.inj hStep
    refine ⟨task, ?_, hProgress⟩
    unfold getUtxo
    split
    · exact hTask
    · rw [List.getElem?_append_left hLt]
      exact hTask
  | dropGossipSync =>
    obtain rfl := Option.some.inj hStep
    exact ⟨task, hTask, hProgress⟩
  | resume other =>
    obtain ⟨task₁, hOther, hStep⟩ := Option.bind_eq_some_iff.mp hStep
    obtain ⟨task₂, hResume, rfl⟩ := Option.map_eq_some_iff.mp hStep
    by_cases hId : other = id
    · subst hId
      obtain rfl := Option.some.inj (hTask.symm.trans hOther)
      refine ⟨task₂, List.getElem?_set_self hLt, ?_⟩
      rw [List.count_singleton_self]
      exact hProgress.resume hResume
    · refine ⟨task, ?_, ?_⟩
      · rw [List.getElem?_set_ne hId]
        exact hTask
      · rw [List.count_singleton, if_neg (by simpa using hId)]
        exact hProgress

theorem progress_run {es : List Step} (hTask : s.tasks[id]? = some task)
    (hProgress : Progress bitcoind id scid n task)
    (hRun : run (step bitcoind genesis) s es = some t) :
    ∃ task', t.tasks[id]? = some task' ∧
      Progress bitcoind id scid (n + es.count (.resume id)) task' := by
  induction es generalizing s n task with
  | nil =>
    obtain rfl := Option.some.inj hRun
    exact ⟨task, hTask, hProgress⟩
  | cons e es ih =>
    obtain ⟨s', hStep, hRest⟩ := run_cons_eq_some hRun
    obtain ⟨task', hTask', hProgress'⟩ := progress_step hTask hProgress hStep
    obtain ⟨task'', hTask'', hProgress''⟩ := ih hTask' hProgress' hRest
    refine ⟨task'', hTask'', ?_⟩
    rw [← List.singleton_append, List.count_append, ← Nat.add_assoc]
    exact hProgress''

/-- A task that waits goes on with an answer, and the second one is the last. -/
inductive Settled (bitcoind : Bitcoind) (genesis : ChainHash) (t : State) (id : Nat)
    (scid : UInt64) (answers : Nat) (resolutions : List Resolution) : Prop
  | waiting (hNone : resolutions = []) (hAnswers : answers < 2)
      (hGoesOn : (step bitcoind genesis t (.resume id)).isSome)
  | resolved {r : Resolution} (hOne : resolutions = [r])
      (hResult : RightResult bitcoind id scid r.result)
      (hEnded : step bitcoind genesis t (.resume id) = none)

theorem resume_isSome (gossipSync : Bool) (hStage : ∀ r, task.resolutions ≠ [r])
    (hProgress : Progress bitcoind id scid n task) :
    (resume bitcoind gossipSync id task).isSome := by
  cases hProgress with
  | asked =>
    unfold resume
    dsimp only
    split <;> rfl
  | hashed =>
    unfold resume
    dsimp only
    split <;> rfl
  | @resolved _ r => exact absurd rfl (hStage r)

theorem settled_of_progress (hTask : t.tasks[id]? = some task)
    (hProgress : Progress bitcoind id scid n task) :
    Settled bitcoind genesis t id scid n task.resolutions := by
  have hStep : step bitcoind genesis t (.resume id) =
      (resume bitcoind t.gossipSync id task).map fun task =>
        { t with tasks := t.tasks.set id task } := by
    rw [step, hTask, Option.bind_some]
  cases hProgress with
  | asked =>
    refine .waiting rfl (by omega) ?_
    rw [hStep, Option.isSome_map]
    exact resume_isSome t.gossipSync (fun r => List.cons_ne_nil r [] ∘ Eq.symm) .asked
  | hashed hHash =>
    refine .waiting rfl (by omega) ?_
    rw [hStep, Option.isSome_map]
    exact resume_isSome t.gossipSync (fun r => List.cons_ne_nil r [] ∘ Eq.symm) (.hashed hHash)
  | resolved hResult => exact .resolved rfl hResult hStep

/-- The future of a lookup on the node's own chain is resolved once, with the output if there is
one, whatever else happens meanwhile. -/
theorem lookup_resolved_once {es : List Step}
    (hRun : run (step bitcoind genesis) (getUtxo genesis s genesis scid).1 es = some t) :
    (((blockFromScid scid).toUInt64 <<< 40) ||| ((txIndexFromScid scid).toUInt64 <<< 16) |||
        (voutFromScid scid).toUInt64 = scid ∧
      (blockFromScid scid).toNat < 2 ^ 24 ∧ (txIndexFromScid scid).toNat < 2 ^ 24 ∧
      (voutFromScid scid).toNat < 2 ^ 16) ∧
    (getUtxo genesis s genesis scid).2 = .async s.tasks.length ∧
    ∃ task, t.tasks[s.tasks.length]? = some task ∧
      Settled bitcoind genesis t s.tasks.length scid (es.count (.resume s.tasks.length))
        task.resolutions := by
  have hStarted : getUtxo genesis s genesis scid =
      ({ s with tasks := s.tasks ++ [⟨scid, .blockHash, []⟩] }, .async s.tasks.length) :=
    if_neg (not_not.mpr rfl)
  rw [hStarted] at hRun ⊢
  refine ⟨⟨scid_eq scid, blockFromScid_lt scid, txIndexFromScid_lt scid,
    (voutFromScid scid).toNat_lt⟩, rfl, ?_⟩
  obtain ⟨task, hTask, hProgress⟩ := progress_run List.getElem?_concat_length .asked hRun
  rw [Nat.zero_add] at hProgress
  exact ⟨task, hTask, settled_of_progress hTask hProgress⟩

def ownChain : ChainHash := ⟨.replicate 32 0⟩

/-- Two blocks, and two transactions in the second one. -/
def twoBlocks : Bitcoind where
  chain := {
    blocks := [(⟨.replicate 32 0⟩, ⟨[⟨[⟨5000000000, []⟩]⟩]⟩),
      (⟨.replicate 32 1⟩, ⟨[⟨[⟨5000000000, []⟩]⟩, ⟨[⟨90000, [81]⟩, ⟨100000, [0, 32]⟩]⟩]⟩)]
    nodup := by decide }
  hashFault _ := none
  blockFault _ := none

/-- The second output of the second transaction in the second block. -/
theorem second_output_found : ∃ t task,
    run (step twoBlocks ownChain) (getUtxo ownChain ⟨[], true⟩ ownChain 0x10000010001).1
      [.resume 0, .dropGossipSync, .resume 0] = some t ∧
    t.tasks[0]? = some task ∧ task.resolutions = [⟨.ok ⟨100000, [0, 32]⟩, false⟩] ∧
    Settled twoBlocks ownChain t 0 0x10000010001 2 task.resolutions := by
  have hRun : run (step twoBlocks ownChain)
      (getUtxo ownChain ⟨[], true⟩ ownChain 0x10000010001).1
      [.resume 0, .dropGossipSync, .resume 0] =
        some ⟨[⟨0x10000010001, .done, [⟨.ok ⟨100000, [0, 32]⟩, false⟩]⟩], false⟩ := rfl
  obtain ⟨_, _, task, hTask, hSettled⟩ := lookup_resolved_once hRun
  obtain rfl := Option.some.inj hTask
  exact ⟨_, _, hRun, rfl, rfl, hSettled⟩

end Runs

end Kld.UtxoLookup
