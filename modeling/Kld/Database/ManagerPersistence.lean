import Kld.Database.Schema
import Kld.Lib.Run
import Kld.Lib.Runtime

/-!
# Persisting the channel manager

LDK calls the persister whenever the channel manager or the scorer has changed.
Each call serialises the value at once and hands the write to the runtime. At
the next start the node restores the manager that it finds in the database.
-/

namespace Kld.ManagerPersistence

open Sql Serial Transition Runtime

/-- `query_opt` accepts at most one row, and `query_one` exactly one. -/
inductive QueryError where
  | rowCount
deriving DecidableEq

def queryOpt {α : Type} : List α → Except QueryError (Option α)
  | [] => .ok none
  | [row] => .ok (some row)
  | _ => .error .rowCount

def queryOne {α : Type} : List α → Except QueryError α
  | [row] => .ok row
  | _ => .error .rowCount

inductive StartError where
  | couldNotCheckInitialized (e : QueryError)
  | failedToQueryManager (e : QueryError)
  | failedToReadManager
deriving DecidableEq

inductive StartedManager (μ : Type) where
  | new
  | restored (manager : μ)

def isFirstStart (db : Database) : Except QueryError Bool :=
  (queryOpt db.channelManager.rows).map Option.isNone

variable {μ : Type}

def fetchChannelManager (codec : Codec μ) (db : Database) : Except StartError μ :=
  match queryOne db.channelManager.rows with
  | .error e => .error (.failedToQueryManager e)
  | .ok (_, manager) => (codec.read manager).elim (.error .failedToReadManager) .ok

/-- The part of `start_ldk` that decides between a new and a restored channel manager. -/
def startChannelManager (codec : Codec μ) (db : Database) : Except StartError (StartedManager μ) :=
  match isFirstStart db with
  | .error e => .error (.couldNotCheckInitialized e)
  | .ok true => .ok .new
  | .ok false => (fetchChannelManager codec db).map .restored

def writeManager (buf : Bytes) : Future Database Unit :=
  ⟨fun db =>
    ((), { db with channelManager := db.channelManager.upsert "manager" buf fun _ => buf })⟩

def writeScorer (buf : Bytes) : Future Database Unit :=
  ⟨fun db => ((), { db with scorer := db.scorer.upsert "scorer" buf fun _ => buf })⟩

def persistManager (codec : Codec μ) (manager : μ) : Work Database :=
  spawnBlocking (asyncClosure (writeManager (codec.write manager)))

def persistScorer (scorer : Bytes) : Work Database := spawn (writeScorer scorer)

structure State (μ : Type) where
  db : Database
  queue : List (Work Database)
  managers : List μ

inductive Step (μ : Type) where
  | persistManager (manager : μ)
  | persistScorer (scorer : Bytes)
  | finish (work : Nat)

def State.start (μ : Type) (db : Database) : State μ := ⟨db, [], []⟩

def step (codec : Codec μ) (s : State μ) : Step μ → Option (State μ)
  | .persistManager manager =>
    some { s with
      queue := s.queue ++ [ManagerPersistence.persistManager codec manager]
      managers := s.managers ++ [manager] }
  | .persistScorer scorer =>
    some { s with queue := s.queue ++ [ManagerPersistence.persistScorer scorer] }
  | .finish i => s.queue[i]?.map fun work => { s with db := work s.db, queue := s.queue.eraseIdx i }

structure Survives (codec : Codec μ) (manager : μ) (db : Database) : Prop where
  stored : db.channelManager.rows = [("manager", codec.write manager)]
  isFirstStart : isFirstStart db = .ok false
  restored : startChannelManager codec db = .ok (.restored manager)

/-- The work that is pending does not write the channel manager. -/
structure Inv (db₀ : Database) (s : State μ) : Prop where
  managerTable : s.db.channelManager = db₀.channelManager
  queue : ∀ work ∈ s.queue, work = id ∨ ∃ scorer, work = persistScorer scorer

variable {codec : Codec μ} {db₀ : Database} {s s' : State μ}

theorem survives_iff {manager : μ} {db : Database} :
    Survives codec manager db ↔ db.channelManager.rows = [("manager", codec.write manager)] := by
  constructor
  · exact Survives.stored
  · intro hRows
    have hNotFirst : isFirstStart db = .ok false := by
      rw [isFirstStart, hRows]
      rfl
    refine ⟨hRows, hNotFirst, ?_⟩
    rw [startChannelManager, hNotFirst, fetchChannelManager, hRows]
    simp [queryOne, Except.map]

/-- The future of the write is dropped before it is ever polled. -/
theorem persistManager_eq_id (codec : Codec μ) (manager : μ) : persistManager codec manager = id :=
  spawnBlocking_asyncClosure _

theorem inv_start : Inv db₀ (State.start μ db₀) := ⟨rfl, nofun⟩

theorem inv_step {e : Step μ} (hInv : Inv db₀ s) (hStep : step codec s e = some s') :
    Inv db₀ s' := by
  cases e with
  | persistManager manager =>
    obtain rfl := Option.some.inj hStep
    refine ⟨hInv.managerTable, fun work hWork => ?_⟩
    rcases List.mem_append.mp hWork with hOld | hNew
    · exact hInv.queue work hOld
    · exact Or.inl ((List.mem_singleton.mp hNew).trans (persistManager_eq_id codec manager))
  | persistScorer scorer =>
    obtain rfl := Option.some.inj hStep
    refine ⟨hInv.managerTable, fun work hWork => ?_⟩
    rcases List.mem_append.mp hWork with hOld | hNew
    · exact hInv.queue work hOld
    · exact Or.inr ⟨scorer, List.mem_singleton.mp hNew⟩
  | finish i =>
    obtain ⟨work, hWork, rfl⟩ := Option.map_eq_some_iff.mp hStep
    have hErase : s.queue.eraseIdx i ⊆ s.queue := List.eraseIdx_subset
    have hQueue := fun other hOther => hInv.queue other (hErase hOther)
    rcases hInv.queue work (List.mem_of_getElem? hWork) with rfl | ⟨scorer, rfl⟩
    · exact ⟨hInv.managerTable, hQueue⟩
    · exact ⟨hInv.managerTable, hQueue⟩

/-- The last channel manager survives exactly if the table held it from the start. -/
theorem last_manager_survives_iff {es : List (Step μ)}
    (hRun : run (step codec) (.start μ db₀) es = some s) :
    s.queue = [] → ∀ manager, s.managers.getLast? = some manager →
      (Survives codec manager s.db ↔
        db₀.channelManager.rows = [("manager", codec.write manager)]) := by
  intro _ manager _
  have hInv : Inv db₀ s := invariant_run (fun _ _ _ => inv_step) inv_start hRun
  rw [survives_iff, hInv.managerTable]

def exampleCodec : Codec Nat := .ofEncodable Nat

def twoCalls : List (Step Nat) := [.persistManager 1, .persistManager 2, .finish 0, .finish 0]

theorem last_manager_lost :
    ∃ s, run (step exampleCodec) (.start Nat default) twoCalls = some s ∧ s.queue = [] ∧
      s.managers.getLast? = some 2 ∧ ¬ Survives exampleCodec 2 s.db ∧
      startChannelManager exampleCodec s.db = .ok .new := by
  refine ⟨_, rfl, rfl, rfl, fun h => ?_, rfl⟩
  cases h.stored

theorem last_manager_stored_before :
    ∃ s, run (step exampleCodec)
        (.start Nat { (default : Database) with
          channelManager := .singleton "manager" (exampleCodec.write 2) })
        twoCalls = some s ∧
      Survives exampleCodec 2 s.db := by
  have hRun : run (step exampleCodec)
      (.start Nat { (default : Database) with
        channelManager := .singleton "manager" (exampleCodec.write 2) })
      twoCalls = some _ := rfl
  exact ⟨_, hRun, (last_manager_survives_iff hRun rfl 2 rfl).mpr rfl⟩

end Kld.ManagerPersistence
