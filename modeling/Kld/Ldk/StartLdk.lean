import Kld.Database.ChannelMonitors
import Kld.Database.ManagerPersistence
import Kld.KeyGenerator
import Kld.Lib.Fallible
import Kld.Lib.Listing

/-!
# Starts and restarts

The network graph is kept in a file and the rest of the state in the database. A start reads both
and the process that it makes writes both, until it ends. The file is written in place, so that a
write may be cut off.
-/

namespace Kld.StartLdk

open Sql Serial Transition Runtime Fallible
open Kld.ManagerPersistence (QueryError StartedManager isFirstStart fetchChannelManager queryOpt
  persistManager persistScorer writeScorer)

variable {γ σ μ : Type}

/-- How LDK writes its values, and what a node has that has none of them stored. -/
structure Formats (γ σ μ : Type) where
  graph : Codec γ
  scorer : Codec σ
  manager : Codec μ
  monitor : Codec ChannelMonitor
  newGraph : γ
  newScorer : σ

/-- What a start asks the database, the file system and bitcoind for. -/
inductive Request where
  | isFirstStart
  | graph
  | scorer
  | channelMonitors
  | blockchainInfo
  | channelManager
deriving DecidableEq

inductive StartError where
  | refused (request : Request)
  | channelManager (e : ManagerPersistence.StartError)
  | graph
  | scorerQuery (e : QueryError)
  | unableToDeserializeScorer
  | channelMonitor (e : FetchMonitorError)
deriving DecidableEq

structure Started (γ σ μ : Type) where
  networkGraph : γ
  scorer : σ
  channelMonitors : List (BlockHash × ChannelMonitor)
  channelManager : StartedManager μ

def fetchGraph (codec : Codec γ) : Option Bytes → Except StartError (Option γ)
  | none => .ok none
  | some bytes => (codec.read bytes).elim (.error .graph) fun graph => .ok (some graph)

def fetchScorer (codec : Codec σ) (db : Database) : Except StartError (Option σ) :=
  match queryOpt db.scorer.rows with
  | .error e => .error (.scorerQuery e)
  | .ok none => .ok none
  | .ok (some row) =>
    -- `expect` ends the process here.
    (codec.read row.2).elim (.error .unableToDeserializeScorer) fun scorer => .ok (some scorer)

section Start

variable (f : Formats γ σ μ) (refused : Request → Bool)

def ask {α : Type} (request : Request) (answer : Except StartError α) : Except StartError α :=
  if refused request then .error (.refused request) else answer

def startManager (first : Bool) (db : Database) : Except StartError (StartedManager μ) :=
  if first then .ok .new
  else ask refused .channelManager
    (((fetchChannelManager f.manager db).map .restored).mapError .channelManager)

def startLdk (db : Database) (graphFile : Option Bytes) : Except StartError (Started γ σ μ) := do
  let first ← ask refused .isFirstStart
    ((isFirstStart db).mapError fun e => .channelManager (.couldNotCheckInitialized e))
  let graph ← ask refused .graph (fetchGraph f.graph graphFile)
  let scorer ← ask refused .scorer (fetchScorer f.scorer db)
  let channelMonitors ← ask refused .channelMonitors
    ((fetchChannelMonitors f.monitor db.channelMonitors).mapError .channelMonitor)
  ask refused .blockchainInfo (.ok ())
  let channelManager ← startManager f refused first db
  return ⟨graph.getD f.newGraph, scorer.getD f.newScorer, channelMonitors, channelManager⟩

end Start

def writeMonitor (codec : Codec ChannelMonitor) (monitor : ChannelMonitor) :
    Future Database Unit :=
  ⟨fun db => ((), { db with
    channelMonitors := upsertMonitor codec monitor.fundingTxo monitor db.channelMonitors })⟩

def persistNewChannel (codec : Codec ChannelMonitor) (monitor : ChannelMonitor) : Work Database :=
  spawn (writeMonitor codec monitor)

def persistGraph (codec : Codec γ) (graph : γ) (write : KeyGenerator.Write)
    (graphFile : Option Bytes) : Option Bytes :=
  -- An error is logged.
  (KeyGenerator.writeFile write (codec.write graph) graphFile).2

/-- What a running node has in memory. -/
structure Process (γ : Type) where
  graph : γ
  queue : List (Work Database)

structure State (γ : Type) where
  db : Database
  graphFile : Option Bytes
  process : Option (Process γ)

/-- A value that LDK has the node persist in the database. -/
inductive Stored (σ μ : Type) where
  | scorer (scorer : σ)
  | channelManager (manager : μ)
  | channelMonitor (monitor : ChannelMonitor)

def Stored.persist (f : Formats γ σ μ) : Stored σ μ → Work Database
  | .scorer score => persistScorer (f.scorer.write score)
  | .channelManager manager => persistManager f.manager manager
  | .channelMonitor monitor => persistNewChannel f.monitor monitor

inductive Event (γ σ μ : Type) where
  | start (refused : Request → Bool)
  | gossip (graph : γ)
  | persistGraph (write : KeyGenerator.Write)
  | persist (stored : Stored σ μ)
  | finish (work : Nat)
  | ended

def installed (γ : Type) : State γ := ⟨default, none, none⟩

def step (f : Formats γ σ μ) (s : State γ) (e : Event γ σ μ) : Option (State γ) :=
  match s.process, e with
  | none, .start refused =>
    match startLdk f refused s.db s.graphFile with
    | .ok started => some { s with process := some ⟨started.networkGraph, []⟩ }
    | .error _ => some s
  | some p, .gossip graph => some { s with process := some { p with graph } }
  | some p, .persistGraph write =>
    some { s with graphFile := persistGraph f.graph p.graph write s.graphFile }
  | some p, .persist stored =>
    some { s with process := some { p with queue := p.queue ++ [stored.persist f] } }
  | some p, .finish i =>
    p.queue[i]?.map fun work =>
      { s with db := work s.db, process := some { p with queue := p.queue.eraseIdx i } }
  | some _, .ended => some { s with process := none }
  | _, _ => none

/-- The file of the graph, as far as a start can tell. -/
inductive Saved (γ : Type) where
  | absent
  | whole (graph : γ)
  | torn

namespace Saved

/-- What a start finds, unless it fails. -/
def graph (newGraph : γ) : Saved γ → Option γ
  | .absent => some newGraph
  | .whole graph => some graph
  | .torn => none

/-- A write that is cut off before its end leaves nothing of use. -/
def write (size : γ → Nat) (graph : γ) (saved : Saved γ) : KeyGenerator.Write → Saved γ
  | .refused => saved
  | .interrupted written => if written < size graph then .torn else .whole graph
  | .done => .whole graph

end Saved

/-- A node and what it has stored. Channel managers are never stored. -/
structure Node (γ σ μ : Type) where
  saved : Saved γ
  scorer : Option σ
  channelMonitors : OutPoint → Option ChannelMonitor
  process : Option (γ × List (Stored σ μ))

namespace Node

def installed : Node γ σ μ := ⟨.absent, none, fun _ => none, none⟩

def store (n : Node γ σ μ) : Stored σ μ → Node γ σ μ
  | .scorer score => { n with scorer := some score }
  | .channelManager _ => n
  | .channelMonitor monitor => { n with
    channelMonitors := Function.update n.channelMonitors monitor.fundingTxo (some monitor) }

/-- A start of a node without a channel manager gets the answers that it asks for. -/
def Answered (refused : Request → Bool) : Prop :=
  ∀ request ∈ [Request.isFirstStart, .graph, .scorer, .channelMonitors, .blockchainInfo],
    refused request = false

instance (refused : Request → Bool) : Decidable (Answered refused) :=
  inferInstanceAs (Decidable (∀ _ ∈ _, _))

def next (f : Formats γ σ μ) (n : Node γ σ μ) (e : Event γ σ μ) : Node γ σ μ :=
  match n.process, e with
  | none, .start refused =>
    if Answered refused then
      { n with process := (n.saved.graph f.newGraph).map fun graph => (graph, []) }
    else n
  | some p, .gossip graph => { n with process := some (graph, p.2) }
  | some p, .persistGraph write =>
    { n with saved := n.saved.write (fun graph => (f.graph.write graph).length) p.1 write }
  | some p, .persist stored => { n with process := some (p.1, p.2 ++ [stored]) }
  | some p, .finish i =>
    match p.2[i]? with
    | some stored => { n.store stored with process := some (p.1, p.2.eraseIdx i) }
    | none => n
  | some _, .ended => { n with process := none }
  | _, _ => n

def after (f : Formats γ σ μ) (es : List (Event γ σ μ)) : Node γ σ μ :=
  es.foldl (next f) installed

end Node

section Refinement

variable {f : Formats γ σ μ}

/-- What is left of a write that was cut off cannot be read. -/
def Short (codec : Codec γ) : Prop :=
  ∀ graph written, written < (codec.write graph).length →
    codec.read ((codec.write graph).take written) = none

def Holds (codec : Codec γ) (file : Option Bytes) : Saved γ → Prop
  | .absent => file = none
  | .whole graph => file = some (codec.write graph)
  | .torn => ∃ bytes, file = some bytes ∧ codec.read bytes = none

structure Represents (f : Formats γ σ μ) (s : State γ) (n : Node γ σ μ) : Prop where
  graphFile : Holds f.graph s.graphFile n.saved
  process : s.process = n.process.map fun p => ⟨p.1, p.2.map (Stored.persist f)⟩
  channelManager : s.db.channelManager = ∅
  scorer : s.db.scorer =
    n.scorer.elim ∅ fun score => AList.singleton "scorer" (f.scorer.write score)
  channelMonitor : ∀ key row, s.db.channelMonitors.lookup key = some row ↔
    ∃ monitor, n.channelMonitors (ChannelMonitor.fundingTxo monitor) = some monitor ∧
      (monitor.fundingTxo.write, monitorRow f.monitor monitor) = (key, row)
  fundingTxo : ∀ outPoint monitor,
    n.channelMonitors outPoint = some monitor → monitor.fundingTxo = outPoint

variable {s s' t : State γ} {n : Node γ σ μ} {e : Event γ σ μ} {es : List (Event γ σ μ)}
  {refused : Request → Bool}

theorem represents_installed : Represents f (installed γ) (Node.installed : Node γ σ μ) where
  graphFile := rfl
  process := rfl
  channelManager := rfl
  scorer := rfl
  channelMonitor key row := by
    rw [show (installed γ).db.channelMonitors = ∅ from rfl, AList.lookup_empty]
    simp [Node.installed]
  fundingTxo outPoint monitor hSome := by cases hSome

theorem fetchGraph_eq_ok_iff {codec : Codec γ} {file : Option Bytes} {saved : Saved γ}
    (hHolds : Holds codec file saved) {newGraph graph : γ} :
    (∃ found, fetchGraph codec file = .ok found ∧ found.getD newGraph = graph) ↔
      saved.graph newGraph = some graph := by
  cases saved with
  | absent =>
    obtain rfl : file = none := hHolds
    simp [fetchGraph, Saved.graph]
  | whole stored =>
    obtain rfl : file = some (codec.write stored) := hHolds
    simp [fetchGraph, Saved.graph]
  | torn =>
    obtain ⟨bytes, rfl, hRead⟩ := hHolds
    simp [fetchGraph, Saved.graph, hRead]

theorem isFirstStart_eq (h : Represents f s n) : isFirstStart s.db = .ok true := by
  rw [isFirstStart, h.channelManager]
  rfl

theorem fetchScorer_eq (h : Represents f s n) : fetchScorer f.scorer s.db = .ok n.scorer := by
  rw [fetchScorer, h.scorer]
  cases n.scorer with
  | none => rfl
  | some score =>
    change (f.scorer.read (f.scorer.write score)).elim _ _ = _
    rw [f.scorer.read_write]
    rfl

theorem fetchChannelMonitors_eq (h : Represents f s n) :
    ∃ monitors, fetchChannelMonitors f.monitor s.db.channelMonitors =
        .ok (monitors.map fun monitor => (monitor.bestBlockHash, monitor)) ∧
      Lists ChannelMonitor.fundingTxo monitors n.channelMonitors := by
  have hMem : ∀ row, row ∈ s.db.channelMonitors.rows ↔
      ∃ monitor, n.channelMonitors (ChannelMonitor.fundingTxo monitor) = some monitor ∧
        (monitor.fundingTxo.write, monitorRow f.monitor monitor) = row := by
    intro row
    rw [← h.channelMonitor row.1 row.2, Table.mem_rows_iff]
  obtain ⟨monitors, hRows, hList⟩ := Lists.of_rows
    (fun _ _ hSame => OutPoint.write_injective (congrArg Prod.fst hSame))
    (Lists.rows_nodup s.db.channelMonitors) h.fundingTxo hMem
  refine ⟨monitors, ?_, hList⟩
  rw [fetchChannelMonitors, hRows, List.mapM_map]
  exact mapM_ok fun monitor _ => readMonitorRow_eq (f.monitor.read_write monitor)

theorem ask_eq_ok_iff {α : Type} {request : Request} {answer : Except StartError α} {a : α} :
    ask refused request answer = .ok a ↔ refused request = false ∧ answer = .ok a := by
  unfold ask
  cases refused request <;> simp

theorem startLdk_of_graph (h : Represents f s n) (hAnswered : Node.Answered refused) {graph : γ}
    (hGraph : n.saved.graph f.newGraph = some graph) :
    ∃ monitors, startLdk f refused s.db s.graphFile =
        .ok ⟨graph, n.scorer.getD f.newScorer,
          monitors.map fun monitor => (monitor.bestBlockHash, monitor), .new⟩ ∧
      Lists ChannelMonitor.fundingTxo monitors n.channelMonitors := by
  obtain ⟨monitors, hFetch, hList⟩ := fetchChannelMonitors_eq h
  obtain ⟨found, hFound, rfl⟩ := (fetchGraph_eq_ok_iff h.graphFile).mpr hGraph
  have hAsk : ∀ request ∈ [Request.isFirstStart, .graph, .scorer, .channelMonitors,
      .blockchainInfo], ∀ {α : Type} (answer : Except StartError α),
      ask refused request answer = answer := by
    intro request hMem α answer
    rw [ask, hAnswered request hMem]
    rfl
  refine ⟨monitors, ?_, hList⟩
  rw [startLdk, isFirstStart_eq h, hFound, fetchScorer_eq h, hFetch, hAsk .isFirstStart (by simp),
    hAsk .graph (by simp), hAsk .scorer (by simp), hAsk .channelMonitors (by simp),
    hAsk .blockchainInfo (by simp)]
  rfl

theorem graph_of_startLdk (h : Represents f s n) {started : Started γ σ μ}
    (hOk : startLdk f refused s.db s.graphFile = .ok started) :
    Node.Answered refused ∧ n.saved.graph f.newGraph = some started.networkGraph := by
  obtain ⟨first, hFirst, hOk⟩ := ok_of_bind hOk
  obtain ⟨graph, hGraph, hOk⟩ := ok_of_bind hOk
  obtain ⟨score, hScore, hOk⟩ := ok_of_bind hOk
  obtain ⟨monitors, hMonitors, hOk⟩ := ok_of_bind hOk
  obtain ⟨_, hInfo, hOk⟩ := ok_of_bind hOk
  obtain ⟨manager, _, hOk⟩ := ok_of_bind hOk
  cases hOk
  refine ⟨?_, (fetchGraph_eq_ok_iff h.graphFile).mp ⟨graph, (ask_eq_ok_iff.mp hGraph).2, rfl⟩⟩
  simp only [Node.Answered, List.forall_mem_cons]
  exact ⟨(ask_eq_ok_iff.mp hFirst).1, (ask_eq_ok_iff.mp hGraph).1, (ask_eq_ok_iff.mp hScore).1,
    (ask_eq_ok_iff.mp hMonitors).1, (ask_eq_ok_iff.mp hInfo).1,
    fun _ hMem => absurd hMem List.not_mem_nil⟩

theorem holds_persistGraph (hShort : Short f.graph) {file : Option Bytes} {saved : Saved γ}
    (hHolds : Holds f.graph file saved) (graph : γ) (write : KeyGenerator.Write) :
    Holds f.graph (persistGraph f.graph graph write file)
      (saved.write (fun graph => (f.graph.write graph).length) graph write) := by
  cases write with
  | refused => exact hHolds
  | interrupted written =>
    rw [Saved.write]
    split
    · rename_i hCut
      exact ⟨_, rfl, hShort graph written hCut⟩
    · rename_i hWhole
      exact congrArg some (List.take_of_length_le (Nat.le_of_not_lt hWhole))
  | done => rfl

theorem represents_store (h : Represents f s n) (stored : Stored σ μ) :
    Represents f { s with db := stored.persist f s.db } (n.store stored) := by
  cases stored with
  | scorer score =>
    refine { h with scorer := ?_ }
    change s.db.scorer.upsert "scorer" (f.scorer.write score) _ = _
    rw [Table.upsert_row, h.scorer]
    cases n.scorer with
    | none => rfl
    | some old => exact AList.insert_singleton_eq
  | channelManager manager =>
    rw [Stored.persist, ManagerPersistence.persistManager_eq_id]
    exact h
  | channelMonitor monitor =>
    exact { h with
      channelMonitor := lookup_upsert_iff (fun _ _ => OutPoint.write_injective.eq_iff)
        h.channelMonitor monitor
      fundingTxo := forall_update rfl h.fundingTxo }

theorem represents_next (hShort : Short f.graph) (h : Represents f s n)
    (hStep : step f s e = some s') : Represents f s' (n.next f e) := by
  cases hNode : n.process with
  | none =>
    have hNone : s.process = none := by rw [h.process, hNode]; rfl
    cases e with
    | start refused =>
      simp only [step, hNone] at hStep
      simp only [Node.next, hNode]
      split at hStep
      · rename_i started hOk
        cases hStep
        obtain ⟨hAnswered, hGraph⟩ := graph_of_startLdk h hOk
        rw [if_pos hAnswered, hGraph]
        exact { h with process := rfl }
      · rename_i error hError
        cases hStep
        split
        · rename_i hAnswered
          have hTorn : n.saved.graph f.newGraph = none := by
            refine Option.eq_none_iff_forall_ne_some.mpr fun graph hGraph => ?_
            obtain ⟨monitors, hOk, _⟩ := startLdk_of_graph h hAnswered hGraph
            rw [hOk] at hError
            cases hError
          rw [hTorn]
          exact { h with process := hNone }
        · exact h
    | _ => simp [step, hNone] at hStep
  | some p =>
    have hSome : s.process = some ⟨p.1, p.2.map (Stored.persist f)⟩ := by
      rw [h.process, hNode]
      rfl
    cases e with
    | start refused => simp [step, hSome] at hStep
    | gossip graph =>
      simp only [step, hSome, Option.some.injEq] at hStep
      simp only [Node.next, hNode]
      subst hStep
      exact { h with process := rfl }
    | persistGraph write =>
      simp only [step, hSome, Option.some.injEq] at hStep
      simp only [Node.next, hNode]
      subst hStep
      exact { h with
        graphFile := holds_persistGraph hShort h.graphFile p.1 write
        process := rfl }
    | persist stored =>
      simp only [step, hSome, Option.some.injEq] at hStep
      simp only [Node.next, hNode]
      subst hStep
      exact { h with process := by simp }
    | finish i =>
      simp only [step, hSome, Option.map_eq_some_iff, List.getElem?_map] at hStep
      simp only [Node.next, hNode]
      obtain ⟨work, hWork, rfl⟩ := hStep
      obtain ⟨stored, hGet, rfl⟩ := hWork
      rw [hGet]
      exact { represents_store h stored with process := by simp [List.eraseIdx_map] }
    | ended =>
      simp only [step, hSome, Option.some.injEq] at hStep
      simp only [Node.next, hNode]
      subst hStep
      exact { h with process := rfl }

theorem represents_run (hShort : Short f.graph) (h : Represents f s n)
    (hRun : run (step f) s es = some t) : Represents f t (es.foldl (Node.next f) n) := by
  induction es generalizing s n with
  | nil =>
    obtain rfl := Option.some.inj hRun
    exact h
  | cons e es ih =>
    obtain ⟨s', hStep, hRest⟩ := run_cons_eq_some hRun
    exact ih (represents_next hShort h hStep) hRest

theorem Saved.exists_graph_iff {saved : Saved γ} {newGraph : γ} :
    (∃ graph, saved.graph newGraph = some graph) ↔ saved ≠ .torn := by
  cases saved <;> simp [Saved.graph]

/-- A start succeeds exactly if its requests are answered and the last write of the graph was not
cut off. It then has the graph and the scorer that were stored last and all monitors that were,
and a new channel manager, whatever was persisted. -/
theorem startLdk_after_run (hShort : Short f.graph) (hRun : run (step f) (installed γ) es = some t)
    (refused : Request → Bool) :
    ((∃ started, startLdk f refused t.db t.graphFile = .ok started) ↔
        Node.Answered refused ∧ (Node.after f es).saved ≠ .torn) ∧
      ∀ started, startLdk f refused t.db t.graphFile = .ok started →
        (Node.after f es).saved.graph f.newGraph = some started.networkGraph ∧
          started.scorer = (Node.after f es).scorer.getD f.newScorer ∧
          Lists (fun found => ChannelMonitor.fundingTxo found.2) started.channelMonitors
            (fun outPoint => ((Node.after f es).channelMonitors outPoint).map fun monitor =>
              (monitor.bestBlockHash, monitor)) ∧
          started.channelManager = .new := by
  have h : Represents f t (Node.after f es) := represents_run hShort represents_installed hRun
  refine ⟨⟨fun ⟨started, hOk⟩ => ?_, fun ⟨hAnswered, hWhole⟩ => ?_⟩, fun started hOk => ?_⟩
  · obtain ⟨hAnswered, hGraph⟩ := graph_of_startLdk h hOk
    exact ⟨hAnswered, Saved.exists_graph_iff.mp ⟨_, hGraph⟩⟩
  · obtain ⟨graph, hGraph⟩ := Saved.exists_graph_iff.mpr hWhole
    obtain ⟨monitors, hOk, _⟩ := startLdk_of_graph h hAnswered hGraph
    exact ⟨_, hOk⟩
  · obtain ⟨hAnswered, hGraph⟩ := graph_of_startLdk h hOk
    obtain ⟨monitors, hStart, hList⟩ := startLdk_of_graph h hAnswered hGraph
    rw [← Except.ok.inj (hStart.symm.trans hOk)]
    exact ⟨hGraph, rfl, hList.map _ fun _ => rfl, rfl⟩

/-- The node is down and the file of its graph cannot be read. -/
def Node.Lost (n : Node γ σ μ) : Prop := n.process = none ∧ n.saved = .torn

theorem lost_next (hLost : n.Lost) (e : Event γ σ μ) : (n.next f e).Lost := by
  obtain ⟨hDown, hTorn⟩ := hLost
  cases e with
  | start refused =>
    simp only [Node.next, hDown]
    split
    · exact ⟨by rw [hTorn]; rfl, hTorn⟩
    · exact ⟨hDown, hTorn⟩
  | _ =>
    simp only [Node.next, hDown]
    exact ⟨hDown, hTorn⟩

theorem lost_foldl (hLost : n.Lost) (es : List (Event γ σ μ)) :
    (es.foldl (Node.next f) n).Lost := by
  induction es generalizing n with
  | nil => exact hLost
  | cons e es ih => exact ih (lost_next hLost e)

/-- A node that went down in a write of its graph stays down, and any other can be started. -/
theorem down_for_good_iff (hShort : Short f.graph) (hRun : run (step f) (installed γ) es = some t) :
    (∀ es' u, run (step f) t es' = some u → u.process = none) ↔
      (Node.after f es).Lost := by
  have h : Represents f t (Node.after f es) := represents_run hShort represents_installed hRun
  constructor
  · intro hDown
    have hProcess : t.process = none := hDown [] t rfl
    have hNone : (Node.after f es).process = none := by
      rw [h.process, Option.map_eq_none_iff] at hProcess
      exact hProcess
    refine ⟨hNone, ?_⟩
    by_contra hWhole
    obtain ⟨graph, hGraph⟩ := Saved.exists_graph_iff.mpr hWhole
    have hAnswered : Node.Answered fun _ => false := fun _ _ => rfl
    obtain ⟨monitors, hStart, _⟩ := startLdk_of_graph h hAnswered hGraph
    have hStep : step f t (.start fun _ => false) =
        some { t with process := some ⟨graph, []⟩ } := by
      simp only [step, hProcess, hStart]
    have hUp := hDown [.start fun _ => false] _ (by rw [run_cons, hStep]; rfl)
    cases hUp
  · intro hLost es' u hRest
    have hEnd := represents_run hShort h hRest
    rw [hEnd.process, (lost_foldl hLost es').1]
    rfl

end Refinement

section Example

def exampleByte : Codec UInt8 where
  write byte := [byte]
  read
    | [byte] => some byte
    | _ => none
  read_write _ := rfl

def exampleFormats : Formats UInt8 UInt8 UInt8 :=
  ⟨exampleByte, exampleByte, exampleByte, .ofEncodable ChannelMonitor, 0, 0⟩

theorem short_exampleByte : Short exampleFormats.graph := by
  intro graph written hCut
  obtain rfl : written = 0 := Nat.lt_one_iff.mp hCut
  rfl

def storedRun : List (Event UInt8 UInt8 UInt8) :=
  [.start fun _ => false, .gossip 7, .persistGraph .done, .persist (.channelManager 1), .finish 0,
    .ended]

theorem example_startLdk_after_run :
    ∃ s started, run (step exampleFormats) (installed UInt8) storedRun = some s ∧
      startLdk exampleFormats (fun _ => false) s.db s.graphFile = .ok started ∧
      started.channelManager = .new := by
  have hRun : run (step exampleFormats) (installed UInt8) storedRun = some _ := rfl
  have hStart := startLdk_after_run short_exampleByte hRun fun _ => false
  have hWhole : (Node.after exampleFormats storedRun).saved ≠ .torn := fun hTorn => by cases hTorn
  obtain ⟨started, hOk⟩ := hStart.1.mpr ⟨fun _ _ => rfl, hWhole⟩
  exact ⟨_, started, hRun, hOk, (hStart.2 started hOk).2.2.2⟩

/-- The process ends after the file was truncated. -/
def cutRun : List (Event UInt8 UInt8 UInt8) :=
  [.start fun _ => false, .persistGraph (.interrupted 0), .ended]

theorem example_down_for_good_iff :
    ∃ s, run (step exampleFormats) (installed UInt8) cutRun = some s ∧
      ∀ es u, run (step exampleFormats) s es = some u → u.process = none := by
  have hRun : run (step exampleFormats) (installed UInt8) cutRun = some _ := rfl
  exact ⟨_, hRun, (down_for_good_iff short_exampleByte hRun).mpr ⟨rfl, rfl⟩⟩

end Example

end Kld.StartLdk
