import Kld.Lib.Run

/-!
# The connection to the database

Calls share one client under a lock and a task replaces it when its connection is closed.
A connection has a task of its own, whose handle is replaced after the client. To disconnect
is to abort the one task and then, by the handle, the other.
-/

namespace Kld.DurableConnection

open Transition

/-- Connections are numbered in the order in which they are made. -/
abbrev Connection := Nat

/-- Where the task has come to that keeps the client connected. -/
inductive Phase where
  | sleeping
  | woken
  | waiting
  | connecting
  | connected (connection : Connection)
  | stored (connection : Connection)
  | ended
deriving DecidableEq

/-- The task has the lock to itself. -/
def Phase.writing : Phase → Bool
  | .connecting => true
  | .connected _ => true
  | .stored _ => true
  | _ => false

/-- The client was closed when the task looked, and is still the same. -/
def Phase.sawClosed : Phase → Bool
  | .waiting => true
  | .connecting => true
  | .connected _ => true
  | _ => false

/-- The task may have to wait here, and does not go on when it was aborted. -/
def Phase.awaits : Phase → Bool
  | .connected _ => false
  | .stored _ => false
  | .ended => false
  | _ => true

structure State where
  next : Connection
  alive : List Connection
  client : Connection
  connectionTask : Connection
  guards : List (Nat × Connection)
  phase : Phase
  aborted : Bool

def newMigrate : State where
  next := 1
  alive := [0]
  client := 0
  connectionTask := 0
  guards := []
  phase := .woken
  aborted := false

/-- A connection is lost, a call gets a guard of the client and drops it, the task makes a step,
or the two steps of `disconnect` are made. -/
inductive Event where
  | lost (connection : Connection)
  | get (caller : Nat)
  | release (guard : Nat × Connection)
  | wake
  | check
  | lock
  | createConnection (made : Bool)
  | storeClient
  | storeTask
  | cancel
  | abortReconnect
  | abortConnection
deriving DecidableEq

def close (connection : Connection) (s : State) : State :=
  { s with alive := s.alive.filter (· ≠ connection) }

def step (s : State) : Event → Option State
  | .lost connection => some (close connection s)
  | .get caller =>
    if s.phase.writing then none
    else some { s with guards := (caller, s.client) :: s.guards }
  | .release guard =>
    if guard ∈ s.guards then some { s with guards := s.guards.erase guard } else none
  | .wake =>
    if s.phase = .sleeping ∧ s.aborted = false then some { s with phase := .woken } else none
  | .check =>
    if s.phase = .woken then
      some { s with phase := if s.client ∈ s.alive then .sleeping else .waiting }
    else none
  | .lock =>
    if s.phase = .waiting ∧ s.guards = [] then some { s with phase := .connecting } else none
  | .createConnection made =>
    if s.phase = .connecting then
      if made then
        some { s with
          next := s.next + 1, alive := s.next :: s.alive, phase := .connected s.next }
      else some { s with phase := .sleeping }
    else none
  | .storeClient =>
    match s.phase with
    -- The client that was there is dropped.
    | .connected connection =>
      some { close s.client s with client := connection, phase := .stored connection }
    | _ => none
  | .storeTask =>
    match s.phase with
    | .stored connection => some { s with connectionTask := connection, phase := .sleeping }
    | _ => none
  | .cancel => if s.aborted ∧ s.phase.awaits then some { s with phase := .ended } else none
  | .abortReconnect => some { s with aborted := true }
  | .abortConnection => if s.aborted then some (close s.connectionTask s) else none

variable {s s' t : State} {e : Event} {es : List Event}

/-- What the events do, with what each of them finds. -/
inductive Move (s : State) : Event → State → Prop where
  | lost (connection : Connection) : Move s (.lost connection) (close connection s)
  | get {caller : Nat} (hFree : s.phase.writing = false) :
      Move s (.get caller) { s with guards := (caller, s.client) :: s.guards }
  | release {guard : Nat × Connection} (hGuard : guard ∈ s.guards) :
      Move s (.release guard) { s with guards := s.guards.erase guard }
  | wake (hAsleep : s.phase = .sleeping) (hKept : s.aborted = false) :
      Move s .wake { s with phase := .woken }
  | sawOpen (hWoken : s.phase = .woken) (hAlive : s.client ∈ s.alive) :
      Move s .check { s with phase := .sleeping }
  | sawClosed (hWoken : s.phase = .woken) (hClosed : s.client ∉ s.alive) :
      Move s .check { s with phase := .waiting }
  | lock (hWaiting : s.phase = .waiting) (hFree : s.guards = []) :
      Move s .lock { s with phase := .connecting }
  | created (hConnecting : s.phase = .connecting) : Move s (.createConnection true)
      { s with next := s.next + 1, alive := s.next :: s.alive, phase := .connected s.next }
  | notCreated (hConnecting : s.phase = .connecting) :
      Move s (.createConnection false) { s with phase := .sleeping }
  | storeClient {c : Connection} (hConnected : s.phase = .connected c) :
      Move s .storeClient { close s.client s with client := c, phase := .stored c }
  | storeTask {c : Connection} (hStored : s.phase = .stored c) :
      Move s .storeTask { s with connectionTask := c, phase := .sleeping }
  | cancel (hAborted : s.aborted = true) (hAwaits : s.phase.awaits = true) :
      Move s .cancel { s with phase := .ended }
  | abortReconnect : Move s .abortReconnect { s with aborted := true }
  | abortConnection (hAborted : s.aborted = true) :
      Move s .abortConnection (close s.connectionTask s)

theorem move_of_step (h : step s e = some s') : Move s e s' := by
  cases e with
  | lost connection =>
    cases h
    exact .lost connection
  | get caller =>
    simp only [step] at h
    split at h
    · cases h
    · rename_i hFree
      cases h
      exact .get (eq_false_of_ne_true hFree)
  | release guard =>
    simp only [step] at h
    split at h
    · rename_i hGuard
      cases h
      exact .release hGuard
    · cases h
  | wake =>
    simp only [step] at h
    split at h
    · rename_i hAsleep
      cases h
      exact .wake hAsleep.1 hAsleep.2
    · cases h
  | check =>
    simp only [step] at h
    split at h
    · rename_i hWoken
      cases h
      split
      · rename_i hAlive
        exact .sawOpen hWoken hAlive
      · rename_i hClosed
        exact .sawClosed hWoken hClosed
    · cases h
  | lock =>
    simp only [step] at h
    split at h
    · rename_i hWaiting
      cases h
      exact .lock hWaiting.1 hWaiting.2
    · cases h
  | createConnection made =>
    simp only [step] at h
    split at h
    · rename_i hConnecting
      cases made with
      | true =>
        cases h
        exact .created hConnecting
      | false =>
        cases h
        exact .notCreated hConnecting
    · cases h
  | storeClient =>
    simp only [step] at h
    split at h
    · rename_i c hConnected
      cases h
      exact .storeClient hConnected
    · cases h
  | storeTask =>
    simp only [step] at h
    split at h
    · rename_i c hStored
      cases h
      exact .storeTask hStored
    · cases h
  | cancel =>
    simp only [step] at h
    split at h
    · rename_i hCancel
      cases h
      exact .cancel hCancel.1 hCancel.2
    · cases h
  | abortReconnect =>
    cases h
    exact .abortReconnect
  | abortConnection =>
    simp only [step] at h
    split at h
    · rename_i hAborted
      cases h
      exact .abortConnection hAborted
    · cases h

/-- The connection made last is the only one that may be open. It belongs to the client, unless
the task still has it to itself, and its handle is kept, unless the task is about to store it. -/
structure Inv (s : State) : Prop where
  newest : ∀ c ∈ s.alive, c + 1 = s.next
  fresh : ∀ c, s.phase = .connected c → c + 1 = s.next ∧ s.client < c
  latest : (∀ c, s.phase ≠ .connected c) → s.client + 1 = s.next
  closed : s.phase.sawClosed = true → s.client ∉ s.alive
  handle : (∀ c, s.phase ≠ .stored c) → s.connectionTask = s.client
  stored : ∀ c, s.phase = .stored c → s.client = c ∧ s.connectionTask < c
  guards : ∀ guard ∈ s.guards, guard.2 = s.client
  locked : s.phase.writing = true → s.guards = []
  ended : s.phase = .ended → s.aborted = true

theorem inv_newMigrate : Inv newMigrate where
  newest c hMem := by rw [List.mem_singleton.mp hMem]; rfl
  fresh c hPhase := nomatch hPhase
  latest _ := rfl
  closed hSaw := nomatch hSaw
  handle _ := rfl
  stored c hPhase := nomatch hPhase
  guards guard hMem := absurd hMem List.not_mem_nil
  locked hWriting := nomatch hWriting
  ended hEnded := nomatch hEnded

theorem mem_close {c connection : Connection} :
    c ∈ (close connection s).alive ↔ c ∈ s.alive ∧ c ≠ connection := by
  simp [close]

theorem Inv.close (hInv : Inv s) (connection : Connection) : Inv (close connection s) where
  newest c hMem := hInv.newest c (mem_close.mp hMem).1
  fresh := hInv.fresh
  latest := hInv.latest
  closed hSaw hMem := hInv.closed hSaw (mem_close.mp hMem).1
  handle := hInv.handle
  stored := hInv.stored
  guards := hInv.guards
  locked := hInv.locked
  ended := hInv.ended

/-- The task goes on without a change of what it shares. -/
theorem Inv.phase (hInv : Inv s) {phase : Phase}
    (hOld : ∀ c, s.phase ≠ .connected c ∧ s.phase ≠ .stored c)
    (hNew : ∀ c, phase ≠ .connected c ∧ phase ≠ .stored c)
    (hClosed : phase.sawClosed = true → s.client ∉ s.alive)
    (hLocked : phase.writing = true → s.guards = [])
    (hEnded : phase = .ended → s.aborted = true) : Inv { s with phase } where
  newest := hInv.newest
  fresh c hPhase := absurd hPhase (hNew c).1
  latest _ := hInv.latest fun c => (hOld c).1
  closed := hClosed
  handle _ := hInv.handle fun c => (hOld c).2
  stored c hPhase := absurd hPhase (hNew c).2
  guards := hInv.guards
  locked := hLocked
  ended := hEnded

theorem Inv.created (hInv : Inv s) (hConnecting : s.phase = .connecting)
    (hClosed : s.client ∉ s.alive) :
    Inv { s with next := s.next + 1, alive := s.next :: s.alive, phase := .connected s.next } := by
  have hLatest := hInv.latest fun c => by simp [hConnecting]
  have hNone : s.alive = [] := by
    refine List.eq_nil_iff_forall_not_mem.mpr fun c hMem => hClosed ?_
    obtain rfl : c = s.client := Nat.succ.inj ((hInv.newest c hMem).trans hLatest.symm)
    exact hMem
  have hBefore : s.client < s.next := hLatest ▸ Nat.lt_succ_self s.client
  exact { newest := fun c hMem => by rw [hNone, List.mem_singleton] at hMem; rw [hMem]
          fresh := fun c hPhase => by cases hPhase; exact ⟨rfl, hBefore⟩
          latest := fun hNot => absurd rfl (hNot s.next)
          closed := fun _ hMem => by
            rw [hNone, List.mem_singleton] at hMem
            exact absurd hMem (Nat.ne_of_lt hBefore)
          handle := fun _ => hInv.handle fun c => by simp [hConnecting]
          stored := nofun
          guards := hInv.guards
          locked := fun _ => hInv.locked (by rw [hConnecting]; rfl)
          ended := nofun }

theorem Inv.storedClient (hInv : Inv s) {c : Connection} (hConnected : s.phase = .connected c) :
    Inv { DurableConnection.close s.client s with client := c, phase := .stored c } where
  newest c' hMem := hInv.newest c' (mem_close.mp hMem).1
  fresh := nofun
  latest _ := (hInv.fresh c hConnected).1
  closed := nofun
  handle hNot := absurd rfl (hNot c)
  stored c' hPhase := by
    obtain rfl := Phase.stored.inj hPhase
    have hHandle := hInv.handle fun c => by simp [hConnected]
    exact ⟨rfl, hHandle ▸ (hInv.fresh c hConnected).2⟩
  guards guard hMem := by
    have hNone := hInv.locked (by rw [hConnected]; rfl)
    exact absurd (hNone ▸ hMem : guard ∈ []) List.not_mem_nil
  locked _ := hInv.locked (by rw [hConnected]; rfl)
  ended := nofun

theorem Inv.storedTask (hInv : Inv s) {c : Connection} (hStored : s.phase = .stored c) :
    Inv { s with connectionTask := c, phase := .sleeping } where
  newest := hInv.newest
  fresh := nofun
  latest _ := hInv.latest fun c => by simp [hStored]
  closed := nofun
  handle _ := (hInv.stored c hStored).1.symm
  stored := nofun
  guards := hInv.guards
  locked := nofun
  ended := nofun

theorem inv_step (hInv : Inv s) (h : step s e = some s') : Inv s' := by
  cases move_of_step h with
  | lost connection => exact hInv.close connection
  | get hFree =>
    exact { hInv with
      guards := List.forall_mem_cons.mpr ⟨rfl, hInv.guards⟩
      locked := fun hWriting => by simp [hFree] at hWriting }
  | release _ =>
    exact { hInv with
      guards := fun g hMem => hInv.guards g (List.mem_of_mem_erase hMem)
      locked := fun hWriting => by simp [hInv.locked hWriting] }
  | wake hAsleep _ => exact hInv.phase (by simp [hAsleep]) (by simp) nofun nofun nofun
  | sawOpen hWoken _ => exact hInv.phase (by simp [hWoken]) (by simp) nofun nofun nofun
  | sawClosed hWoken hClosed =>
    exact hInv.phase (by simp [hWoken]) (by simp) (fun _ => hClosed) nofun nofun
  | lock hWaiting hFree =>
    have hClosed := hInv.closed (by rw [hWaiting]; rfl)
    exact hInv.phase (by simp [hWaiting]) (by simp) (fun _ => hClosed) (fun _ => hFree) nofun
  | created hConnecting =>
    exact hInv.created hConnecting (hInv.closed (by rw [hConnecting]; rfl))
  | notCreated hConnecting =>
    exact hInv.phase (by simp [hConnecting]) (by simp) nofun nofun nofun
  | storeClient hConnected => exact hInv.storedClient hConnected
  | storeTask hStored => exact hInv.storedTask hStored
  | cancel hAborted hAwaits =>
    refine hInv.phase (fun c => ⟨fun hPhase => ?_, fun hPhase => ?_⟩) (by simp) nofun nofun
      fun _ => hAborted
    · simp [hPhase, Phase.awaits] at hAwaits
    · simp [hPhase, Phase.awaits] at hAwaits
  | abortReconnect => exact { hInv with ended := fun _ => rfl }
  | abortConnection _ => exact hInv.close s.connectionTask

theorem inv_run (hRun : run step newMigrate es = some t) : Inv t :=
  invariant_run (fun _ _ _ hInv hStep => inv_step hInv hStep) inv_newMigrate hRun

section Restoring

theorem exists_released (hInv : Inv s) : ∃ es, run step s es = some { s with guards := [] } := by
  generalize hGuards : s.guards = guards
  induction guards generalizing s with
  | nil =>
    refine ⟨[], ?_⟩
    rw [run_nil, ← hGuards]
  | cons guard guards ih =>
    have hStep : step s (.release guard) = some { s with guards := guards } := by
      simp [step, hGuards]
    obtain ⟨es, hRun⟩ := ih (inv_step hInv hStep) rfl
    exact ⟨.release guard :: es, by rw [run_cons, hStep]; exact hRun⟩

/-- The task gets through its round. -/
theorem exists_sleeping (hInv : Inv s) (hFree : s.guards = []) (hKept : s.aborted = false) :
    ∃ es t, run step s es = some t ∧ t.phase = .sleeping ∧ t.guards = [] ∧ t.aborted = false := by
  cases hPhase : s.phase with
  | sleeping => exact ⟨[], s, rfl, hPhase, hFree, hKept⟩
  | woken =>
    by_cases hAlive : s.client ∈ s.alive
    · exact ⟨[.check], { s with phase := .sleeping }, by simp [step, hPhase, hAlive], rfl, hFree,
        hKept⟩
    · exact ⟨[.check, .lock, .createConnection false], { s with phase := .sleeping },
        by simp [step, hPhase, hAlive, hFree], rfl, hFree, hKept⟩
  | waiting =>
    exact ⟨[.lock, .createConnection false], { s with phase := .sleeping },
      by simp [step, hPhase, hFree], rfl, hFree, hKept⟩
  | connecting =>
    exact ⟨[.createConnection false], { s with phase := .sleeping }, by simp [step, hPhase], rfl,
      hFree, hKept⟩
  | connected c =>
    exact ⟨[.storeClient, .storeTask], { close s.client s with
      client := c, connectionTask := c, phase := .sleeping }, by simp [step, hPhase, close], rfl,
      hFree, hKept⟩
  | stored c =>
    exact ⟨[.storeTask], { s with connectionTask := c, phase := .sleeping },
      by simp [step, hPhase], rfl, hFree, hKept⟩
  | ended => exact absurd (hInv.ended hPhase) (by simp [hKept])

/-- A round in which the server answers. -/
theorem exists_reconnected (hInv : Inv s) (hAsleep : s.phase = .sleeping) (hFree : s.guards = [])
    (hKept : s.aborted = false) : ∃ es t, run step s es = some t ∧ t.client ∈ t.alive := by
  by_cases hAlive : s.client ∈ s.alive
  · exact ⟨[], s, rfl, hAlive⟩
  · have hLatest := hInv.latest fun c => by simp [hAsleep]
    refine ⟨[.wake, .check, .lock, .createConnection true, .storeClient, .storeTask],
      { close s.client { s with alive := s.next :: s.alive } with
        next := s.next + 1, client := s.next, connectionTask := s.next, phase := .sleeping },
      ?_, ?_⟩
    · simp [step, hAsleep, hKept, hAlive, hFree, close]
    · refine mem_close.mpr ⟨List.mem_cons_self, ?_⟩
      rw [← hLatest]
      exact Nat.succ_ne_self s.client

theorem exists_restored (hInv : Inv s) (hKept : s.aborted = false) :
    ∃ es t, run step s es = some t ∧ t.client ∈ t.alive := by
  obtain ⟨es₁, hReleased⟩ := exists_released hInv
  have hInv₁ := invariant_run (fun _ _ _ hInv hStep => inv_step hInv hStep) hInv hReleased
  obtain ⟨es₂, s₂, hRound, hAsleep, hFree, hKept₂⟩ := exists_sleeping hInv₁ rfl hKept
  have hInv₂ := invariant_run (fun _ _ _ hInv hStep => inv_step hInv hStep) hInv₁ hRound
  obtain ⟨es₃, t, hReconnect, hAlive⟩ := exists_reconnected hInv₂ hAsleep hFree hKept₂
  refine ⟨es₁ ++ (es₂ ++ es₃), t, ?_, hAlive⟩
  rw [run_append, hReleased, Option.bind_some, run_append, hRound, Option.bind_some, hReconnect]

end Restoring

def Event.ofTask : Event → Bool
  | .lost _ => false
  | .get _ => false
  | .release _ => false
  | .abortReconnect => false
  | .abortConnection => false
  | _ => true

/-- What a step leaves alone that is not one of the task. -/
structure Quiet (s s' : State) : Prop where
  next : s'.next = s.next
  client : s'.client = s.client
  connectionTask : s'.connectionTask = s.connectionTask
  phase : s'.phase = s.phase
  aborted : s.aborted = true → s'.aborted = true
  alive : ∀ c ∈ s'.alive, c ∈ s.alive

theorem quiet_close (connection : Connection) : Quiet s (close connection s) :=
  ⟨rfl, rfl, rfl, rfl, id, fun _ hMem => (mem_close.mp hMem).1⟩

theorem quiet_step (h : step s e = some s') (hOther : e.ofTask = false) : Quiet s s' := by
  cases move_of_step h with
  | lost connection => exact quiet_close connection
  | get _ => exact ⟨rfl, rfl, rfl, rfl, id, fun _ hMem => hMem⟩
  | release _ => exact ⟨rfl, rfl, rfl, rfl, id, fun _ hMem => hMem⟩
  | abortReconnect => exact ⟨rfl, rfl, rfl, rfl, fun _ => rfl, fun _ hMem => hMem⟩
  | abortConnection _ => exact quiet_close s.connectionTask
  | _ => cases hOther

theorem client_step (h : step s e = some s') :
    s'.client = s.client ∨ e = .storeClient ∧ ∃ c, s.phase = .connected c := by
  cases move_of_step h with
  | storeClient hConnected => exact Or.inr ⟨rfl, _, hConnected⟩
  | _ => exact Or.inl rfl

/-- Whatever calls, losses and steps of the task are interleaved: no client is replaced that is
open or that a call has a guard of, at most one connection is open, and as long as the task is not
aborted the client can be connected again. -/
theorem shared_client (hRun : run step newMigrate es = some t) :
    (∀ guard ∈ t.guards, guard.2 = t.client) ∧ (∀ c ∈ t.alive, ∀ c' ∈ t.alive, c = c') ∧
      (∀ e t', step t e = some t' → t'.client ≠ t.client → t.client ∉ t.alive ∧ t.guards = []) ∧
      (t.aborted = false → ∃ es' u, run step t es' = some u ∧ u.client ∈ u.alive) := by
  have hInv := inv_run hRun
  refine ⟨hInv.guards, fun c hMem c' hMem' => ?_, fun e t' hStep hNew => ?_, exists_restored hInv⟩
  · exact Nat.succ.inj ((hInv.newest c hMem).trans (hInv.newest c' hMem').symm)
  · obtain hSame | ⟨_, c, hConnected⟩ := client_step hStep
    · exact absurd hSame hNew
    · exact ⟨hInv.closed (by rw [hConnected]; rfl), hInv.locked (by rw [hConnected]; rfl)⟩

section Disconnecting

/-- The task is in a round and has no new connection yet. -/
def Phase.early : Phase → Bool
  | .woken => true
  | .waiting => true
  | .connecting => true
  | _ => false

/-- The connection is made in the round that the task is in. -/
def MadeInRound (s : State) (c : Connection) : Prop :=
  s.phase = .connected c ∨ s.phase = .stored c ∨ s.phase.early = true ∧ c = s.next

/-- What a task that was aborted in the state `s` has come to: it may have gone on with its round,
but began no other. -/
structure Winding (s t : State) : Prop where
  aborted : t.aborted = true
  made : t.next ≤ s.next + 1
  early : t.phase.early = true → s.phase.early = true ∧ t.next = s.next
  late : s.phase.early = false → t.next = s.next

variable {u u' : State}

theorem winding_start (hAborted : t.aborted = true) (hNext : t.next = s.next)
    (hPhase : t.phase = s.phase) : Winding s t where
  aborted := hAborted
  made := hNext ▸ Nat.le_succ s.next
  early hEarly := ⟨hPhase ▸ hEarly, hNext⟩
  late _ := hNext

theorem winding_step (hWinding : Winding s u) (h : step u e = some u') : Winding s u' := by
  obtain ⟨hAborted, hMade, hEarly, hLate⟩ := hWinding
  cases move_of_step h with
  | wake _ hKept => simp [hAborted] at hKept
  | sawOpen _ _ => exact ⟨hAborted, hMade, nofun, hLate⟩
  | sawClosed hWoken _ => exact ⟨hAborted, hMade, fun _ => hEarly (by rw [hWoken]; rfl), hLate⟩
  | lock hWaiting _ => exact ⟨hAborted, hMade, fun _ => hEarly (by rw [hWaiting]; rfl), hLate⟩
  | created hConnecting =>
    obtain ⟨hOwn, hNext⟩ := hEarly (by rw [hConnecting]; rfl)
    exact ⟨hAborted, Nat.le_of_eq (congrArg Nat.succ hNext), nofun,
      fun hNot => by simp [hOwn] at hNot⟩
  | notCreated _ => exact ⟨hAborted, hMade, nofun, hLate⟩
  | storeClient _ => exact ⟨hAborted, hMade, nofun, hLate⟩
  | storeTask _ => exact ⟨hAborted, hMade, nofun, hLate⟩
  | cancel _ _ => exact ⟨hAborted, hMade, nofun, hLate⟩
  | _ =>
    obtain ⟨hNext, _, _, hPhase, hKept, _⟩ := quiet_step h rfl
    exact ⟨hKept hAborted, hNext ▸ hMade, fun h => hNext ▸ hEarly (hPhase ▸ h),
      fun h => hNext ▸ hLate h⟩

/-- Apart from what the round makes, the connection is open that the handle is of. -/
structure Held (s t : State) : Prop where
  inv : Inv t
  winding : Winding s t
  alive : ∀ c ∈ t.alive, MadeInRound s c ∨ c = t.connectionTask

/-- What is open is what the round makes. -/
structure Cut (s t : State) : Prop where
  inv : Inv t
  winding : Winding s t
  alive : ∀ c ∈ t.alive, MadeInRound s c

/-- The step makes a connection, moves the handle or makes nothing new. -/
theorem alive_step (h : step u e = some u') :
    (∀ c ∈ u'.alive, c ∈ u.alive) ∧
        (u'.connectionTask = u.connectionTask ∨ u.phase = .stored u'.connectionTask) ∨
      u.phase = .connecting ∧ u'.alive = u.next :: u.alive ∧
        u'.connectionTask = u.connectionTask := by
  cases move_of_step h with
  | created hConnecting => exact Or.inr ⟨hConnecting, rfl, rfl⟩
  | storeTask hStored => exact Or.inl ⟨fun c hMem => hMem, Or.inr hStored⟩
  | storeClient _ => exact Or.inl ⟨fun c hMem => (mem_close.mp hMem).1, Or.inl rfl⟩
  | lost connection => exact Or.inl ⟨fun c hMem => (mem_close.mp hMem).1, Or.inl rfl⟩
  | abortConnection _ => exact Or.inl ⟨fun c hMem => (mem_close.mp hMem).1, Or.inl rfl⟩
  | _ => exact Or.inl ⟨fun c hMem => hMem, Or.inl rfl⟩

theorem held_step (hHeld : Held s u) (h : step u e = some u') : Held s u' := by
  have hInv := inv_step hHeld.inv h
  have hWinding := winding_step hHeld.winding h
  refine ⟨hInv, hWinding, fun c hMem => ?_⟩
  obtain ⟨hAlive, hSame | hStored⟩ | ⟨hConnecting, hAlive, hSame⟩ := alive_step h
  · exact hSame ▸ hHeld.alive c (hAlive c hMem)
  · refine Or.inr (Nat.succ.inj ((hHeld.inv.newest c (hAlive c hMem)).trans ?_))
    rw [← hHeld.inv.latest fun c => by simp [hStored], (hHeld.inv.stored _ hStored).1]
  · rw [hAlive, List.mem_cons] at hMem
    obtain ⟨hEarly, hNext⟩ := hHeld.winding.early (by rw [hConnecting]; rfl)
    obtain rfl | hMem := hMem
    · exact Or.inl (Or.inr (Or.inr ⟨hEarly, hNext⟩))
    · exact hSame ▸ hHeld.alive c hMem

theorem cut_step (hCut : Cut s u) (h : step u e = some u') : Cut s u' := by
  refine ⟨inv_step hCut.inv h, winding_step hCut.winding h, fun c hMem => ?_⟩
  obtain ⟨hAlive, _⟩ | ⟨hConnecting, hAlive, _⟩ := alive_step h
  · exact hCut.alive c (hAlive c hMem)
  · rw [hAlive, List.mem_cons] at hMem
    obtain ⟨hEarly, hNext⟩ := hCut.winding.early (by rw [hConnecting]; rfl)
    obtain rfl | hMem := hMem
    · exact Or.inr (Or.inr ⟨hEarly, hNext⟩)
    · exact hCut.alive c hMem

theorem held_abort (hInv : Inv s) : Held s { s with aborted := true } where
  inv := inv_step (e := .abortReconnect) hInv rfl
  winding := winding_start rfl rfl rfl
  alive c hMem := by
    have hNewest := hInv.newest c hMem
    cases hPhase : s.phase with
    | connected c' =>
      have hFresh := (hInv.fresh c' hPhase).1
      obtain rfl : c = c' := Nat.succ.inj (hNewest.trans hFresh.symm)
      exact Or.inl (Or.inl hPhase)
    | stored c' =>
      have hLatest := hInv.latest fun c => by simp [hPhase]
      obtain rfl : c = s.client := Nat.succ.inj (hNewest.trans hLatest.symm)
      exact Or.inl (Or.inr (Or.inl ((hInv.stored c' hPhase).1 ▸ hPhase)))
    | _ =>
      have hLatest := hInv.latest fun c => by simp [hPhase]
      have hHandle := hInv.handle fun c => by simp [hPhase]
      exact Or.inr (Nat.succ.inj (hNewest.trans (hHandle ▸ hLatest.symm)))

theorem cut_of_held (hHeld : Held s u) (h : step u .abortConnection = some u') : Cut s u' := by
  refine ⟨inv_step hHeld.inv h, winding_step hHeld.winding h, fun c hMem => ?_⟩
  cases move_of_step h with
  | abortConnection _ =>
    obtain ⟨hMem, hNot⟩ := mem_close.mp hMem
    exact (hHeld.alive c hMem).resolve_right hNot

/-- After a disconnect no connection is open but one that the task was making, and after the round
that was under way it makes no other. A connection is left open whose handle is not stored yet. -/
theorem open_after_disconnect {before after : List Event}
    (hRun : run step newMigrate before = some s)
    (hRest : run step s (.abortReconnect :: after) = some t) :
    t.next ≤ s.next + 1 ∧ (s.phase.early = false → t.next = s.next) ∧
      (.abortConnection ∈ after → ∀ c ∈ t.alive, MadeInRound s c) ∧
      ∀ c, s.phase = .stored c → c ∈ s.alive →
        ∃ u, run step s [.abortReconnect, .abortConnection] = some u ∧ c ∈ u.alive := by
  have hInv := inv_run hRun
  have hHeldRun : ∀ {es u u'}, Held s u → run step u es = some u' → Held s u' :=
    fun hHeld hSteps => invariant_run (fun _ _ _ hHeld hStep => held_step hHeld hStep) hHeld hSteps
  obtain ⟨u, hAbort, hAfter⟩ := run_cons_eq_some hRest
  cases hAbort
  have hWinding := (hHeldRun (held_abort hInv) hAfter).winding
  refine ⟨hWinding.made, hWinding.late, fun hMem => ?_, fun c hStored hAlive => ?_⟩
  · obtain ⟨es, es', rfl⟩ := List.append_of_mem hMem
    rw [run_append] at hAfter
    obtain ⟨u, hFirst, hAfter⟩ := Option.bind_eq_some_iff.mp hAfter
    obtain ⟨u', hAbort, hAfter⟩ := run_cons_eq_some hAfter
    have hCut := cut_of_held (hHeldRun (held_abort hInv) hFirst) hAbort
    exact (invariant_run (fun _ _ _ hCut hStep => cut_step hCut hStep) hCut hAfter).alive
  · refine ⟨close s.connectionTask { s with aborted := true }, rfl, mem_close.mpr ⟨hAlive, ?_⟩⟩
    exact Nat.ne_of_gt (hInv.stored c hStored).2

end Disconnecting

section Example

/-- The connection is lost while a call has a guard of the client. -/
def exampleState : State := ⟨1, [], 0, 0, [(0, 0)], .woken, false⟩

theorem example_shared_client : ∃ es t, run step exampleState es = some t ∧ t.client ∈ t.alive := by
  have hRun : run step newMigrate [.get 0, .lost 0] = some exampleState := rfl
  exact (shared_client hRun).2.2.2 rfl

/-- The new client is stored and the handle is not. -/
def exampleStored : State := ⟨2, [1], 1, 0, [], .stored 1, false⟩

theorem example_open_after_disconnect : ∃ t,
    run step exampleStored [.abortReconnect, .abortConnection] = some t ∧ 1 ∈ t.alive := by
  have hRun : run step newMigrate
      [.lost 0, .check, .lock, .createConnection true, .storeClient] = some exampleStored := rfl
  have hRest : run step exampleStored [.abortReconnect] =
      some { exampleStored with aborted := true } := rfl
  exact (open_after_disconnect hRun hRest).2.2.2 1 rfl List.mem_cons_self

end Example

end Kld.DurableConnection
