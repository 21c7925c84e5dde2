import Mathlib.Data.List.Basic

/-!
# A database session with transactions

The server holds the committed database and, for each session, at most one
transaction. A statement sent while a transaction is open belongs to it, and an
error inside it makes the server refuse everything up to its end. Losing the
connection discards the transaction. A statement is a partial function on the
database: it is undefined where the server answers with an error.
-/

namespace Sql

universe u

variable {δ : Type u}

/-- The transaction of a session: none, one over a working copy, or a failed one. -/
inductive Transaction (δ : Type u) where
  | idle
  | active (working : δ)
  | aborted

structure Session (δ : Type u) where
  committed : δ
  transaction : Transaction δ

/-- `BEGIN` inside a transaction and `COMMIT` outside one have no effect on the
database; servers differ in whether they warn or answer with an error. -/
structure Dialect where
  nestedBeginFails : Bool
  strayCommitFails : Bool

inductive Command (δ : Type u) where
  | begin
  | statement (effect : δ → Option δ)
  | commit (accepted : Bool)

inductive Reply where
  | ok
  | error
deriving DecidableEq

def Session.connect (db : δ) : Session δ := ⟨db, .idle⟩

def Session.visible (s : Session δ) : Option δ :=
  match s.transaction with
  | .idle => some s.committed
  | .active working => some working
  | .aborted => none

def Session.reconnect (s : Session δ) : Session δ := .connect s.committed

def Reply.ofError (failed : Bool) : Reply := if failed then .error else .ok

def Session.begin (dialect : Dialect) (s : Session δ) : Reply × Session δ :=
  match s.transaction with
  | .idle => (.ok, { s with transaction := .active s.committed })
  | .active _ =>
    if dialect.nestedBeginFails then (.error, { s with transaction := .aborted }) else (.ok, s)
  | .aborted => (.error, s)

def Session.statement (effect : δ → Option δ) (s : Session δ) : Reply × Session δ :=
  match s.transaction with
  | .idle =>
    match effect s.committed with
    | some db => (.ok, { s with committed := db })
    | none => (.error, s)
  | .active working =>
    match effect working with
    | some db => (.ok, { s with transaction := .active db })
    | none => (.error, { s with transaction := .aborted })
  | .aborted => (.error, s)

/-- The commit of a failed transaction ends it as a rollback. -/
def Session.commit (dialect : Dialect) (accepted : Bool) (s : Session δ) : Reply × Session δ :=
  match s.transaction with
  | .idle => (.ofError dialect.strayCommitFails, s)
  | .active working => if accepted then (.ok, .connect working) else (.error, .connect s.committed)
  | .aborted => (.ofError !accepted, .connect s.committed)

def Session.execute (dialect : Dialect) (s : Session δ) : Command δ → Reply × Session δ
  | .begin => s.begin dialect
  | .statement effect => s.statement effect
  | .commit accepted => s.commit dialect accepted

inductive Event (δ : Type u) where
  | command (command : Command δ)
  | connectionLost

/-- Whatever `s` went through before goes unobserved in what follows: every command finds
the very session that it would have found on `clean`, and the committed databases agree. -/
def Unobserved (dialect : Dialect) : Session δ → Session δ → List (Event δ) → Prop
  | s, clean, [] => s.committed = clean.committed
  | s, clean, .command c :: events =>
    s = clean ∧ Unobserved dialect (s.execute dialect c).2 (clean.execute dialect c).2 events
  | s, clean, .connectionLost :: events =>
    s.committed = clean.committed ∧ Unobserved dialect s.reconnect clean.reconnect events

def StartsWithCommand : List (Event δ) → Prop
  | .command _ :: _ => True
  | _ => False

theorem statement_idle {effect : δ → Option δ} {s : Session δ} (h : s.transaction = .idle) :
    s.statement effect =
      ((effect s.committed).elim .error fun _ => .ok,
        .connect ((effect s.committed).getD s.committed)) := by
  obtain ⟨db, transaction⟩ := s
  subst h
  unfold Session.statement
  cases effect db <;> rfl

/-- In every transaction that is not aborted, a statement acts on what the session sees. -/
theorem visible_statement {effect : δ → Option δ} {s : Session δ} {db db' : δ}
    (h : s.visible = some db) (hEffect : effect db = some db') :
    (s.statement effect).2.visible = some db' := by
  obtain ⟨committed, transaction⟩ := s
  cases transaction with
  | idle =>
    cases h
    simp only [Session.statement, hEffect]
    rfl
  | active working =>
    cases h
    simp only [Session.statement, hEffect]
    rfl
  | aborted => cases h

theorem unobserved_refl (dialect : Dialect) (s : Session δ) (events : List (Event δ)) :
    Unobserved dialect s s events := by
  induction events generalizing s with
  | nil => rfl
  | cons event events ih =>
    cases event with
    | command c => exact ⟨rfl, ih _⟩
    | connectionLost => exact ⟨rfl, ih _⟩

/-- Only a lost connection, or nothing at all, hides a session that is left different. -/
theorem unobserved_iff {dialect : Dialect} {s clean : Session δ} {events : List (Event δ)}
    (hCommitted : s.committed = clean.committed) :
    Unobserved dialect s clean events ↔ s = clean ∨ ¬ StartsWithCommand events := by
  constructor
  · intro h
    cases events with
    | nil => exact Or.inr id
    | cons event events =>
      cases event with
      | command c => exact Or.inl h.1
      | connectionLost => exact Or.inr id
  · rintro (rfl | hStart)
    · exact unobserved_refl dialect s events
    · cases events with
      | nil => exact hCommitted
      | cons event events =>
        cases event with
        | command c => exact absurd trivial hStart
        | connectionLost =>
          have hSame : s.reconnect = clean.reconnect := congrArg Session.connect hCommitted
          exact ⟨hCommitted, hSame ▸ unobserved_refl dialect s.reconnect events⟩

theorem statement_committed (effect : δ → Option δ) {s : Session δ} (h : s.transaction ≠ .idle) :
    (s.statement effect).2.committed = s.committed := by
  unfold Session.statement
  cases hT : s.transaction with
  | idle => exact absurd hT h
  | active working => dsimp only; split <;> rfl
  | aborted => rfl

theorem statement_not_idle (effect : δ → Option δ) {s : Session δ} (h : s.transaction ≠ .idle) :
    (s.statement effect).2.transaction ≠ .idle := by
  unfold Session.statement
  cases hT : s.transaction with
  | idle => exact absurd hT h
  | active working => dsimp only; split <;> exact nofun
  | aborted => exact h

theorem statement_aborted {effect : δ → Option δ} {s : Session δ} (h : s.transaction = .aborted) :
    s.statement effect = (.error, s) := by
  unfold Session.statement
  rw [h]

theorem statement_refused {effect : δ → Option δ} {s : Session δ} {working : δ}
    (h : s.transaction = .active working) (hEffect : effect working = none) :
    s.statement effect = (.error, { s with transaction := .aborted }) := by
  unfold Session.statement
  rw [h]
  dsimp only
  rw [hEffect]

theorem statement_error_aborts {effect : δ → Option δ} {s : Session δ} (h : s.transaction ≠ .idle)
    (hReply : (s.statement effect).1 = .error) : (s.statement effect).2.transaction = .aborted := by
  unfold Session.statement at hReply ⊢
  cases hT : s.transaction with
  | idle => exact absurd hT h
  | active working =>
    simp only [hT] at hReply ⊢
    cases hE : effect working with
    | none => rfl
    | some db => simp [hE] at hReply
  | aborted => exact hT

/-- The open transaction, if there is one, has not touched what `f` reads. -/
def Session.Untouched {β : Type*} (f : δ → β) (s : Session δ) : Prop :=
  ∀ working, s.transaction = .active working → f working = f s.committed

/-- Commands whose effects leave what `f` reads alone leave it alone in every transaction. -/
theorem execute_untouched {β : Type*} {f : δ → β} (dialect : Dialect) {s : Session δ}
    {c : Command δ}
    (hEffect : ∀ effect, c = .statement effect → ∀ db db', effect db = some db' → f db' = f db)
    (h : s.Untouched f) :
    f (s.execute dialect c).2.committed = f s.committed ∧ (s.execute dialect c).2.Untouched f := by
  obtain ⟨db, transaction⟩ := s
  cases c with
  | begin =>
    cases transaction with
    | idle => exact ⟨rfl, fun working hW => by cases hW; rfl⟩
    | aborted => exact ⟨rfl, nofun⟩
    | active working =>
      dsimp only [Session.execute, Session.begin]
      split
      · exact ⟨rfl, nofun⟩
      · exact ⟨rfl, h⟩
  | statement effect =>
    have hKeep := hEffect effect rfl
    cases transaction with
    | aborted => exact ⟨rfl, nofun⟩
    | idle =>
      dsimp only [Session.execute, Session.statement]
      cases hDb : effect db with
      | none => exact ⟨rfl, nofun⟩
      | some db' => exact ⟨hKeep db db' hDb, nofun⟩
    | active working =>
      dsimp only [Session.execute, Session.statement]
      cases hDb : effect working with
      | none => exact ⟨rfl, nofun⟩
      | some db' =>
        refine ⟨rfl, fun working' hW => ?_⟩
        cases hW
        exact (hKeep working db' hDb).trans (h working rfl)
  | commit accepted =>
    cases transaction with
    | idle => exact ⟨rfl, h⟩
    | aborted => exact ⟨rfl, nofun⟩
    | active working =>
      cases accepted with
      | false => exact ⟨rfl, nofun⟩
      | true => exact ⟨h working rfl, nofun⟩

end Sql
