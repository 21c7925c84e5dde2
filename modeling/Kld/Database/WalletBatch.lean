import Kld.Database.WalletDatabase

/-!
# Abandoned wallet batches

A batch has no owner besides the session: it ends only by `COMMIT`, since the
node never sends `ROLLBACK` and dropping a batch sends nothing. Whether a failed
or dropped batch is felt afterwards depends on what reaches the session first.
-/

namespace Kld.WalletBatch

open Sql

inductive Ending where
  | dropped
  | commitBatch (accepted : Bool)
deriving DecidableEq

/-- The statements that the operations of a batch send, each with the server's answer. -/
structure Batch where
  statements : List (WalletStatement × Bool)
  ending : Ending

def runStatements (s : Session Database) : List (WalletStatement × Bool) → Bool × Session Database
  | [] => (false, s)
  | (statement, refused) :: rest =>
    let answer := s.statement (statement.effect refused)
    let tail := runStatements answer.2 rest
    (decide (answer.1 = .error) || tail.1, tail.2)

def Batch.body (dialect : Dialect) (s : Session Database) (batch : Batch) :
    Bool × Session Database :=
  runStatements (s.begin dialect).2 batch.statements

def Batch.run (dialect : Dialect) (s : Session Database) (batch : Batch) : Session Database :=
  match batch.ending with
  | .dropped => (batch.body dialect s).2
  | .commitBatch accepted => ((batch.body dialect s).2.commit dialect accepted).2

def Batch.Abandoned (dialect : Dialect) (s : Session Database) (batch : Batch) : Prop :=
  (batch.body dialect s).1 = true ∨ batch.ending ≠ .commitBatch true

theorem runStatements_spec {s : Session Database} (h : s.transaction ≠ .idle)
    (statements : List (WalletStatement × Bool)) :
    (runStatements s statements).2.committed = s.committed ∧
      (runStatements s statements).2.transaction ≠ .idle ∧
      ((runStatements s statements).1 = true →
        (runStatements s statements).2.transaction = .aborted) ∧
      (s.transaction = .aborted → (runStatements s statements).2.transaction = .aborted) := by
  induction statements generalizing s with
  | nil => exact ⟨rfl, h, nofun, id⟩
  | cons head rest ih =>
    obtain ⟨statement, refused⟩ := head
    have hNext := statement_not_idle (statement.effect refused) h
    obtain ⟨hCommitted, hIdle, hFailed, hAborted⟩ := ih hNext
    refine ⟨hCommitted.trans (statement_committed _ h), hIdle, ?_, ?_⟩
    · intro hError
      rcases Bool.or_eq_true_iff.mp hError with hHead | hTail
      · exact hAborted (statement_error_aborts h (of_decide_eq_true hHead))
      · exact hFailed hTail
    · intro hStart
      apply hAborted
      rw [statement_aborted hStart]
      exact hStart

/-- After its statements, a batch holds a transaction over an unchanged database. -/
theorem Batch.body_spec (dialect : Dialect) (db : Database) (batch : Batch) :
    (batch.body dialect (.connect db)).2.committed = db ∧
      (batch.body dialect (.connect db)).2.transaction ≠ .idle ∧
      ((batch.body dialect (.connect db)).1 = true →
        (batch.body dialect (.connect db)).2.transaction = .aborted) := by
  have hOpen : ((Session.connect db).begin dialect).2.transaction ≠ .idle := nofun
  obtain ⟨hCommitted, hIdle, hFailed, _⟩ := runStatements_spec hOpen batch.statements
  exact ⟨hCommitted, hIdle, hFailed⟩

theorem Batch.run_dropped (dialect : Dialect) (db : Database) {batch : Batch}
    (hEnding : batch.ending = .dropped) :
    (batch.run dialect (.connect db)).committed = db ∧
      batch.run dialect (.connect db) ≠ .connect db := by
  obtain ⟨hCommitted, hIdle, _⟩ := batch.body_spec dialect db
  unfold Batch.run
  rw [hEnding]
  refine ⟨hCommitted, fun hSame => hIdle ?_⟩
  exact congrArg Session.transaction hSame

/-- The commit of an abandoned batch is a rollback. -/
theorem Batch.run_committed {dialect : Dialect} {db : Database} {batch : Batch} {accepted : Bool}
    (hEnding : batch.ending = .commitBatch accepted)
    (hAbandoned : batch.Abandoned dialect (.connect db)) :
    batch.run dialect (.connect db) = .connect db := by
  obtain ⟨hCommitted, hIdle, hFailed⟩ := batch.body_spec dialect db
  unfold Batch.run Session.commit
  rw [hEnding]
  dsimp only
  cases hT : (batch.body dialect (.connect db)).2.transaction with
  | idle => exact absurd hT hIdle
  | aborted => exact congrArg Session.connect hCommitted
  | active working =>
    rcases hAbandoned with hError | hNot
    · rw [hFailed hError] at hT
      cases hT
    · rw [hEnding] at hNot
      cases accepted with
      | true => exact absurd rfl hNot
      | false => exact congrArg Session.connect hCommitted

/-- A failed or dropped batch stays unobserved exactly when `commit_batch` still ends it,
or when the connection is lost before another command reaches the session. -/
theorem abandoned_unobserved_iff (dialect : Dialect) (db : Database) (batch : Batch)
    (later : List (Event Database)) (hAbandoned : batch.Abandoned dialect (.connect db)) :
    Unobserved dialect (batch.run dialect (.connect db)) (.connect db) later ↔
      batch.ending ≠ .dropped ∨ ¬ StartsWithCommand later := by
  cases hEnding : batch.ending with
  | dropped =>
    obtain ⟨hCommitted, hLeft⟩ := Batch.run_dropped dialect db hEnding
    rw [unobserved_iff hCommitted]
    exact or_congr (iff_of_false hLeft fun h => h rfl) Iff.rfl
  | commitBatch accepted =>
    rw [batch.run_committed hEnding hAbandoned]
    exact iff_of_true (unobserved_refl dialect _ later) (Or.inl nofun)

def strict : Dialect := ⟨true, true⟩

def insertExampleUtxo : WalletStatement := .insertUtxo 1000 "external" 0 [1] [2] false

def selectEvent : Event Database := .command (WalletCommand.execute .select false).toCommand

theorem dropped_batch_observed :
    Batch.Abandoned strict (.connect default) ⟨[(insertExampleUtxo, false)], .dropped⟩ ∧
      ¬ Unobserved strict
        (Batch.run strict (.connect default) ⟨[(insertExampleUtxo, false)], .dropped⟩)
        (.connect default) [selectEvent] ∧
      (Batch.run strict (.connect default) ⟨[(insertExampleUtxo, false)], .dropped⟩).visible.bind
        (fun db => db.wallet.utxos.lookup ([1], 0)) = some ⟨1000, "external", [2], false⟩ := by
  refine ⟨Or.inr nofun, ?_, rfl⟩
  rintro ⟨hSame, _⟩
  have hTransaction := congrArg Session.transaction hSame
  cases hTransaction

theorem failed_statement_unobserved :
    Unobserved strict
      (Batch.run strict (.connect default) ⟨[(insertExampleUtxo, true)], .commitBatch true⟩)
        (.connect default) [selectEvent] ↔
      Ending.commitBatch true ≠ .dropped ∨ ¬ StartsWithCommand [selectEvent] :=
  abandoned_unobserved_iff strict default ⟨[(insertExampleUtxo, true)], .commitBatch true⟩
    [selectEvent]
    (Or.inl rfl)

end Kld.WalletBatch
