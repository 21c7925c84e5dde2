import Kld.Ldk.PaymentMoves

/-!
# The recorded outcomes of outbound payments

The row of a payment ends with the outcome exactly when the request was there at every
moment of the payment.
-/

namespace Kld.Payments

open Sql Transition

def failureStatus : Option PaymentFailureReason → PaymentStatus
  | some .recipientRejected => .recipientRejected
  | some .userAbandoned => .userAbandoned
  | some .retriesExhausted => .retriesExhausted
  | some .paymentExpired => .expired
  | some .routeNotFound => .routeNotFound
  | some .unexpectedError => .error
  | none => .error

def Outcome.Recorded (row : PaymentRow) : Outcome → Prop
  | .sent _ preimage _ feePaidMsat =>
    row.status = .succeeded ∧ row.preimage = some preimage ∧
      row.fee = feePaidMsat.map UInt64.toInt64
  | .failed _ reason => row.status = failureStatus reason

def State.Records (s : State) (id : PaymentId) (outcome : Outcome) : Prop :=
  ∃ row, s.payments.lookup id = some row ∧ outcome.Recorded row

/-- Every write before the reply succeeds, the first event names the payment and finds its request
waiting, and a request that is dropped has written the outcome already. -/
def View.Keeps (v : View) : Action → Prop
  | .payInvoice _ _ _ _ => True
  | .keysendPayment _ _ route send => abandons route send = false
  | .persistInvoice answer => answer = .stored
  | .persistPending answer => answer = .stored
  | .register => True
  | .persistOutcome answer => answer.written
  | .drop written => (∃ payment, v.request = some (.replied payment)) ∧ written
  | .event outcome => v.ldk = .inFlight → v.request = some .waiting ∧ outcome.named

def OutcomeKept (id : PaymentId) (s : State) : Step → Prop
  | .of id' action => id' = id → (s.view id).Keeps action
  | .restart => ∀ phase, s.requests id = some phase → phase.ended

inductive View.Good : View → Prop
  | absent (row) : Good ⟨none, .unknown, none, row⟩
  | persistInvoice (invoice payment) (hPending : payment.status = .pending) :
    Good ⟨some (.persistInvoice invoice payment), .inFlight, none, none⟩
  | persistPending (payment) (hPending : payment.status = .pending) :
    Good ⟨some (.persistPending payment), .inFlight, none, none⟩
  | register (payment) (hPending : payment.status = .pending) :
    Good ⟨some (.register payment), .inFlight, none, some payment.toRow⟩
  | waiting (payment sender) (hPending : payment.status = .pending) :
    Good ⟨some .waiting, .inFlight, some (payment, sender), some payment.toRow⟩
  | replied (payment outcome) (hPending : payment.status = .pending) :
    Good ⟨some (.replied (outcome.apply payment)), .handled outcome, none, some payment.toRow⟩
  | recorded (phase ldk outcome payment) (hEnded : phase.ended)
      (hOutcome : ldk.outcome = some outcome) :
    Good ⟨some phase, ldk, none, some (outcome.apply payment).toRow⟩
  | unsent (phase) (hEnded : phase.ended) : Good ⟨some phase, .unknown, none, none⟩

def Unrecorded (row : Option PaymentRow) : Prop := ∀ r, row = some r → r.status = .pending

def Phase.BeforeReply : Phase → Prop
  | .persistInvoice _ payment => payment.status = .pending
  | .persistPending payment => payment.status = .pending
  | .register payment => payment.status = .pending
  | .waiting => True
  | _ => False

/-- A payment whose outcome will not be written: its request has ended, or waits in vain. -/
inductive View.Doomed : View → Prop
  | ended (phase ldk sender row) (hEnded : phase.ended) (hLdk : ldk ≠ .unknown)
      (hRow : Unrecorded row) :
    Doomed ⟨some phase, ldk, sender, row⟩
  | late (phase outcome sender row) (hReply : phase.BeforeReply) (hRow : Unrecorded row) :
    Doomed ⟨some phase, .handled outcome, sender, row⟩

variable {s s' : State} {v v' : View} {id : PaymentId} {action : Action}

theorem unrecorded_pending {payment : Payment} (hPending : payment.status = .pending) :
    Unrecorded (some payment.toRow) := fun _ hRow => Option.some.inj hRow ▸ hPending

theorem unrecorded_stored {payment : Payment} {row : Option PaymentRow}
    (hPending : payment.status = .pending)
    (written : Bool) (hRow : Unrecorded row) : Unrecorded (storedRow payment written row) := by
  cases written with
  | false => exact hRow
  | true => exact unrecorded_pending hPending

theorem inFlight_ne_unknown : LdkPayment.inFlight ≠ .unknown := nofun

theorem handled_ne_unknown (outcome : Outcome) : LdkPayment.handled outcome ≠ .unknown := nofun

theorem reply_of_ended {phase : Phase} {payment : Payment} (hEnded : phase.ended) :
    phase.reply payment = phase := by
  cases phase with
  | waiting => cases hEnded
  | _ => rfl

theorem unrecorded_none : Unrecorded none := by
  intro row hRow
  cases hRow

theorem Moves.doomed (h : Moves id v action v') (hDoomed : v.Doomed) : v'.Doomed := by
  cases hDoomed with
  | ended phase ldk sender row hEnded hLdk hRow =>
    cases h with
    | persistInvoice => cases hEnded
    | persistPending => cases hEnded
    | register => cases hEnded
    | persistOutcome => cases hEnded
    | drop _ _ _ _ _ hNotEnded => exact absurd hEnded (by rw [hNotEnded]; decide)
    | answered _ _ _ payment outcome hDeliver hNamed =>
      rw [Option.map_some, reply_of_ended hEnded]
      exact .ended _ _ _ _ hEnded (handled_ne_unknown outcome) hRow
    | unanswered _ _ _ _ outcome => exact .ended _ _ _ _ hEnded (handled_ne_unknown outcome) hRow
  | late phase outcome sender row hReply hRow =>
    cases h with
    | persistInvoice _ _ _ invoice payment answer =>
      split
      · exact .late _ _ _ _ hReply hRow
      · exact .ended _ _ _ _ rfl (handled_ne_unknown outcome) hRow
    | persistPending _ _ _ payment answer =>
      have hStored := unrecorded_stored hReply answer.written hRow
      split
      · exact .late _ _ _ _ hReply hStored
      · exact .ended _ _ _ _ rfl (handled_ne_unknown outcome) hStored
    | register => exact .late _ _ _ _ trivial hRow
    | persistOutcome => exact hReply.elim
    | drop _ _ _ _ written =>
      refine .ended _ _ _ _ rfl (handled_ne_unknown outcome) ?_
      cases phase with
      | persistPending payment => exact unrecorded_stored hReply written hRow
      | replied payment => exact hReply.elim
      | _ => exact hRow
    | answered _ _ _ _ _ hDeliver => cases hDeliver
    | unanswered _ _ _ _ _ hDeliver => cases hDeliver

theorem outcome_of_replay {ldk : LdkPayment} {outcome outcome' : Outcome}
    (hDeliver : ldk.mayDeliver outcome)
    (hOutcome : ldk.outcome = some outcome') : outcome' = outcome := by
  cases ldk with
  | unknown => cases hOutcome
  | inFlight => cases hOutcome
  | handled => cases hDeliver
  | replayable replayed =>
    obtain rfl := Option.some.inj hOutcome
    simpa [LdkPayment.mayDeliver] using hDeliver

theorem Moves.good (h : Moves id v action v') (hGood : v.Good) (hKeeps : v.Keeps action) :
    v'.Good := by
  cases h with
  | payInvoice ldk sender invoice label now send =>
    cases hGood
    rcases payInvoice_cases id invoice label now send with ⟨e, hEq⟩ | ⟨payment, hEq, -, hPending⟩
    · rw [hEq]
      exact .unsent _ rfl
    · rw [hEq]
      exact .persistInvoice _ _ hPending
  | keysendPayment ldk sender amount now route send =>
    cases hGood
    rcases keysendPayment_cases id amount now route send with
      ⟨e, hEq⟩ | ⟨payment, hEq, -, hPending, -⟩
    · rw [hEq, hKeeps]
      exact .unsent _ rfl
    · rw [hEq]
      exact .persistPending _ hPending
  | persistInvoice ldk sender row invoice payment answer =>
    cases hGood with
    | persistInvoice _ _ hPending =>
      obtain rfl : answer = .stored := hKeeps
      exact .persistPending _ hPending
    | recorded _ _ _ _ hEnded => cases hEnded
    | unsent _ hEnded => cases hEnded
  | persistPending ldk sender row payment answer =>
    cases hGood with
    | persistPending _ hPending =>
      obtain rfl : answer = .stored := hKeeps
      exact .register _ hPending
    | recorded _ _ _ _ hEnded => cases hEnded
    | unsent _ hEnded => cases hEnded
  | register ldk sender row payment =>
    cases hGood with
    | register _ hPending => exact .waiting _ _ hPending
    | recorded _ _ _ _ hEnded => cases hEnded
    | unsent _ hEnded => cases hEnded
  | persistOutcome ldk sender row payment answer =>
    cases hGood with
    | replied payment outcome =>
      have hWritten : answer.written = true := hKeeps
      rw [storedRow, if_pos hWritten]
      exact .recorded _ _ outcome payment rfl rfl
    | recorded _ _ _ _ hEnded => cases hEnded
    | unsent _ hEnded => cases hEnded
  | drop ldk sender row phase written hEnded =>
    obtain ⟨⟨payment, hReplied⟩, hWritten⟩ := hKeeps
    obtain rfl := Option.some.inj hReplied
    cases hGood with
    | replied payment outcome =>
      rw [Phase.droppedRow, storedRow, if_pos hWritten]
      exact .recorded _ _ outcome payment rfl rfl
    | recorded _ _ _ _ hEnded => cases hEnded
    | unsent _ hEnded => cases hEnded
  | answered request ldk row payment outcome hDeliver hNamed =>
    cases hGood with
    | waiting _ _ hPending => exact .replied _ outcome hPending
  | unanswered request ldk sender row outcome hDeliver hNone =>
    cases hGood with
    | absent => cases hDeliver
    | persistInvoice => exact absurd (hKeeps rfl).1 (by simp)
    | persistPending => exact absurd (hKeeps rfl).1 (by simp)
    | register => exact absurd (hKeeps rfl).1 (by simp)
    | waiting => cases hNone (hKeeps rfl).2
    | replied => cases hDeliver
    | recorded phase ldk outcome' payment hEnded hOutcome =>
      obtain rfl := outcome_of_replay hDeliver hOutcome
      exact .recorded _ _ _ _ hEnded rfl
    | unsent => cases hDeliver

theorem Moves.lost (h : Moves id v action v') (hGood : v.Good) (hKeeps : ¬ v.Keeps action) :
    v'.Doomed := by
  cases h with
  | payInvoice => exact absurd trivial hKeeps
  | keysendPayment ldk sender amount now route send =>
    cases hGood
    rcases keysendPayment_cases id amount now route send with ⟨e, hEq⟩ | ⟨payment, hEq, -, -, hSent⟩
    · rw [hEq, View.begun, if_pos (Bool.eq_true_of_not_eq_false hKeeps)]
      exact .ended _ _ _ _ rfl inFlight_ne_unknown unrecorded_none
    · exact absurd hSent hKeeps
  | persistInvoice ldk sender row invoice payment answer =>
    have hFailed : answer ≠ .stored := hKeeps
    rw [if_neg hFailed]
    cases hGood with
    | persistInvoice => exact .ended _ _ _ _ rfl inFlight_ne_unknown unrecorded_none
    | recorded _ _ _ _ hEnded => cases hEnded
    | unsent _ hEnded => cases hEnded
  | persistPending ldk sender row payment answer =>
    have hFailed : answer ≠ .stored := hKeeps
    rw [if_neg hFailed]
    cases hGood with
    | persistPending _ hPending =>
      exact .ended _ _ _ _ rfl inFlight_ne_unknown
        (unrecorded_stored hPending answer.written unrecorded_none)
    | recorded _ _ _ _ hEnded => cases hEnded
    | unsent _ hEnded => cases hEnded
  | register => exact absurd trivial hKeeps
  | persistOutcome ldk sender row payment answer =>
    have hUnwritten : ¬ answer.written := hKeeps
    rw [storedRow, if_neg hUnwritten]
    cases hGood with
    | replied _ _ hPending =>
      exact .ended _ _ _ _ rfl (handled_ne_unknown _) (unrecorded_pending hPending)
    | recorded _ _ _ _ hEnded => cases hEnded
    | unsent _ hEnded => cases hEnded
  | drop ldk sender row phase written hNotEnded =>
    cases hGood with
    | persistInvoice => exact .ended _ _ _ _ rfl inFlight_ne_unknown unrecorded_none
    | persistPending _ hPending =>
      exact .ended _ _ _ _ rfl inFlight_ne_unknown
        (unrecorded_stored hPending written unrecorded_none)
    | register _ hPending =>
      exact .ended _ _ _ _ rfl inFlight_ne_unknown (unrecorded_pending hPending)
    | waiting _ _ hPending =>
      exact .ended _ _ _ _ rfl inFlight_ne_unknown (unrecorded_pending hPending)
    | replied payment outcome hPending =>
      have hUnwritten : ¬ written := fun hWritten => hKeeps ⟨⟨_, rfl⟩, hWritten⟩
      rw [Phase.droppedRow, storedRow, if_neg hUnwritten]
      exact .ended _ _ _ _ rfl (handled_ne_unknown _) (unrecorded_pending hPending)
    | recorded _ _ _ _ hEnded => cases hNotEnded.symm.trans hEnded
    | unsent _ hEnded => cases hNotEnded.symm.trans hEnded
  | answered request ldk row payment outcome hDeliver hNamed =>
    cases hGood with
    | waiting => exact absurd (fun _ => ⟨rfl, hNamed⟩) hKeeps
  | unanswered request ldk sender row outcome hDeliver hNone =>
    obtain ⟨rfl, -⟩ := Classical.not_imp.mp hKeeps
    cases hGood with
    | persistInvoice _ _ hPending => exact .late _ _ _ _ hPending unrecorded_none
    | persistPending _ hPending => exact .late _ _ _ _ hPending unrecorded_none
    | register _ hPending => exact .late _ _ _ _ hPending (unrecorded_pending hPending)
    | waiting _ _ hPending => exact .late _ _ _ _ trivial (unrecorded_pending hPending)
    | recorded _ _ _ _ _ hOutcome => cases hOutcome

theorem restart_outcome (ldk : LdkPayment) : ldk.restart.outcome = ldk.outcome := by
  cases ldk <;> rfl

theorem restart_ne_unknown {ldk : LdkPayment} (h : ldk ≠ .unknown) : ldk.restart ≠ .unknown := by
  cases ldk with
  | unknown => exact h
  | inFlight => exact h
  | handled outcome => exact fun hRestart => by cases hRestart
  | replayable outcome => exact h

theorem restart_ended (phase : Phase) : phase.restart.ended := by
  unfold Phase.restart
  split
  · assumption
  · rfl

theorem restart_good (hGood : v.Good) (hEnded : ∀ phase, v.request = some phase → phase.ended) :
    v.restart.Good := by
  cases hGood with
  | absent => exact .absent _
  | recorded phase ldk outcome payment hPhase hOutcome =>
    have hRestart : phase.restart = phase := if_pos hPhase
    rw [View.restart, Option.map_some, hRestart]
    exact .recorded _ _ outcome payment hPhase ((restart_outcome ldk).trans hOutcome)
  | unsent phase hPhase =>
    have hRestart : phase.restart = phase := if_pos hPhase
    rw [View.restart, Option.map_some, hRestart]
    exact .unsent _ hPhase
  | _ => cases hEnded _ rfl

theorem restart_lost (hGood : v.Good) (hEnded : ¬ ∀ phase, v.request = some phase → phase.ended) :
    v.restart.Doomed := by
  cases hGood with
  | absent => exact absurd (fun _ hPhase => by cases hPhase) hEnded
  | persistInvoice => exact .ended _ _ _ _ rfl nofun unrecorded_none
  | persistPending => exact .ended _ _ _ _ rfl nofun unrecorded_none
  | register _ hPending => exact .ended _ _ _ _ rfl nofun (unrecorded_pending hPending)
  | waiting _ _ hPending => exact .ended _ _ _ _ rfl nofun (unrecorded_pending hPending)
  | replied _ _ hPending => exact .ended _ _ _ _ rfl nofun (unrecorded_pending hPending)
  | recorded phase _ _ _ hPhase => exact absurd (fun _ h => Option.some.inj h ▸ hPhase) hEnded
  | unsent phase hPhase => exact absurd (fun _ h => Option.some.inj h ▸ hPhase) hEnded

theorem restart_doomed (hDoomed : v.Doomed) : v.restart.Doomed := by
  cases hDoomed with
  | ended phase ldk sender row hEnded hLdk hRow =>
    have hRestart : phase.restart = phase := if_pos hEnded
    rw [View.restart, Option.map_some, hRestart]
    exact .ended _ _ _ _ hEnded (restart_ne_unknown hLdk) hRow
  | late phase outcome sender row hReply hRow =>
    exact .ended _ _ _ _ (restart_ended phase) nofun hRow

def Inv (p : PaymentId) (s : State) : Prop := s.Owned ∧ (s.view p).Good

def Lost (p : PaymentId) (s : State) : Prop := s.Owned ∧ (s.view p).Doomed

theorem step_good {p : PaymentId} {e : Step} (hInv : Inv p s) (hKept : OutcomeKept p s e)
    (h : step s e = some s') : Inv p s' := by
  obtain ⟨hOwned, hGood⟩ := hInv
  refine ⟨step_owned hOwned h, ?_⟩
  cases e with
  | of id action =>
    have hAdvances := stepOf_advances (hOwned id) h
    by_cases hId : id = p
    · subst hId
      exact hAdvances.moves.good hGood (hKept rfl)
    · rw [hAdvances.others p (Ne.symm hId)]
      exact hGood
  | restart =>
    cases h
    exact restart_good hGood hKept

theorem step_lost {p : PaymentId} {e : Step} (hInv : Inv p s) (hKept : ¬ OutcomeKept p s e)
    (h : step s e = some s') : Lost p s' := by
  obtain ⟨hOwned, hGood⟩ := hInv
  refine ⟨step_owned hOwned h, ?_⟩
  cases e with
  | of id action =>
    obtain ⟨rfl, hKeeps⟩ := Classical.not_imp.mp hKept
    exact (stepOf_advances (hOwned id) h).moves.lost hGood hKeeps
  | restart =>
    cases h
    exact restart_lost hGood hKept

theorem step_doomed {p : PaymentId} {e : Step} (hLost : Lost p s) (h : step s e = some s') :
    Lost p s' := by
  obtain ⟨hOwned, hDoomed⟩ := hLost
  refine ⟨step_owned hOwned h, ?_⟩
  cases e with
  | of id action =>
    have hAdvances := stepOf_advances (hOwned id) h
    by_cases hId : id = p
    · subst hId
      exact hAdvances.moves.doomed hDoomed
    · rw [hAdvances.others p (Ne.symm hId)]
      exact hDoomed
  | restart =>
    cases h
    exact restart_doomed hDoomed

theorem start_inv (p : PaymentId) (payments : Table PaymentId PaymentRow)
    (invoices : Table PaymentHash InvoiceRow) : Inv p (.start payments invoices) := by
  refine ⟨fun id => ⟨?_, ?_⟩, .absent _⟩
  · intro phase hPhase
    cases hPhase
  · intro payment sender hSender
    cases hSender

theorem recorded_apply (outcome : Outcome) (payment : Payment) :
    outcome.Recorded (outcome.apply payment).toRow := by
  cases outcome with
  | sent named preimage hash feePaidMsat => exact ⟨rfl, rfl, rfl⟩
  | failed hash reason => rcases reason with _ | (_ | _ | _ | _ | _ | _) <;> rfl

theorem recorded_not_pending {outcome : Outcome} {row : PaymentRow} (h : outcome.Recorded row) :
    row.status ≠ .pending := by
  cases outcome with
  | sent named preimage hash feePaidMsat =>
    rw [h.1]
    decide
  | failed hash reason =>
    have hStatus : row.status = failureStatus reason := h
    rw [hStatus]
    rcases reason with _ | (_ | _ | _ | _ | _ | _) <;> decide

theorem good_recorded (hGood : v.Good) {phase : Phase} {outcome : Outcome}
    (hRequest : v.request = some phase) (hEnded : phase.ended)
    (hOutcome : v.ldk.outcome = some outcome) :
    ∃ row, v.row = some row ∧ outcome.Recorded row := by
  cases hGood with
  | absent => cases hRequest
  | recorded _ _ outcome' payment _ hOutcome' =>
    obtain rfl := Option.some.inj (hOutcome'.symm.trans hOutcome)
    exact ⟨_, rfl, recorded_apply outcome' payment⟩
  | unsent => cases hOutcome
  | _ =>
    obtain rfl := Option.some.inj hRequest
    cases hEnded

theorem doomed_unrecorded (hDoomed : v.Doomed) : Unrecorded v.row := by
  cases hDoomed with
  | ended _ _ _ _ _ _ hRow => exact hRow
  | late _ _ _ _ _ hRow => exact hRow

/-- The outcome of a payment whose event has been handled and whose request has ended is on record
exactly when the node kept it at every step. -/
theorem outcome_recorded_iff {p : PaymentId} {payments : Table PaymentId PaymentRow}
    {invoices : Table PaymentHash InvoiceRow} {es : List Step} {t : State} {phase : Phase}
    {outcome : Outcome}
    (hRun : run step (.start payments invoices) es = some t) (hRequest : t.requests p = some phase)
    (hEnded : phase.ended) (hHandled : (t.ldk p).outcome = some outcome) :
    t.Records p outcome ↔ Along step (OutcomeKept p) (.start payments invoices) es := by
  rcases good_or_doomed (fun _ _ _ => step_good) (fun _ _ _ => step_lost) (fun _ _ _ => step_doomed)
    (start_inv p payments invoices) hRun with ⟨hKept, -, hGood⟩ | ⟨hNotKept, -, hDoomed⟩
  · exact iff_of_true (good_recorded hGood hRequest hEnded hHandled) hKept
  · refine iff_of_false ?_ hNotKept
    rintro ⟨row, hRow, hRecorded⟩
    exact recorded_not_pending hRecorded (doomed_unrecorded hDoomed row hRow)

def examplePaymentId : PaymentId := ⟨.replicate 32 0⟩

def exampleOutcome : Outcome := .sent true ⟨.replicate 32 1⟩ ⟨.replicate 32 2⟩ (some 7)

def sentAndWaiting : List Step :=
  [.keysendPayment 1000 0 (.ok ()) (.ok ()), .persistPending .stored, .register].map
    (.of examplePaymentId)

/-- The client goes away while its payment is under way. -/
theorem outcome_lost_with_client :
    ∃ t, run step (.start ∅ ∅)
        (sentAndWaiting ++
          [.of examplePaymentId (.drop false), .of examplePaymentId (.event exampleOutcome)]) =
          some t ∧
      t.requests examplePaymentId = some .dropped ∧
        (t.ldk examplePaymentId).outcome = some exampleOutcome ∧
      ¬ t.Records examplePaymentId exampleOutcome := by
  refine ⟨_, rfl, rfl, rfl, ?_⟩
  rintro ⟨row, hRow, hRecorded⟩
  obtain rfl := Option.some.inj hRow
  cases hRecorded.1

theorem outcome_recorded_for_client :
    ∃ t, run step (.start ∅ ∅)
        (sentAndWaiting ++
          [.of examplePaymentId (.event exampleOutcome),
            .of examplePaymentId (.persistOutcome .stored)]) =
          some t ∧
      t.Records examplePaymentId exampleOutcome := by
  have hRun : run step (.start ∅ ∅)
      (sentAndWaiting ++
        [.of examplePaymentId (.event exampleOutcome),
          .of examplePaymentId (.persistOutcome .stored)]) =
      some _ := rfl
  refine ⟨_, hRun, (outcome_recorded_iff hRun rfl rfl rfl).mpr ?_⟩
  refine (along_cons rfl).mpr ⟨fun _ => rfl, (along_cons rfl).mpr ⟨fun _ => rfl, ?_⟩⟩
  refine (along_cons rfl).mpr ⟨fun _ => trivial, (along_cons rfl).mpr ⟨fun _ _ => ⟨rfl, rfl⟩, ?_⟩⟩
  exact (along_cons rfl).mpr ⟨fun _ => rfl, trivial⟩

end Kld.Payments
