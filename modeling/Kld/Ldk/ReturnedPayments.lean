import Kld.Ldk.PaymentOutcome

/-!
# The payments that requests return

A request hands around the payment that it built. What it returns is that payment
with an outcome, and the row of the payment is the one of what it returned.
-/

namespace Kld.Payments

open Sql Transition

def Action.built (id : PaymentId) : Action → Option Payment
  | .payInvoice invoice label now _ => some (.ofInvoiceOutbound id now invoice label)
  | .keysendPayment amount now _ _ => some (.spontaneousOutbound id now amount)
  | _ => none

inductive Phase.Of (built : Payment) : Phase → Prop
  | persistInvoice (invoice) : Of built (.persistInvoice invoice built)
  | persistPending : Of built (.persistPending built)
  | register : Of built (.register built)
  | waiting : Of built .waiting
  | replied (outcome : Outcome) : Of built (.replied (outcome.apply built))
  | returned (outcome : Outcome) : Of built (.returned (.ok (outcome.apply built)))
  | failed (e) : Of built (.returned (.error e))
  | dropped : Of built .dropped

/-- The request of the payment has begun with `built`. -/
structure View.Of (built : Payment) (v : View) : Prop where
  request : ∃ phase, v.request = some phase ∧ phase.Of built
  sender : ∀ payment sender, v.sender = some (payment, sender) → payment = built
  stored : ∀ payment, v.request = some (.returned (.ok payment)) → v.row = some payment.toRow

/-- No sender is registered before the request begins. -/
def View.Unregistered (v : View) : Prop := v.request = none → v.sender = none

variable {s s' : State} {v v' : View} {id : PaymentId} {action : Action} {built payment : Payment}

theorem Phase.Of.reply {phase : Phase} (h : phase.Of built) (outcome : Outcome) :
    (phase.reply (outcome.apply built)).Of built := by
  cases h with
  | waiting => exact .replied outcome
  | persistInvoice invoice => exact .persistInvoice invoice
  | persistPending => exact .persistPending
  | register => exact .register
  | replied outcome' => exact .replied outcome'
  | returned outcome' => exact .returned outcome'
  | failed e => exact .failed e
  | dropped => exact .dropped

theorem Phase.Of.restart {phase : Phase} (h : phase.Of built) : phase.restart.Of built := by
  unfold Phase.restart
  split
  · exact h
  · exact .dropped

theorem returned_of_reply {phase : Phase} {payment payment' : Payment}
    (h : phase.reply payment = .returned (.ok payment')) : phase = .returned (.ok payment') := by
  cases phase with
  | waiting => cases h
  | _ => exact h

theorem returned_of_restart {phase : Phase} (h : phase.restart = .returned (.ok payment)) :
    phase = .returned (.ok payment) := by
  unfold Phase.restart at h
  split at h
  · exact h
  · cases h

theorem Moves.of (h : Moves id v action v') (hOf : v.Of built) : v'.Of built := by
  obtain ⟨⟨phase, hPhase, hOfPhase⟩, hSender, hStored⟩ := hOf
  cases h with
  | payInvoice ldk sender invoice label now send => cases hPhase
  | keysendPayment ldk sender amount now route send => cases hPhase
  | persistInvoice ldk sender row invoice payment answer =>
    obtain rfl := Option.some.inj hPhase
    cases hOfPhase
    refine ⟨⟨_, rfl, ?_⟩, hSender, fun payment hReturned => ?_⟩
    · split
      · exact .persistPending
      · exact .failed _
    · split at hReturned <;> cases hReturned
  | persistPending ldk sender row payment answer =>
    obtain rfl := Option.some.inj hPhase
    cases hOfPhase
    refine ⟨⟨_, rfl, ?_⟩, hSender, fun payment hReturned => ?_⟩
    · split
      · exact .register
      · exact .failed _
    · split at hReturned <;> cases hReturned
  | register ldk sender row payment =>
    obtain rfl := Option.some.inj hPhase
    cases hOfPhase
    refine ⟨⟨_, rfl, .waiting⟩, fun payment sender hRegistered => ?_, fun payment hReturned => ?_⟩
    · exact (Prod.mk.inj (Option.some.inj hRegistered)).1.symm
    · cases hReturned
  | persistOutcome ldk sender row payment answer =>
    obtain rfl := Option.some.inj hPhase
    cases hOfPhase with
    | replied outcome =>
      refine ⟨⟨_, rfl, ?_⟩, hSender, fun payment hReturned => ?_⟩
      · split
        · exact .returned outcome
        · exact .failed _
      · split at hReturned
        · rename_i hAnswer
          cases hReturned
          rw [hAnswer]
          rfl
        · cases hReturned
  | drop ldk sender row phase' written hEnded =>
    refine ⟨⟨_, rfl, .dropped⟩, hSender, fun payment hReturned => ?_⟩
    cases hReturned
  | answered request ldk row payment outcome hDeliver hNamed =>
    obtain rfl := hSender payment id rfl
    refine ⟨⟨_, congrArg (Option.map _) hPhase, hOfPhase.reply outcome⟩,
      fun payment sender hRegistered => ?_, fun payment' hReturned => ?_⟩
    · cases hRegistered
    · obtain ⟨phase', hRequest, hReply⟩ := Option.map_eq_some_iff.mp hReturned
      exact hStored payment' (hRequest.trans (congrArg some (returned_of_reply hReply)))
  | unanswered request ldk sender row outcome hDeliver hNone =>
    exact ⟨⟨phase, hPhase, hOfPhase⟩, hSender, hStored⟩

theorem restart_of (hOf : v.Of built) : v.restart.Of built := by
  obtain ⟨⟨phase, hPhase, hOfPhase⟩, hSender, hStored⟩ := hOf
  refine ⟨⟨_, congrArg (Option.map _) hPhase, hOfPhase.restart⟩,
    fun payment sender hRegistered => ?_, fun payment hReturned => ?_⟩
  · cases hRegistered
  · obtain ⟨phase', hRequest, hRestart⟩ := Option.map_eq_some_iff.mp hReturned
    exact hStored payment (hRequest.trans (congrArg some (returned_of_restart hRestart)))

theorem Moves.unregistered (h : Moves id v action v') (hUnregistered : v.Unregistered) :
    v'.Unregistered := by
  intro hNone
  cases h with
  | payInvoice ldk sender invoice label now send => cases hNone
  | keysendPayment ldk sender amount now route send => cases hNone
  | persistInvoice ldk sender row invoice payment answer => cases hNone
  | persistPending ldk sender row payment answer => cases hNone
  | register ldk sender row payment => cases hNone
  | persistOutcome ldk sender row payment answer => cases hNone
  | drop ldk sender row phase written hEnded => cases hNone
  | answered request ldk row payment outcome hDeliver hNamed => rfl
  | unanswered request ldk sender row outcome hDeliver hNone' => exact hUnregistered hNone

/-- A step keeps what holds of the payment, if its own actions and a restart do. -/
theorem step_view {P : View → Prop} {p : PaymentId} {e : Step} (hOwned : s.Owned)
    (hMoves : ∀ {v action v'}, Moves p v action v' → P v → P v')
    (hRestart : ∀ {v : View}, P v → P v.restart) (h : step s e = some s') (hP : P (s.view p)) :
    P (s'.view p) := by
  cases e with
  | of id action =>
    have hAdvances := stepOf_advances (hOwned id) h
    by_cases hId : id = p
    · subst hId
      exact hMoves hAdvances.moves hP
    · rw [hAdvances.others p (Ne.symm hId)]
      exact hP
  | restart =>
    cases h
    exact hRestart hP

def Began (p : PaymentId) (built : Payment) (s : State) : Prop := s.Owned ∧ (s.view p).Of built

def NotRegistered (p : PaymentId) (s : State) : Prop := s.Owned ∧ (s.view p).Unregistered

theorem run_began {p : PaymentId} {steps : List Step} (hBegan : Began p built s)
    (hRun : run step s steps = some s') : Began p built s' :=
  invariant_run (fun _ _ _ hInv hStep => ⟨step_owned hInv.1 hStep,
    step_view hInv.1 Moves.of restart_of hStep hInv.2⟩) hBegan hRun

theorem run_notRegistered {p : PaymentId} {steps : List Step} (hInv : NotRegistered p s)
    (hRun : run step s steps = some s') : NotRegistered p s' :=
  invariant_run (fun _ _ _ hInv hStep => ⟨step_owned hInv.1 hStep,
    step_view hInv.1 Moves.unregistered (fun _ _ => rfl) hStep hInv.2⟩) hInv hRun

theorem start_notRegistered (p : PaymentId) (payments : Table PaymentId PaymentRow)
    (invoices : Table PaymentHash InvoiceRow) : NotRegistered p (.start payments invoices) :=
  ⟨(start_inv p payments invoices).1, fun _ => rfl⟩

theorem View.of_failed {request : RequestError} (v : View)
    (hRequest : v.request = some (.returned (.error request))) (hSender : v.sender = none) :
    v.Of built := by
  refine ⟨⟨_, hRequest, .failed _⟩, fun payment sender hRegistered => ?_,
    fun payment hReturned => ?_⟩
  · cases hSender.symm.trans hRegistered
  · cases hRequest.symm.trans hReturned

/-- A request begins with the payment that it builds, or has failed at once. -/
theorem begin_of (hOwned : s.Owned) (hUnregistered : (s.view id).Unregistered)
    (hBuilt : action.built id = some built) (h : step s (.of id action) = some s') :
    (s'.view id).Of built := by
  have hMoves := (stepOf_advances (hOwned id) h).moves
  generalize s.view id = v at hMoves hUnregistered
  generalize s'.view id = v' at hMoves
  cases hMoves with
  | payInvoice ldk sender invoice label now send =>
    obtain rfl := Option.some.inj hBuilt
    have hSender : sender = none := hUnregistered rfl
    unfold payInvoice
    split
    · exact View.of_failed _ rfl hSender
    · exact View.of_failed _ rfl hSender
    · refine ⟨⟨_, rfl, .persistInvoice _⟩, fun payment sender' hRegistered => ?_,
        fun payment hReturned => ?_⟩
      · cases hSender.symm.trans hRegistered
      · cases hReturned
  | keysendPayment ldk sender amount now route send =>
    obtain rfl := Option.some.inj hBuilt
    have hSender : sender = none := hUnregistered rfl
    have hPending : View.Of (.spontaneousOutbound id now amount)
        (.begun (.persistPending (.spontaneousOutbound id now amount), true) ldk sender) := by
      refine ⟨⟨_, rfl, .persistPending⟩, fun payment sender' hRegistered => ?_,
        fun payment hReturned => ?_⟩
      · cases hSender.symm.trans hRegistered
      · cases hReturned
    unfold keysendPayment
    split
    · exact View.of_failed _ rfl hSender
    · exact hPending
    · split
      · exact hPending
      · exact View.of_failed _ rfl hSender
    · exact View.of_failed _ rfl hSender
  | _ => cases hBuilt

theorem apply_built (hBuilt : action.built id = some built) (outcome : Outcome) :
    (outcome.apply built).id = id ∧ (outcome.apply built).amount = built.amount := by
  refine ⟨?_, by cases outcome <;> rfl⟩
  rw [apply_id]
  cases action with
  | payInvoice invoice label now send => exact (Option.some.inj hBuilt) ▸ rfl
  | keysendPayment amount now route send => exact (Option.some.inj hBuilt) ▸ rfl
  | _ => cases hBuilt

/-- What a request returned is what it built, with an outcome, and is on record. -/
theorem returned_stored {payments : Table PaymentId PaymentRow}
    {invoices : Table PaymentHash InvoiceRow} {earlier later : List Step} {s₀ s₁ : State}
    (hEarlier : run step (.start payments invoices) earlier = some s₀)
    (hBuilt : action.built id = some built) (hBegin : step s₀ (.of id action) = some s₁)
    (hLater : run step s₁ later = some s)
    (hReturned : s.requests id = some (.returned (.ok payment))) :
    (∃ outcome : Outcome, payment = outcome.apply built) ∧
      s.payments.lookup id = some payment.toRow := by
  obtain ⟨hOwned, hUnregistered⟩ :=
    run_notRegistered (start_notRegistered id payments invoices) hEarlier
  have hOf := (run_began
    ⟨step_owned hOwned hBegin, begin_of hOwned hUnregistered hBuilt hBegin⟩ hLater).2
  obtain ⟨phase, hPhase, hOfPhase⟩ := hOf.request
  refine ⟨?_, hOf.stored payment hReturned⟩
  obtain rfl := Option.some.inj (hPhase.symm.trans hReturned)
  cases hOfPhase with
  | returned outcome => exact ⟨outcome, rfl⟩

end Kld.Payments
