import Kld.Ldk.PaymentRequests

/-!
# The payments move on their own

What is known of a payment is the phase of its request, its state at LDK, the sender that
waits for its outcome and its row. A step about one payment leaves what is known of every
other payment alone.
-/

namespace Kld.Payments

open Sql Transition

structure View where
  request : Option Phase
  ldk : LdkPayment
  sender : Option (Payment × PaymentId)
  row : Option PaymentRow

def State.view (s : State) (id : PaymentId) : View :=
  ⟨s.requests id, s.ldk id, s.senders.lookup id, s.payments.lookup id⟩

def storedRow (payment : Payment) (written : Bool) (row : Option PaymentRow) : Option PaymentRow :=
  if written then some payment.toRow else row

def View.begun (begun : Phase × Bool) (ldk : LdkPayment) (sender : Option (Payment × PaymentId)) :
    View :=
  ⟨some begun.1, if begun.2 then .inFlight else ldk, sender, none⟩

def Phase.reply (payment : Payment) : Phase → Phase
  | .waiting => .replied payment
  | phase => phase

def Phase.droppedRow (written : Bool) (row : Option PaymentRow) : Phase → Option PaymentRow
  | .persistPending payment => storedRow payment written row
  | .replied payment => storedRow payment written row
  | _ => row

inductive Moves (id : PaymentId) : View → Action → View → Prop
  | payInvoice (ldk sender invoice label now send) :
    Moves id ⟨none, ldk, sender, none⟩ (.payInvoice invoice label now send)
      (.begun (payInvoice id invoice label now send) ldk sender)
  | keysendPayment (ldk sender amount now route send) :
    Moves id ⟨none, ldk, sender, none⟩ (.keysendPayment amount now route send)
      (.begun (keysendPayment id amount now route send) ldk sender)
  | persistInvoice (ldk sender row invoice payment answer) :
    Moves id ⟨some (.persistInvoice invoice payment), ldk, sender, row⟩ (.persistInvoice answer)
      ⟨some (if answer = .stored then .persistPending payment else .returned (.error .database)),
        ldk, sender, row⟩
  | persistPending (ldk sender row payment answer) :
    Moves id ⟨some (.persistPending payment), ldk, sender, row⟩ (.persistPending answer)
      ⟨some (if answer = .stored then .register payment else .returned (.error .database)),
        ldk, sender, storedRow payment answer.written row⟩
  | register (ldk sender row payment) :
    Moves id ⟨some (.register payment), ldk, sender, row⟩ .register
      ⟨some .waiting, ldk, some (payment, id), row⟩
  | persistOutcome (ldk sender row payment answer) :
    Moves id ⟨some (.replied payment), ldk, sender, row⟩ (.persistOutcome answer)
      ⟨some (.returned (if answer = .stored then .ok payment else .error .database)),
        ldk, sender, storedRow payment answer.written row⟩
  | drop (ldk sender row phase written) (hEnded : phase.ended = false) :
    Moves id ⟨some phase, ldk, sender, row⟩ (.drop written)
      ⟨some .dropped, ldk, sender, phase.droppedRow written row⟩
  | answered (request ldk row payment outcome) (hDeliver : ldk.mayDeliver outcome)
      (hNamed : outcome.named) :
    Moves id ⟨request, ldk, some (payment, id), row⟩ (.event outcome)
      ⟨request.map (Phase.reply (outcome.apply payment)), .handled outcome, none, row⟩
  | unanswered (request ldk sender row outcome) (hDeliver : ldk.mayDeliver outcome)
      (hNone : outcome.named → sender = none) :
    Moves id ⟨request, ldk, sender, row⟩ (.event outcome) ⟨request, .handled outcome, sender, row⟩

def View.restart (v : View) : View := ⟨v.request.map Phase.restart, v.ldk.restart, none, v.row⟩

def Phase.payment : Phase → Option Payment
  | .persistInvoice _ payment => some payment
  | .persistPending payment => some payment
  | .register payment => some payment
  | .replied payment => some payment
  | _ => none

structure View.Owned (id : PaymentId) (v : View) : Prop where
  request : ∀ phase, v.request = some phase →
    ∀ payment, phase.payment = some payment → payment.id = id
  sender : ∀ payment sender, v.sender = some (payment, sender) → payment.id = id ∧ sender = id

def State.Owned (s : State) : Prop := ∀ id, (s.view id).Owned id

/-- A partial failure that is not continued leaves the paths that were sent under way. -/
def abandons : Except String Unit → Except PaymentSendFailure Unit → Bool
  | .ok (), .error (.partialFailure results) => !continues results
  | _, _ => false

variable {s s' : State} {v v' : View} {id : PaymentId} {action : Action}

@[simp] theorem apply_id (outcome : Outcome) (payment : Payment) :
    (outcome.apply payment).id = payment.id := by
  cases outcome <;> rfl

theorem lookup_persistPayment (payment : Payment) (payments : Table PaymentId PaymentRow) :
    (persistPayment payment payments).lookup payment.id = some payment.toRow := by
  rw [persistPayment, Table.lookup_upsert_row, if_pos rfl]

theorem view_setPhase (s : State) (id : PaymentId) (phase : Phase) :
    (s.setPhase id phase).view id = { s.view id with request := some phase } := by
  simp [State.view, State.setPhase]

theorem view_setPhase_of_ne (s : State) (phase : Phase) {id' : PaymentId} (hne : id' ≠ id) :
    (s.setPhase id phase).view id' = s.view id' := by
  simp [State.view, State.setPhase, Function.update_of_ne hne]

theorem view_store (s : State) (payment : Payment) (written : Bool) :
    (s.store payment written).view payment.id =
      { s.view payment.id with
        row := storedRow payment written (s.payments.lookup payment.id) } := by
  cases written with
  | false => rfl
  | true => simp [State.view, State.store, storedRow, lookup_persistPayment]

theorem view_store_of_ne (s : State) {payment : Payment} (written : Bool) (hne : id ≠ payment.id) :
    (s.store payment written).view id = s.view id := by
  cases written with
  | false => rfl
  | true => simp [State.view, State.store, persistPayment, Table.lookup_upsert_of_ne hne]

/-- A request stores its row and goes on. -/
theorem view_stored (s : State) (payment : Payment) (written : Bool) (phase : Phase) :
    ((s.store payment written).setPhase payment.id phase).view payment.id =
      { s.view payment.id with
        request := some phase
        row := storedRow payment written (s.payments.lookup payment.id) } := by
  rw [view_setPhase, view_store]

theorem view_stored_of_ne (s : State) {payment : Payment} (written : Bool) (phase : Phase)
    (hne : id ≠ payment.id) :
    ((s.store payment written).setPhase payment.id phase).view id = s.view id := by
  rw [view_setPhase_of_ne _ _ hne, view_store_of_ne s _ hne]

@[simp] theorem respond_payments (s : State) (sender : PaymentId) (payment : Payment) :
    (s.respond sender payment).payments = s.payments := by
  unfold State.respond
  split <;> rfl

theorem respond_requests_self (s : State) (id : PaymentId) (payment : Payment) :
    (s.respond id payment).requests id = (s.requests id).map (Phase.reply payment) := by
  unfold State.respond
  split
  · rename_i hWaiting
    simp [State.setPhase, hWaiting, Phase.reply]
  · rename_i hOther
    cases hRequest : s.requests id with
    | none => rfl
    | some phase =>
      cases phase with
      | waiting => exact absurd hRequest hOther
      | _ => rfl

theorem respond_requests_of_ne (s : State) (payment : Payment) {id' : PaymentId} (hne : id' ≠ id) :
    (s.respond id payment).requests id' = s.requests id' := by
  unfold State.respond
  split
  · exact Function.update_of_ne hne ..
  · rfl

theorem payInvoice_cases (id : PaymentId) (invoice : Invoice) (label : Option String)
    (now : Timestamp) (send : Except RetryableSendFailure Unit) :
    (∃ e, payInvoice id invoice label now send = (.returned (.error e), false)) ∨
      ∃ payment, payInvoice id invoice label now send = (.persistInvoice invoice payment, true) ∧
        payment.id = id ∧ payment.status = .pending := by
  unfold payInvoice
  split
  · exact Or.inl ⟨_, rfl⟩
  · exact Or.inl ⟨_, rfl⟩
  · exact Or.inr ⟨_, rfl, rfl, rfl⟩

theorem keysendPayment_cases (id : PaymentId) (amount : MillisatAmount) (now : Timestamp)
    (route : Except String Unit) (send : Except PaymentSendFailure Unit) :
    (∃ e, keysendPayment id amount now route send = (.returned (.error e), abandons route send)) ∨
      ∃ payment, keysendPayment id amount now route send = (.persistPending payment, true) ∧
        payment.id = id ∧ payment.status = .pending ∧ abandons route send = false := by
  unfold keysendPayment
  split
  · exact Or.inl ⟨_, rfl⟩
  · exact Or.inr ⟨_, rfl, rfl, rfl, rfl⟩
  · rename_i results
    by_cases hContinues : continues results
    · rw [if_pos hContinues]
      exact Or.inr ⟨_, rfl, rfl, rfl, by simp [abandons, hContinues]⟩
    · rw [if_neg hContinues]
      exact Or.inl
        ⟨.message (paymentSendFailure (.partialFailure results)), by simp [abandons, hContinues]⟩
  · rename_i e hOther
    refine Or.inl ⟨.message (paymentSendFailure e), ?_⟩
    cases e with
    | partialFailure results => exact absurd rfl (hOther results)
    | _ => rfl

theorem Moves.of_eq {w w' : View} (h : Moves id v action v') (hStart : w = v) (hEnd : w' = v') :
    Moves id w action w' := hStart ▸ hEnd ▸ h

structure Advances (s : State) (id : PaymentId) (action : Action) (s' : State) : Prop where
  moves : Moves id (s.view id) action (s'.view id)
  others : ∀ id', id' ≠ id → s'.view id' = s.view id'

theorem begin_view {begun : Phase × Bool} (h : s.begin id begun = some s') :
    s.view id = ⟨none, s.ldk id, s.senders.lookup id, none⟩ ∧
      s'.view id = .begun begun (s.ldk id) (s.senders.lookup id) ∧
      ∀ id', id' ≠ id → s'.view id' = s.view id' := by
  unfold State.begin at h
  split at h
  · rename_i hRequest hRow
    cases h
    obtain ⟨phase, taken⟩ := begun
    refine ⟨by rw [State.view, hRequest, hRow], ?_, fun id' hne => ?_⟩
    · cases taken <;> simp [State.view, State.setPhase, View.begun, hRow]
    · cases taken <;> simp [State.view, State.setPhase, Function.update_of_ne hne]
  · cases h

theorem advances_drop {phase : Phase} {written : Bool} (hRequest : s.requests id = some phase)
    (hEnded : phase.ended = false) (hView : s'.view id =
      ⟨some .dropped, s.ldk id, s.senders.lookup id,
        phase.droppedRow written (s.payments.lookup id)⟩)
    (hOthers : ∀ id', id' ≠ id → s'.view id' = s.view id') : Advances s id (.drop written) s' := by
  refine ⟨(Moves.drop _ _ _ phase written hEnded).of_eq ?_ hView, hOthers⟩
  rw [State.view, hRequest]

theorem stepOf_advances (hOwned : (s.view id).Owned id) (h : stepOf s id action = some s') :
    Advances s id action s' := by
  cases action with
  | payInvoice invoice label now send =>
    obtain ⟨hStart, hEnd, hOthers⟩ := begin_view h
    exact ⟨(Moves.payInvoice ..).of_eq hStart hEnd, hOthers⟩
  | keysendPayment amount now route send =>
    obtain ⟨hStart, hEnd, hOthers⟩ := begin_view h
    exact ⟨(Moves.keysendPayment ..).of_eq hStart hEnd, hOthers⟩
  | persistInvoice answer =>
    dsimp only [stepOf] at h
    split at h
    · rename_i invoice payment hRequest
      cases h
      refine ⟨(Moves.persistInvoice (s.ldk id) (s.senders.lookup id) (s.payments.lookup id)
        invoice payment answer).of_eq ?_ ?_, fun id' hne => ?_⟩
      · rw [State.view, hRequest]
      · exact view_setPhase s id _
      · exact view_setPhase_of_ne s _ hne
    · cases h
  | persistPending answer =>
    dsimp only [stepOf] at h
    split at h
    · rename_i payment hRequest
      obtain rfl : payment.id = id := hOwned.request _ hRequest payment rfl
      cases h
      refine ⟨(Moves.persistPending (s.ldk payment.id) (s.senders.lookup payment.id)
        (s.payments.lookup payment.id) payment answer).of_eq ?_ ?_, fun id' hne => ?_⟩
      · rw [State.view, hRequest]
      · exact view_stored s payment _ _
      · exact view_stored_of_ne s _ _ hne
    · cases h
  | register =>
    dsimp only [stepOf] at h
    split at h
    · rename_i payment hRequest
      cases h
      refine ⟨(Moves.register (s.ldk id) (s.senders.lookup id) (s.payments.lookup id)
        payment).of_eq ?_ ?_, fun id' hne => ?_⟩
      · rw [State.view, hRequest]
      · simp [State.view, State.setPhase]
      · simp [State.view, State.setPhase, Function.update_of_ne hne,
          AsyncSenders.lookup_register_of_ne hne]
    · cases h
  | persistOutcome answer =>
    dsimp only [stepOf] at h
    split at h
    · rename_i payment hRequest
      obtain rfl : payment.id = id := hOwned.request _ hRequest payment rfl
      cases h
      refine ⟨(Moves.persistOutcome (s.ldk payment.id) (s.senders.lookup payment.id)
        (s.payments.lookup payment.id) payment answer).of_eq ?_ ?_, fun id' hne => ?_⟩
      · rw [State.view, hRequest]
      · exact view_stored s payment _ _
      · exact view_stored_of_ne s _ _ hne
    · cases h
  | drop written =>
    dsimp only [stepOf] at h
    split at h
    · rename_i invoice payment hRequest
      cases h
      exact advances_drop hRequest rfl (view_setPhase s id _) fun id' hne =>
        view_setPhase_of_ne s _ hne
    · rename_i payment hRequest
      obtain rfl : payment.id = id := hOwned.request _ hRequest payment rfl
      cases h
      refine advances_drop hRequest rfl ?_ fun id' hne => ?_
      · exact view_stored s payment _ _
      · exact view_stored_of_ne s _ _ hne
    · rename_i payment hRequest
      cases h
      exact advances_drop hRequest rfl (view_setPhase s id _) fun id' hne =>
        view_setPhase_of_ne s _ hne
    · rename_i hRequest
      cases h
      exact advances_drop hRequest rfl (view_setPhase s id _) fun id' hne =>
        view_setPhase_of_ne s _ hne
    · rename_i payment hRequest
      obtain rfl : payment.id = id := hOwned.request _ hRequest payment rfl
      cases h
      refine advances_drop hRequest rfl ?_ fun id' hne => ?_
      · exact view_stored s payment _ _
      · exact view_stored_of_ne s _ _ hne
    · cases h
  | event outcome =>
    dsimp only [stepOf] at h
    split at h
    · rename_i hDeliver
      split at h
      · rename_i payment sender senders hGet
        obtain ⟨hNamed, hGet⟩ := Option.ite_none_right_eq_some.mp hGet
        obtain ⟨hSender, rfl⟩ := AsyncSenders.get_eq_some_iff.mp hGet
        obtain rfl : sender = id := (hOwned.sender payment sender hSender).2
        cases h
        refine ⟨(Moves.answered (s.requests sender) (s.ldk sender) (s.payments.lookup sender)
          payment outcome hDeliver hNamed).of_eq ?_ ?_, fun id' hne => ?_⟩
        · rw [State.view, hSender]
        · simp [State.view, respond_requests_self]
        · simp [State.view, respond_requests_of_ne s _ hne, Function.update_of_ne hne,
            AList.lookup_erase_ne hne]
      · rename_i hGet
        cases h
        refine ⟨(Moves.unanswered (s.requests id) (s.ldk id) (s.senders.lookup id)
          (s.payments.lookup id) outcome hDeliver fun hNamed => ?_).of_eq rfl ?_,
          fun id' hne => ?_⟩
        · rw [if_pos hNamed] at hGet
          exact AsyncSenders.get_eq_none_iff.mp hGet
        · simp [State.view]
        · simp [State.view, Function.update_of_ne hne]
    · cases h

theorem reply_payment {phase : Phase} {payment payment' : Payment}
    (h : (phase.reply payment).payment = some payment') :
    phase.payment = some payment' ∨ payment' = payment := by
  cases phase with
  | waiting => exact Or.inr (Option.some.inj h).symm
  | _ => exact Or.inl h

theorem Moves.owned (h : Moves id v action v') (hOwned : v.Owned id) : v'.Owned id := by
  cases h with
  | payInvoice ldk sender invoice label now send =>
    refine ⟨fun phase hPhase payment hPayment => ?_, hOwned.sender⟩
    obtain rfl := Option.some.inj hPhase
    rcases payInvoice_cases id invoice label now send with ⟨e, hEq⟩ | ⟨_, hEq, hId, -⟩
    · rw [hEq] at hPayment
      cases hPayment
    · rw [hEq] at hPayment
      cases hPayment
      exact hId
  | keysendPayment ldk sender amount now route send =>
    refine ⟨fun phase hPhase payment hPayment => ?_, hOwned.sender⟩
    obtain rfl := Option.some.inj hPhase
    rcases keysendPayment_cases id amount now route send with ⟨e, hEq⟩ | ⟨_, hEq, hId, -⟩
    · rw [hEq] at hPayment
      cases hPayment
    · rw [hEq] at hPayment
      cases hPayment
      exact hId
  | persistInvoice ldk sender row invoice payment answer =>
    refine ⟨fun phase hPhase payment' hPayment => ?_, hOwned.sender⟩
    obtain rfl := Option.some.inj hPhase
    refine hOwned.request _ rfl payment' ?_
    split at hPayment
    · exact hPayment
    · cases hPayment
  | persistPending ldk sender row payment answer =>
    refine ⟨fun phase hPhase payment' hPayment => ?_, hOwned.sender⟩
    obtain rfl := Option.some.inj hPhase
    refine hOwned.request _ rfl payment' ?_
    split at hPayment
    · exact hPayment
    · cases hPayment
  | register ldk sender row payment =>
    refine ⟨fun phase hPhase payment' hPayment => ?_, fun payment' sender' hSender => ?_⟩
    · obtain rfl := Option.some.inj hPhase
      cases hPayment
    · obtain ⟨rfl, rfl⟩ := Prod.mk.inj (Option.some.inj hSender)
      exact ⟨hOwned.request _ rfl payment rfl, rfl⟩
  | persistOutcome ldk sender row payment answer =>
    refine ⟨fun phase hPhase payment' hPayment => ?_, hOwned.sender⟩
    obtain rfl := Option.some.inj hPhase
    cases hPayment
  | drop ldk sender row phase written hEnded =>
    refine ⟨fun phase' hPhase payment' hPayment => ?_, hOwned.sender⟩
    obtain rfl := Option.some.inj hPhase
    cases hPayment
  | answered request ldk row payment outcome hDeliver hNamed =>
    refine ⟨fun phase hPhase payment' hPayment => ?_, fun payment' sender' hSender => ?_⟩
    · obtain ⟨phase', hRequest, rfl⟩ := Option.map_eq_some_iff.mp hPhase
      rcases reply_payment hPayment with hPayment | rfl
      · exact hOwned.request phase' hRequest payment' hPayment
      · rw [apply_id]
        exact (hOwned.sender payment id rfl).1
    · cases hSender
  | unanswered request ldk sender row outcome hDeliver hNone =>
    exact ⟨hOwned.request, hOwned.sender⟩

theorem restart_owned (hOwned : v.Owned id) : v.restart.Owned id := by
  refine ⟨fun phase hPhase payment hPayment => ?_, fun _ _ hSender => by cases hSender⟩
  obtain ⟨phase', hRequest, rfl⟩ := Option.map_eq_some_iff.mp hPhase
  unfold Phase.restart at hPayment
  split at hPayment
  · exact hOwned.request phase' hRequest payment hPayment
  · cases hPayment

theorem step_owned {e : Step} (hOwned : s.Owned) (h : step s e = some s') : s'.Owned := by
  cases e with
  | of id action =>
    have hAdvances := stepOf_advances (hOwned id) h
    intro id'
    by_cases hId : id' = id
    · subst hId
      exact hAdvances.moves.owned (hOwned id')
    · rw [hAdvances.others id' hId]
      exact hOwned id'
  | restart =>
    cases h
    exact fun id => restart_owned (hOwned id)

end Kld.Payments
