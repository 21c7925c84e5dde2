import Kld.Lib.Run

/-!
# What a run emits

A step may emit something, such as the work that it takes from a queue. What a run
has emitted and what is still to be done make up what was to be done at its start.
-/

namespace Transition

universe u v w

variable {σ : Type u} {ε : Type v} {α : Type w}

/-- What the steps of a run emit, in order. -/
def trace (step : σ → ε → Option σ) (emit : σ → ε → List α) : σ → List ε → List α
  | _, [] => []
  | s, e :: es => emit s e ++ (step s e).elim [] fun s' => trace step emit s' es

variable {step : σ → ε → Option σ} {emit : σ → ε → List α} {ok : σ → ε → Prop} {Inv Q : σ → Prop}
  {todo : σ → List α} {s s' t : σ} {e : ε} {es : List ε}

@[simp] theorem trace_nil (s : σ) : trace step emit s [] = [] := rfl

theorem trace_cons (hStep : step s e = some s') :
    trace step emit s (e :: es) = emit s e ++ trace step emit s' es := by
  rw [trace, hStep]
  rfl

/-- What is made of all that a run emits, element by element, is what is made of each step's. -/
theorem trace_hom {β : Type w} {f : List α → List β} (hNil : f [] = [])
    (hAppend : ∀ xs ys, f (xs ++ ys) = f xs ++ f ys) (s : σ) (es : List ε) :
    f (trace step emit s es) = trace step (fun s e => f (emit s e)) s es := by
  induction es generalizing s with
  | nil => exact hNil
  | cons e es ih =>
    rw [trace, trace, hAppend]
    cases step s e with
    | none => exact congrArg (f (emit s e) ++ ·) hNil
    | some s' => exact congrArg (f (emit s e) ++ ·) (ih s')

/-- If every step does what it takes from the work, a run has done what is no longer there. -/
theorem trace_append_todo
    (hStep : ∀ s e s', Inv s → ok s e → step s e = some s' →
      Inv s' ∧ todo s = emit s e ++ todo s')
    (hInv : Inv s) (hOk : Along step ok s es) (hRun : run step s es = some t) :
    trace step emit s es ++ todo t = todo s := by
  induction es generalizing s with
  | nil => rw [trace_nil, List.nil_append, Option.some.inj hRun]
  | cons e es ih =>
    obtain ⟨s', hFirst, hRest⟩ := run_cons_eq_some hRun
    obtain ⟨hInv', hTodo⟩ := hStep s e s' hInv hOk.1 hFirst
    rw [trace_cons hFirst, List.append_assoc, ih hInv' (hOk.2 s' hFirst) hRest, hTodo]

/-- What holds at the end of a run and not at its start has begun with one of its steps. -/
theorem exists_step_of_change (hStart : ¬ Q s) (hEnd : Q t) (hRun : run step s es = some t) :
    ∃ before e after u u', es = before ++ e :: after ∧ run step s before = some u ∧ ¬ Q u ∧
      step u e = some u' ∧ Q u' ∧ run step u' after = some t := by
  induction es generalizing s with
  | nil => exact absurd (Option.some.inj hRun ▸ hEnd) hStart
  | cons e es ih =>
    obtain ⟨s', hFirst, hRest⟩ := run_cons_eq_some hRun
    by_cases hQ : Q s'
    · exact ⟨[], e, es, s, s', rfl, rfl, hStart, hFirst, hQ, hRest⟩
    · obtain ⟨before, e', after, u, u', hEs, hBefore, hChange⟩ := ih hQ hRest
      refine ⟨e :: before, e', after, u, u', by rw [hEs, List.cons_append], ?_, hChange⟩
      rw [run_cons, hFirst]
      exact hBefore

end Transition
