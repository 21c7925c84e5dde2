import Mathlib.Data.List.Basic

/-!
# Runs of a partial step function

A step function refuses a label that is not enabled in the present state.
Conditions are imposed label by label, in the state in which each label is
taken, and an invariant is carried along the whole run by one induction.
-/

namespace Transition

universe u v

variable {σ : Type u} {ε : Type v}

def run (step : σ → ε → Option σ) : σ → List ε → Option σ
  | s, [] => some s
  | s, e :: es => (step s e).bind fun s' => run step s' es

/-- Every label of the run meets `ok` in the state in which it is taken. -/
def Along (step : σ → ε → Option σ) (ok : σ → ε → Prop) : σ → List ε → Prop
  | _, [] => True
  | s, e :: es => ok s e ∧ ∀ s', step s e = some s' → Along step ok s' es

/-- `P` holds at the start and in every state that the run passes through. -/
def Always (step : σ → ε → Option σ) (P : σ → Prop) : σ → List ε → Prop
  | s, [] => P s
  | s, e :: es => P s ∧ ∀ s', step s e = some s' → Always step P s' es

/-- A step function that refuses no label. -/
def total (next : σ → ε → σ) (s : σ) (e : ε) : Option σ := some (next s e)

theorem run_total (next : σ → ε → σ) (s : σ) (es : List ε) :
    run (total next) s es = some (es.foldl next s) := by
  induction es generalizing s with
  | nil => rfl
  | cons e es ih => exact ih (next s e)

variable {step : σ → ε → Option σ} {ok : σ → ε → Prop} {Inv P : σ → Prop}

@[simp] theorem run_nil (s : σ) : run step s [] = some s := rfl

@[simp] theorem run_cons (s : σ) (e : ε) (es : List ε) :
    run step s (e :: es) = (step s e).bind fun s' => run step s' es := rfl

theorem run_cons_eq_some {s t : σ} {e : ε} {es : List ε} (h : run step s (e :: es) = some t) :
    ∃ s', step s e = some s' ∧ run step s' es = some t := Option.bind_eq_some_iff.mp h

theorem run_append (s : σ) (es es' : List ε) :
    run step s (es ++ es') = (run step s es).bind fun s' => run step s' es' := by
  induction es generalizing s with
  | nil => rfl
  | cons e es ih =>
    rw [List.cons_append, run_cons, run_cons, Option.bind_assoc]
    exact Option.bind_congr fun s' _ => ih s'

theorem along_cons {s s' : σ} {e : ε} {es : List ε} (hStep : step s e = some s') :
    Along step ok s (e :: es) ↔ ok s e ∧ Along step ok s' es := by
  constructor
  · exact fun h => ⟨h.1, h.2 s' hStep⟩
  · rintro ⟨hOk, hRest⟩
    refine ⟨hOk, fun s'' hStep' => ?_⟩
    rwa [← Option.some.inj (hStep.symm.trans hStep')]

theorem Always.start {s : σ} {es : List ε} (h : Always step P s es) : P s := by
  cases es with
  | nil => exact h
  | cons e es => exact h.1

theorem Always.end {s t : σ} {es : List ε} (h : Always step P s es)
    (hRun : run step s es = some t) :
    P t := by
  induction es generalizing s with
  | nil => exact Option.some.inj hRun ▸ h
  | cons e es ih =>
    obtain ⟨s', hStep, hRest⟩ := run_cons_eq_some hRun
    exact ih (h.2 s' hStep) hRest

theorem invariant_of_along (hKeep : ∀ s e s', Inv s → ok s e → step s e = some s' → Inv s')
    {s t : σ} {es : List ε} (hInv : Inv s) (hOk : Along step ok s es)
    (hRun : run step s es = some t) : Inv t := by
  induction es generalizing s with
  | nil => exact Option.some.inj hRun ▸ hInv
  | cons e es ih =>
    obtain ⟨s', hStep, hRest⟩ := run_cons_eq_some hRun
    exact ih (hKeep s e s' hInv hOk.1 hStep) (hOk.2 s' hStep) hRest

theorem invariant_run (hKeep : ∀ s e s', Inv s → step s e = some s' → Inv s')
    {s t : σ} {es : List ε} (hInv : Inv s) (hRun : run step s es = some t) : Inv t := by
  induction es generalizing s with
  | nil => exact Option.some.inj hRun ▸ hInv
  | cons e es ih =>
    obtain ⟨s', hStep, hRest⟩ := run_cons_eq_some hRun
    exact ih (hKeep s e s' hInv hStep) hRest

/-- A property that an invariant implies holds in every state of a run. -/
theorem always_of_invariant (hKeep : ∀ s e s', Inv s → step s e = some s' → Inv s')
    (hP : ∀ s, Inv s → P s) {s : σ} (hInv : Inv s) (es : List ε) : Always step P s es := by
  induction es generalizing s with
  | nil => exact hP s hInv
  | cons e es ih => exact ⟨hP s hInv, fun s' hStep => ih (hKeep s e s' hInv hStep)⟩

/-- Labels that keep an invariant keep what it implies in every state of the run. -/
theorem always_of_along (hKeep : ∀ s e s', Inv s → ok s e → step s e = some s' → Inv s')
    (hP : ∀ s, Inv s → P s) {s : σ} {es : List ε} (hInv : Inv s) (hOk : Along step ok s es) :
    Always step P s es := by
  induction es generalizing s with
  | nil => exact hP s hInv
  | cons e es ih =>
    exact ⟨hP s hInv, fun s' hStep => ih (hKeep s e s' hInv hOk.1 hStep) (hOk.2 s' hStep)⟩

/-- A condition that depends on the label alone, under an invariant, is one on the labels. -/
theorem along_iff_forall {cond : ε → Prop}
    (hKeep : ∀ s e s', Inv s → step s e = some s' → Inv s')
    (hIff : ∀ s e, Inv s → (ok s e ↔ cond e)) {s t : σ} {es : List ε} (hInv : Inv s)
    (hRun : run step s es = some t) : Along step ok s es ↔ ∀ e ∈ es, cond e := by
  induction es generalizing s with
  | nil => exact iff_of_true trivial fun e hMem => absurd hMem List.not_mem_nil
  | cons e es ih =>
    obtain ⟨s', hStep, hRest⟩ := run_cons_eq_some hRun
    rw [along_cons hStep, List.forall_mem_cons, hIff s e hInv,
      ih (hKeep s e s' hInv hStep) hRest]

theorem along_of_labels {cond : ε → Prop} {s : σ} {es : List ε} (h : ∀ e ∈ es, cond e) :
    Along step (fun _ e => cond e) s es := by
  induction es generalizing s with
  | nil => trivial
  | cons e es ih =>
    obtain ⟨hFirst, hRest⟩ := List.forall_mem_cons.mp h
    exact ⟨hFirst, fun _ _ => ih hRest⟩

/-- A condition that an invariant implies is met by every run. -/
theorem along_of_invariant (hKeep : ∀ s e s', Inv s → step s e = some s' → Inv s')
    (hOk : ∀ s e, Inv s → ok s e) {s : σ} (hInv : Inv s) (es : List ε) : Along step ok s es := by
  induction es generalizing s with
  | nil => trivial
  | cons e es ih => exact ⟨hOk s e hInv, fun s' hStep => ih (hKeep s e s' hInv hStep)⟩

/-- Conditions that agree under an invariant that they keep are met by the same runs. -/
theorem along_congr {ok' : σ → ε → Prop}
    (hKeep : ∀ s e s', Inv s → ok s e → step s e = some s' → Inv s')
    (hIff : ∀ s e, Inv s → (ok s e ↔ ok' s e)) {s : σ} (hInv : Inv s) (es : List ε) :
    Along step ok s es ↔ Along step ok' s es := by
  induction es generalizing s with
  | nil => exact Iff.rfl
  | cons e es ih =>
    refine Iff.trans (and_congr_right fun hOk => forall₂_congr fun s' hStep => ?_)
      (and_congr_left fun _ => hIff s e hInv)
    exact ih (hKeep s e s' hInv hOk hStep)

/-- Two properties that agree under an invariant hold along the same runs. -/
theorem always_congr {Q : σ → Prop} (hKeep : ∀ s e s', Inv s → step s e = some s' → Inv s')
    (hIff : ∀ s, Inv s → (P s ↔ Q s)) {s : σ} (hInv : Inv s) (es : List ε) :
    Always step P s es ↔ Always step Q s es := by
  induction es generalizing s with
  | nil => exact hIff s hInv
  | cons e es ih =>
    refine and_congr (hIff s hInv) (forall₂_congr fun s' hStep => ?_)
    exact ih (hKeep s e s' hInv hStep)

/-- When good labels keep an invariant that implies `P`, and a bad label breaks `P`
at once, the condition on the labels is exact. -/
theorem always_iff_along (hP : ∀ s, Inv s → P s)
    (hGood : ∀ s e s', Inv s → ok s e → step s e = some s' → Inv s')
    (hBad : ∀ s e s', Inv s → ¬ ok s e → step s e = some s' → ¬ P s')
    {s t : σ} {es : List ε} (hInv : Inv s) (hRun : run step s es = some t) :
    Always step P s es ↔ Along step ok s es := by
  induction es generalizing s with
  | nil => exact iff_of_true (hP s hInv) trivial
  | cons e es ih =>
    obtain ⟨s', hStep, hRest⟩ := run_cons_eq_some hRun
    constructor
    · rintro ⟨_, hAlways⟩
      have hOk : ok s e := by
        by_contra hNot
        exact hBad s e s' hInv hNot hStep (hAlways s' hStep).start
      refine ⟨hOk, fun s'' hStep' => ?_⟩
      obtain rfl : s' = s'' := Option.some.inj (hStep.symm.trans hStep')
      exact (ih (hGood s e s' hInv hOk hStep) hRest).mp (hAlways s' hStep)
    · rintro ⟨hOk, hAlong⟩
      refine ⟨hP s hInv, fun s'' hStep' => ?_⟩
      obtain rfl : s' = s'' := Option.some.inj (hStep.symm.trans hStep')
      exact (ih (hGood s e s' hInv hOk hStep) hRest).mpr (hAlong s' hStep)

theorem always_iff_along_total {next : σ → ε → σ} (hP : ∀ s, Inv s → P s)
    (hGood : ∀ s e, Inv s → ok s e → Inv (next s e))
    (hBad : ∀ s e, Inv s → ¬ ok s e → ¬ P (next s e)) {s : σ} (hInv : Inv s) (es : List ε) :
    Always (total next) P s es ↔ Along (total next) ok s es := by
  refine always_iff_along hP ?_ ?_ hInv (run_total next s es)
  · intro s e s' hInv hOk hStep
    exact Option.some.inj hStep ▸ hGood s e hInv hOk
  · intro s e s' hInv hNot hStep
    exact Option.some.inj hStep ▸ hBad s e hInv hNot

/-- A run stays good while its labels meet `ok`, and is doomed from the first that does not. -/
theorem good_or_doomed {Doomed : σ → Prop}
    (hGood : ∀ s e s', Inv s → ok s e → step s e = some s' → Inv s')
    (hBad : ∀ s e s', Inv s → ¬ ok s e → step s e = some s' → Doomed s')
    (hDoomed : ∀ s e s', Doomed s → step s e = some s' → Doomed s')
    {s t : σ} {es : List ε} (hInv : Inv s) (hRun : run step s es = some t) :
    (Along step ok s es ∧ Inv t) ∨ (¬ Along step ok s es ∧ Doomed t) := by
  induction es generalizing s with
  | nil => exact Or.inl ⟨trivial, Option.some.inj hRun ▸ hInv⟩
  | cons e es ih =>
    obtain ⟨s', hStep, hRest⟩ := run_cons_eq_some hRun
    by_cases hOk : ok s e
    · rcases ih (hGood s e s' hInv hOk hStep) hRest with ⟨hAlong, hEnd⟩ | ⟨hNot, hEnd⟩
      · refine Or.inl ⟨⟨hOk, fun s'' hStep' => ?_⟩, hEnd⟩
        rwa [← Option.some.inj (hStep.symm.trans hStep')]
      · exact Or.inr ⟨fun hAlong => hNot (hAlong.2 s' hStep), hEnd⟩
    · exact Or.inr ⟨fun hAlong => hOk hAlong.1,
        invariant_run hDoomed (hBad s e s' hInv hOk hStep) hRest⟩

end Transition
