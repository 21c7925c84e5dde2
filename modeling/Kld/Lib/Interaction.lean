import Mathlib.Data.List.Forall2

/-!
# Programs that ask the outside

A program asks one question after the other and goes on with the answer, whichever it is.
Its runs are the exchanges that the outside may lead it to, with the result at the end.
-/

namespace Interaction

universe u v

inductive Program {Q : Type u} (R : Q → Type u) (ε : Type v) (α : Type v) : Type (max u v) where
  | done (a : α) : Program R ε α
  | fail (e : ε) : Program R ε α
  | ask (q : Q) (next : R q → Program R ε α) : Program R ε α

namespace Program

variable {Q : Type u} {R : Q → Type u} {ε ε' α β : Type v}

def bind : Program R ε α → (α → Program R ε β) → Program R ε β
  | .done a, f => f a
  | .fail e, _ => .fail e
  | .ask q next, f => .ask q fun r => bind (next r) f

/-- What a program fails with is a value for the rest. -/
def attempt : Program R ε α → Program R ε' (Except ε α)
  | .done a => .done (.ok a)
  | .fail e => .done (.error e)
  | .ask q next => .ask q fun r => attempt (next r)

def mapError (f : ε → ε') : Program R ε α → Program R ε' α
  | .done a => .done a
  | .fail e => .fail (f e)
  | .ask q next => .ask q fun r => mapError f (next r)

def ofExcept : Except ε α → Program R ε α
  | .ok a => .done a
  | .error e => .fail e

instance : Monad (Program R ε) where
  pure := .done
  bind := bind

end Program

open Program

variable {Q : Type u} {R : Q → Type u} {ε ε' α β : Type v}

inductive Runs : Program R ε α → List ((q : Q) × R q) → Except ε α → Prop where
  | done (a : α) : Runs (.done a) [] (.ok a)
  | fail (e : ε) : Runs (.fail e) [] (.error e)
  | ask {q : Q} {next : R q → Program R ε α} {r : R q} {t : List ((q : Q) × R q)}
    {result : Except ε α} (h : Runs (next r) t result) : Runs (.ask q next) (⟨q, r⟩ :: t) result

/-- All that a program asks, whatever it is answered. -/
def Asks (P : Q → Prop) : Program R ε α → Prop
  | .done _ => True
  | .fail _ => True
  | .ask q next => P q ∧ ∀ r, Asks P (next r)

section Asks

variable {P : Q → Prop}

theorem Asks.of_runs {x : Program R ε α} {t : List ((q : Q) × R q)} {result : Except ε α}
    (hAsks : Asks P x) (h : Runs x t result) : ∀ e ∈ t, P e.1 := by
  induction h with
  | done a => exact fun _ hMem => absurd hMem List.not_mem_nil
  | fail e => exact fun _ hMem => absurd hMem List.not_mem_nil
  | ask h ih => exact List.forall_mem_cons.mpr ⟨hAsks.1, ih (hAsks.2 _)⟩

theorem Asks.mono {P' : Q → Prop} {x : Program R ε α} (hImp : ∀ q, P q → P' q) (h : Asks P x) :
    Asks P' x := by
  induction x with
  | done a => trivial
  | fail e => trivial
  | ask q next ih => exact ⟨hImp q h.1, fun r => ih r (h.2 r)⟩

theorem asks_bind {x : Program R ε α} {f : α → Program R ε β} (hFirst : Asks P x)
    (hRest : ∀ a, Asks P (f a)) : Asks P (x >>= f) := by
  change Asks P (Program.bind x f)
  induction x with
  | done a => exact hRest a
  | fail e => trivial
  | ask q next ih => exact ⟨hFirst.1, fun r => ih r (hFirst.2 r)⟩

theorem asks_mapError {f : ε → ε'} {x : Program R ε α} (h : Asks P x) :
    Asks P (x.mapError f) := by
  induction x with
  | done a => trivial
  | fail e => trivial
  | ask q next ih => exact ⟨h.1, fun r => ih r (h.2 r)⟩

theorem asks_attempt {x : Program R ε α} (h : Asks P x) :
    Asks P (x.attempt : Program R ε' (Except ε α)) := by
  induction x with
  | done a => trivial
  | fail e => trivial
  | ask q next ih => exact ⟨h.1, fun r => ih r (h.2 r)⟩

theorem asks_ofExcept (x : Except ε α) : Asks P (ofExcept x : Program R ε α) := by
  cases x <;> trivial

theorem asks_forM {γ : Type*} {f : γ → Program R ε PUnit} (h : ∀ x, Asks P (f x)) {xs : List γ} :
    Asks P (xs.forM f) := by
  induction xs with
  | nil => trivial
  | cons x xs ih => exact asks_bind (h x) fun _ => ih

end Asks

theorem mapError_bind {g : ε → ε'} {x : Program R ε α} {f : α → Program R ε β} :
    (x >>= f).mapError g = x.mapError g >>= fun a => (f a).mapError g := by
  change (Program.bind x f).mapError g = Program.bind (x.mapError g) _
  induction x with
  | done a => rfl
  | fail e => rfl
  | ask q next ih => exact congrArg (Program.ask q) (funext ih)

theorem mapError_forM {γ : Type*} {g : ε → ε'} {f : γ → Program R ε PUnit} {xs : List γ} :
    (xs.forM f).mapError g = xs.forM fun x => (f x).mapError g := by
  induction xs with
  | nil => rfl
  | cons x xs ih =>
    change (f x >>= fun _ => xs.forM f).mapError g = (f x).mapError g >>= fun _ => xs.forM _
    rw [mapError_bind, ih]

theorem runs_pure_iff {a : α} {t : List ((q : Q) × R q)} {result : Except ε α} :
    Runs (pure a : Program R ε α) t result ↔ t = [] ∧ result = .ok a := by
  constructor
  · intro h
    cases h
    exact ⟨rfl, rfl⟩
  · rintro ⟨rfl, rfl⟩
    exact .done a

theorem runs_fail_iff {e : ε} {t : List ((q : Q) × R q)} {result : Except ε α} :
    Runs (.fail e : Program R ε α) t result ↔ t = [] ∧ result = .error e := by
  constructor
  · intro h
    cases h
    exact ⟨rfl, rfl⟩
  · rintro ⟨rfl, rfl⟩
    exact .fail e

theorem runs_ask_iff {q : Q} {next : R q → Program R ε α} {t : List ((q : Q) × R q)}
    {result : Except ε α} :
    Runs (.ask q next) t result ↔ ∃ r rest, t = ⟨q, r⟩ :: rest ∧ Runs (next r) rest result := by
  constructor
  · intro h
    cases h with
    | ask h => exact ⟨_, _, rfl, h⟩
  · rintro ⟨r, rest, rfl, h⟩
    exact .ask h

/-- A first part succeeds and the rest goes on with its value, or its error is the result. -/
theorem runs_bind_iff {x : Program R ε α} {f : α → Program R ε β} {t : List ((q : Q) × R q)}
    {result : Except ε β} :
    Runs (x >>= f) t result ↔
      (∃ a t₁ t₂, t = t₁ ++ t₂ ∧ Runs x t₁ (.ok a) ∧ Runs (f a) t₂ result) ∨
        ∃ e, Runs x t (.error e) ∧ result = .error e := by
  change Runs (Program.bind x f) t result ↔ _
  constructor
  · intro h
    induction x generalizing t with
    | done a => exact Or.inl ⟨a, [], t, rfl, .done a, h⟩
    | fail e =>
      cases h
      exact Or.inr ⟨e, .fail e, rfl⟩
    | ask q next ih =>
      obtain ⟨r, rest, rfl, hNext⟩ := runs_ask_iff.mp h
      rcases ih r hNext with ⟨a, t₁, t₂, rfl, hFirst, hRest⟩ | ⟨e, hFirst, rfl⟩
      · exact Or.inl ⟨a, ⟨q, r⟩ :: t₁, t₂, rfl, .ask hFirst, hRest⟩
      · exact Or.inr ⟨e, .ask hFirst, rfl⟩
  · rintro (⟨a, t₁, t₂, rfl, hFirst, hRest⟩ | ⟨e, hFirst, rfl⟩)
    · induction x generalizing t₁ with
      | done a' =>
        cases hFirst
        exact hRest
      | fail e => cases hFirst
      | ask q next ih =>
        obtain ⟨r, rest, rfl, hNext⟩ := runs_ask_iff.mp hFirst
        exact .ask (ih r rest hNext)
    · induction x generalizing t with
      | done a => cases hFirst
      | fail e' =>
        cases hFirst
        exact .fail e
      | ask q next ih =>
        obtain ⟨r, rest, rfl, hNext⟩ := runs_ask_iff.mp hFirst
        exact .ask (ih r hNext)

theorem runs_mapError_iff {f : ε → ε'} {x : Program R ε α} {t : List ((q : Q) × R q)}
    {result : Except ε' α} :
    Runs (x.mapError f) t result ↔ ∃ first, Runs x t first ∧ result = first.mapError f := by
  induction x generalizing t with
  | done a =>
    constructor
    · intro h
      cases h
      exact ⟨_, .done a, rfl⟩
    · rintro ⟨first, hFirst, rfl⟩
      cases hFirst
      exact .done a
  | fail e =>
    constructor
    · intro h
      cases h
      exact ⟨_, .fail e, rfl⟩
    · rintro ⟨first, hFirst, rfl⟩
      cases hFirst
      exact .fail (f e)
  | ask q next ih =>
    constructor
    · intro h
      obtain ⟨r, rest, rfl, hNext⟩ := runs_ask_iff.mp h
      obtain ⟨first, hFirst, rfl⟩ := (ih r).mp hNext
      exact ⟨first, .ask hFirst, rfl⟩
    · rintro ⟨first, hFirst, rfl⟩
      obtain ⟨r, rest, rfl, hNext⟩ := runs_ask_iff.mp hFirst
      exact .ask ((ih r).mpr ⟨first, hNext, rfl⟩)

theorem runs_mapError_ok_iff {f : ε → ε'} {x : Program R ε α} {t : List ((q : Q) × R q)} {a : α} :
    Runs (x.mapError f) t (.ok a) ↔ Runs x t (.ok a) := by
  rw [runs_mapError_iff]
  constructor
  · rintro ⟨first, hFirst, hEq⟩
    cases first with
    | ok b =>
      cases hEq
      exact hFirst
    | error e => cases hEq
  · exact fun h => ⟨_, h, rfl⟩

theorem runs_mapError_error_iff {f : ε → ε'} {x : Program R ε α} {t : List ((q : Q) × R q)}
    {e' : ε'} : Runs (x.mapError f) t (.error e') ↔ ∃ e, Runs x t (.error e) ∧ e' = f e := by
  rw [runs_mapError_iff]
  constructor
  · rintro ⟨first, hFirst, hEq⟩
    cases first with
    | ok b => cases hEq
    | error e =>
      cases hEq
      exact ⟨e, hFirst, rfl⟩
  · rintro ⟨e, h, rfl⟩
    exact ⟨_, h, rfl⟩

theorem runs_attempt_iff {x : Program R ε α} {t : List ((q : Q) × R q)}
    {result : Except ε' (Except ε α)} :
    Runs (x.attempt : Program R ε' (Except ε α)) t result ↔
      ∃ first, Runs x t first ∧ result = .ok first := by
  induction x generalizing t with
  | done a =>
    constructor
    · intro h
      cases h
      exact ⟨_, .done a, rfl⟩
    · rintro ⟨first, hFirst, rfl⟩
      cases hFirst
      exact .done _
  | fail e =>
    constructor
    · intro h
      cases h
      exact ⟨_, .fail e, rfl⟩
    · rintro ⟨first, hFirst, rfl⟩
      cases hFirst
      exact .done _
  | ask q next ih =>
    constructor
    · intro h
      obtain ⟨r, rest, rfl, hNext⟩ := runs_ask_iff.mp h
      obtain ⟨first, hFirst, rfl⟩ := (ih r).mp hNext
      exact ⟨first, .ask hFirst, rfl⟩
    · rintro ⟨first, hFirst, rfl⟩
      obtain ⟨r, rest, rfl, hNext⟩ := runs_ask_iff.mp hFirst
      exact .ask ((ih r).mpr ⟨first, hNext, rfl⟩)

theorem runs_ofExcept_iff {x : Except ε α} {t : List ((q : Q) × R q)} {result : Except ε α} :
    Runs (ofExcept x : Program R ε α) t result ↔ t = [] ∧ result = x := by
  cases x with
  | ok a => exact runs_pure_iff
  | error e => exact runs_fail_iff

theorem runs_bind_ok_iff {x : Program R ε α} {f : α → Program R ε β} {t : List ((q : Q) × R q)}
    {b : β} : Runs (x >>= f) t (.ok b) ↔
      ∃ a t₁ t₂, t = t₁ ++ t₂ ∧ Runs x t₁ (.ok a) ∧ Runs (f a) t₂ (.ok b) := by
  rw [runs_bind_iff]
  exact or_iff_left fun ⟨_, _, hError⟩ => nomatch hError

theorem runs_ofExcept_bind_ok_iff {x : Except ε α} {f : α → Program R ε β}
    {t : List ((q : Q) × R q)} {b : β} :
    Runs (ofExcept x >>= f) t (.ok b) ↔ ∃ a, x = .ok a ∧ Runs (f a) t (.ok b) := by
  cases x with
  | ok a =>
    constructor
    · exact fun h => ⟨a, rfl, h⟩
    · rintro ⟨_, hOk, h⟩
      cases hOk
      exact h
  | error e =>
    constructor
    · intro h
      cases h
    · rintro ⟨_, hOk, _⟩
      cases hOk

/-- One element is done with after the other, and the first that fails is the last. -/
theorem runs_forM_iff {γ : Type*} {f : γ → Program R ε PUnit} {xs : List γ}
    {t : List ((q : Q) × R q)} {result : Except ε PUnit} :
    Runs (xs.forM f) t result ↔
      (∃ ts, t = ts.flatten ∧ result = .ok ⟨⟩ ∧
        List.Forall₂ (fun x part => Runs (f x) part (.ok ⟨⟩)) xs ts) ∨
      ∃ front x rest ts last e, xs = front ++ x :: rest ∧ t = ts.flatten ++ last ∧
        result = .error e ∧ List.Forall₂ (fun x part => Runs (f x) part (.ok ⟨⟩)) front ts ∧
        Runs (f x) last (.error e) := by
  induction xs generalizing t with
  | nil =>
    change Runs (pure ⟨⟩) t result ↔ _
    rw [runs_pure_iff]
    constructor
    · rintro ⟨rfl, rfl⟩
      exact Or.inl ⟨[], rfl, rfl, .nil⟩
    · rintro (⟨ts, rfl, rfl, hEach⟩ | ⟨front, x, rest, ts, last, e, hSplit, _⟩)
      · cases hEach
        exact ⟨rfl, rfl⟩
      · exact absurd hSplit.symm (by simp)
  | cons x xs ih =>
    change Runs (f x >>= fun _ => xs.forM f) t result ↔ _
    rw [runs_bind_iff]
    constructor
    · rintro (⟨⟨⟩, t₁, t₂, rfl, hFirst, hRest⟩ | ⟨e, hFirst, rfl⟩)
      · rcases ih.mp hRest with ⟨ts, rfl, rfl, hEach⟩ |
          ⟨front, y, rest, ts, last, e, rfl, rfl, rfl, hEach, hLast⟩
        · exact Or.inl ⟨t₁ :: ts, rfl, rfl, .cons hFirst hEach⟩
        · refine Or.inr ⟨x :: front, y, rest, t₁ :: ts, last, e, rfl, ?_, rfl, ?_, hLast⟩
          · rw [List.flatten_cons, List.append_assoc]
          · exact .cons hFirst hEach
      · exact Or.inr ⟨[], x, xs, [], t, e, rfl, rfl, rfl, .nil, hFirst⟩
    · rintro (⟨ts, rfl, rfl, hEach⟩ |
        ⟨front, y, rest, ts, last, e, hSplit, rfl, rfl, hEach, hLast⟩)
      · cases hEach with
        | cons hFirst hEach =>
          exact Or.inl ⟨⟨⟩, _, _, rfl, hFirst, ih.mpr (Or.inl ⟨_, rfl, rfl, hEach⟩)⟩
      · cases hEach with
        | nil =>
          obtain ⟨rfl, rfl⟩ := List.cons.inj hSplit
          exact Or.inr ⟨e, hLast, rfl⟩
        | cons hFirst hEach =>
          obtain ⟨rfl, rfl⟩ := List.cons.inj hSplit
          refine Or.inl ⟨⟨⟩, _, _, ?_, hFirst,
            ih.mpr (Or.inr ⟨_, y, rest, _, last, e, rfl, rfl, rfl, hEach, hLast⟩)⟩
          rw [List.flatten_cons, List.append_assoc]

end Interaction
