import Mathlib.Data.List.Perm.Basic

/-! # Computations that answer a value or a fault -/

namespace Fallible

variable {ε α β γ : Type}

theorem ok_of_bind {x : Except ε α} {f : α → Except ε β} {b : β} (h : (x >>= f) = .ok b) :
    ∃ a, x = .ok a ∧ f a = .ok b := by
  cases x with
  | error fault => cases h
  | ok a => exact ⟨a, rfl, h⟩

theorem mapM_ok {f : α → Except ε β} {g : α → β} {xs : List α} (h : ∀ x ∈ xs, f x = .ok (g x)) :
    xs.mapM f = .ok (xs.map g) := by
  induction xs with
  | nil => rfl
  | cons x xs ih =>
    rw [List.mapM_cons, h x List.mem_cons_self, ih fun y hy => h y (List.mem_cons_of_mem _ hy)]
    rfl

theorem mapM_filterMap_ok {f : α → Option β} {g : β → Except ε γ} {k : α → γ} {xs : List α}
    (h : ∀ x ∈ xs, ∃ y, f x = some y ∧ g y = .ok (k x)) :
    (xs.filterMap f).mapM g = .ok (xs.map k) := by
  induction xs with
  | nil => rfl
  | cons x xs ih =>
    obtain ⟨y, hSome, hOk⟩ := h x List.mem_cons_self
    rw [List.filterMap_cons, hSome, List.mapM_cons, hOk,
      ih fun x' hMem => h x' (List.mem_cons_of_mem _ hMem)]
    rfl

theorem ok_of_mapM_cons {f : α → Except ε β} {x : α} {xs : List α} {ys : List β}
    (h : (x :: xs).mapM f = .ok ys) :
    ∃ y ys', f x = .ok y ∧ xs.mapM f = .ok ys' ∧ ys = y :: ys' := by
  rw [List.mapM_cons] at h
  obtain ⟨y, hHead, h⟩ := ok_of_bind h
  obtain ⟨ys', hTail, h⟩ := ok_of_bind h
  cases h
  exact ⟨y, ys', hHead, hTail, rfl⟩

theorem ok_of_mapM {f : α → Except ε β} {xs : List α} {ys : List β} (h : xs.mapM f = .ok ys) :
    ∀ x ∈ xs, ∃ y, f x = .ok y := by
  induction xs generalizing ys with
  | nil => exact fun x hMem => absurd hMem List.not_mem_nil
  | cons x xs ih =>
    obtain ⟨y, ys', hHead, hTail, rfl⟩ := ok_of_mapM_cons h
    intro x' hMem
    rcases List.mem_cons.mp hMem with rfl | hMem
    · exact ⟨y, hHead⟩
    · exact ih hTail x' hMem

theorem mapM_congr {f g : α → Except ε β} {xs : List α} (h : ∀ x ∈ xs, f x = g x) :
    xs.mapM f = xs.mapM g := by
  induction xs with
  | nil => rfl
  | cons x xs ih =>
    rw [List.mapM_cons, List.mapM_cons, h x List.mem_cons_self,
      ih fun y hMem => h y (List.mem_cons_of_mem _ hMem)]

/-- The first failure is the one that is answered. -/
theorem error_of_mapM {f : α → Except ε β} {xs : List α} {e : ε} (h : xs.mapM f = .error e) :
    ∃ front x rest, xs = front ++ x :: rest ∧ (∀ y ∈ front, ∃ b, f y = .ok b) ∧
      f x = .error e := by
  induction xs with
  | nil => cases h
  | cons x xs ih =>
    rw [List.mapM_cons] at h
    cases hHead : f x with
    | error fault =>
      rw [hHead] at h
      cases h
      exact ⟨[], x, xs, rfl, fun y hMem => absurd hMem List.not_mem_nil, hHead⟩
    | ok b =>
      rw [hHead] at h
      cases hTail : xs.mapM f with
      | error fault =>
        obtain rfl : fault = e := by
          change (xs.mapM f >>= _) = _ at h
          rw [hTail] at h
          cases h
          rfl
        obtain ⟨front, y, rest, rfl, hFront, hError⟩ := ih hTail
        exact ⟨x :: front, y, rest, rfl, List.forall_mem_cons.mpr ⟨⟨b, hHead⟩, hFront⟩, hError⟩
      | ok ys =>
        change (xs.mapM f >>= _) = _ at h
        rw [hTail] at h
        cases h

theorem mem_of_mapM {f : α → Except ε β} {xs : List α} {ys : List β} (h : xs.mapM f = .ok ys)
    {y : β} : y ∈ ys ↔ ∃ x ∈ xs, f x = .ok y := by
  induction xs generalizing ys with
  | nil =>
    cases h
    simp
  | cons x xs ih =>
    obtain ⟨y', ys', hHead, hTail, rfl⟩ := ok_of_mapM_cons h
    rw [List.mem_cons, ih hTail, List.exists_mem_cons_iff, hHead, Except.ok.injEq, eq_comm]

/-- A pass answers related values in order exactly if every element has a related answer. -/
theorem exists_mapM_iff {f : α → Except ε β} {R : α → β → Prop} {xs : List α} :
    (∃ ys, xs.mapM f = .ok ys ∧ List.Forall₂ R xs ys) ↔ ∀ x ∈ xs, ∃ y, f x = .ok y ∧ R x y := by
  induction xs with
  | nil => exact ⟨fun _ x hMem => absurd hMem List.not_mem_nil, fun _ => ⟨[], rfl, .nil⟩⟩
  | cons x xs ih =>
    rw [List.forall_mem_cons, ← ih]
    constructor
    · rintro ⟨ys, hOk, hRelated⟩
      obtain ⟨y, ys', hHead, hTail, rfl⟩ := ok_of_mapM_cons hOk
      obtain ⟨hR, hRest⟩ := List.forall₂_cons.mp hRelated
      exact ⟨⟨y, hHead, hR⟩, ys', hTail, hRest⟩
    · rintro ⟨⟨y, hHead, hR⟩, ys, hTail, hRest⟩
      refine ⟨y :: ys, ?_, .cons hR hRest⟩
      rw [List.mapM_cons, hHead, hTail]
      rfl

theorem forall₂_of_mapM {f : α → Except ε β} {R : α → β → Prop} {xs : List α} {ys : List β}
    (h : xs.mapM f = .ok ys) (hR : ∀ x ∈ xs, ∀ y, f x = .ok y → R x y) : List.Forall₂ R xs ys := by
  have hEach : ∀ x ∈ xs, ∃ y, f x = .ok y ∧ R x y := fun x hMem =>
    (ok_of_mapM h x hMem).imp fun y hOk => ⟨hOk, hR x hMem y hOk⟩
  obtain ⟨ys', hYs, hRelated⟩ := exists_mapM_iff.mpr hEach
  rwa [Except.ok.inj (h.symm.trans hYs)]

theorem mapM_eq_ok_iff {f : α → Except ε β} {xs : List α} {ys : List β} :
    xs.mapM f = .ok ys ↔ List.Forall₂ (fun x y => f x = .ok y) xs ys := by
  refine ⟨fun h => forall₂_of_mapM h fun _ _ _ hOk => hOk, fun h => ?_⟩
  induction h with
  | nil => rfl
  | cons hHead _ ih =>
    rw [List.mapM_cons, hHead, ih]
    rfl

/-- A pass over the same elements in another order answers the same values, in some order. -/
theorem mapM_perm {f : α → Except ε β} {xs xs' : List α} {ys : List β} (hPerm : xs'.Perm xs)
    (h : xs.mapM f = .ok ys) : ∃ ys', xs'.mapM f = .ok ys' ∧ ys'.Perm ys := by
  obtain ⟨ys', hYs, hSame⟩ := List.perm_comp_forall₂ hPerm (mapM_eq_ok_iff.mp h)
  exact ⟨ys', mapM_eq_ok_iff.mpr hYs, hSame⟩

/-- A pass whose every answer comes by way of another one is two passes. -/
theorem mapM_through {ε' : Type} {f : α → Except ε β} {g : β → Except ε' γ}
    {shown : α → Except ε' γ} (hThrough : ∀ x z, shown x = .ok z → ∃ y, f x = .ok y ∧ g y = .ok z)
    {xs : List α} {zs : List γ} (h : xs.mapM shown = .ok zs) :
    ∃ ys, xs.mapM f = .ok ys ∧ ys.mapM g = .ok zs := by
  have hEach := mapM_eq_ok_iff.mp h
  clear h
  induction hEach with
  | nil => exact ⟨[], rfl, rfl⟩
  | cons hHead _ ih =>
    obtain ⟨y, hF, hG⟩ := hThrough _ _ hHead
    obtain ⟨ys, hFs, hGs⟩ := ih
    refine ⟨y :: ys, ?_, ?_⟩
    · rw [List.mapM_cons, hF, hFs]
      rfl
    · rw [List.mapM_cons, hG, hGs]
      rfl

/-- A pass undoes another one exactly if it does so at every element. -/
theorem mapM_map_iff {f : β → Except ε α} {g : α → β} {xs : List α} :
    (xs.map g).mapM f = .ok xs ↔ ∀ x ∈ xs, f (g x) = .ok x := by
  constructor
  · intro hOk
    induction xs with
    | nil => exact fun x hMem => absurd hMem List.not_mem_nil
    | cons x xs ih =>
      obtain ⟨y, ys, hHead, hTail, hSame⟩ := ok_of_mapM_cons hOk
      obtain ⟨rfl, rfl⟩ := List.cons.inj hSame
      exact List.forall_mem_cons.mpr ⟨hHead, ih hTail⟩
  · intro hAll
    have hMap : xs.mapM (f ∘ g) = .ok (xs.map id) := mapM_ok hAll
    rwa [List.map_id, ← List.mapM_map] at hMap

theorem ok_of_mapError {ε' : Type} {x : Except ε α} {f : ε → ε'} {a : α}
    (h : x.mapError f = .ok a) : x = .ok a := by
  cases x with
  | error e => cases h
  | ok b => exact congrArg Except.ok (Except.ok.inj h)

/-- What every step of a fold keeps holds of its result. -/
theorem foldlM_keeps {f : β → α → Option β} {P : β → Prop} {xs : List α}
    (hKeep : ∀ a ∈ xs, ∀ b b', P b → f b a = some b' → P b') {b b' : β} (hStart : P b)
    (hFold : xs.foldlM f b = some b') : P b' := by
  induction xs generalizing b with
  | nil => exact Option.some.inj hFold ▸ hStart
  | cons a xs ih =>
    obtain ⟨next, hNext, hRest⟩ := Option.bind_eq_some_iff.mp hFold
    exact ih (fun a ha => hKeep a (List.mem_cons_of_mem _ ha))
      (hKeep a List.mem_cons_self _ _ hStart hNext) hRest

end Fallible
