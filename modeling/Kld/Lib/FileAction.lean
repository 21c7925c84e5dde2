import Mathlib.Logic.Function.Basic

/-!
# Actions on files

An action may fail on the way and leaves what it has written so far. It reads and
writes the file of one path after the other, and all other paths are as before.
-/

namespace FileAction

universe u

variable {π β ε α α' : Type u}

abbrev Files (π β : Type u) := π → Option β

abbrev FileM (ε π β : Type u) := EStateM ε (Files π β)

def orFail (e : ε) : Option α → FileM ε π β α
  | some a => pure a
  | none => throw e

/-- The files that are there after an action, whether it failed or not. -/
def filesOf : EStateM.Result ε (Files π β) α → Files π β
  | .ok _ files => files
  | .error _ files => files

/-- What is done to the file of one path. -/
def onFile [DecidableEq π] (path : π) (f : Option β → Except ε α × Option β) : FileM ε π β α :=
  fun files =>
    match f (files path) with
    | (.ok a, file) => .ok a (Function.update files path file)
    | (.error e, file) => .error e (Function.update files path file)

/-- Only files of these paths are changed. -/
def Touches (paths : π → Prop) (x : FileM ε π β α) : Prop :=
  ∀ files path, ¬ paths path → filesOf (x files) path = files path

variable {paths paths' : π → Prop} {x : FileM ε π β α} {f : α → FileM ε π β α'} {a : α} {b : α'}
  {files files' : Files π β}

theorem bind_apply (x : FileM ε π β α) (f : α → FileM ε π β α') (files : Files π β) :
    (x >>= f) files =
      match x files with
      | .ok a files' => f a files'
      | .error e files' => .error e files' := by
  change EStateM.bind x f files = _
  unfold EStateM.bind
  cases x files <;> rfl

theorem ok_of_bind (h : (x >>= f) files = .ok b files') :
    ∃ a files₁, x files = .ok a files₁ ∧ f a files₁ = .ok b files' := by
  rw [bind_apply] at h
  split at h
  · rename_i a files₁ hFirst
    exact ⟨a, files₁, hFirst, h⟩
  · cases h

theorem ok_bind {files₁ : Files π β} (hFirst : x files = .ok a files₁)
    (hRest : f a files₁ = .ok b files') : (x >>= f) files = .ok b files' := by
  rw [bind_apply, hFirst]
  exact hRest

theorem exists_ok_bind {files₁ : Files π β} (hFirst : x files = .ok a files₁)
    (hRest : ∃ files', f a files₁ = .ok b files') : ∃ files', (x >>= f) files = .ok b files' :=
  hRest.imp fun _ => ok_bind hFirst

theorem orFail_some (e : ε) (a : α) (files : Files π β) :
    orFail e (some a) files = .ok a files := rfl

theorem ok_of_orFail {e : ε} {found : Option α} (h : orFail e found files = .ok a files') :
    found = some a ∧ files' = files := by
  cases found with
  | none => cases h
  | some a' =>
    cases h
    exact ⟨rfl, rfl⟩

theorem touches_pure (a : α) : Touches paths (pure a : FileM ε π β α) := fun _ _ _ => rfl

theorem touches_throw (e : ε) : Touches paths (throw e : FileM ε π β α) := fun _ _ _ => rfl

theorem touches_orFail (e : ε) (found : Option α) :
    Touches paths (orFail e found : FileM ε π β α) := by
  cases found with
  | none => exact touches_throw e
  | some a => exact touches_pure a

theorem filesOf_bind (hRest : ∀ a, Touches paths (f a)) {path : π} (hPath : ¬ paths path) :
    filesOf ((x >>= f) files) path = filesOf (x files) path := by
  rw [bind_apply]
  cases x files with
  | ok a files₁ => exact hRest a files₁ path hPath
  | error e files₁ => rfl

theorem Touches.bind (hFirst : Touches paths x) (hRest : ∀ a, Touches paths (f a)) :
    Touches paths (x >>= f) := by
  intro files path hPath
  rw [filesOf_bind hRest hPath, hFirst files path hPath]

theorem Touches.mono (h : Touches paths x) (hSub : ∀ path, paths path → paths' path) :
    Touches paths' x := fun files path hPath => h files path (mt (hSub path) hPath)

section OnFile

variable [DecidableEq π] {path : π} {g : Option β → Except ε α × Option β}

theorem filesOf_onFile (path : π) (g : Option β → Except ε α × Option β) (files : Files π β) :
    filesOf (onFile path g files) = Function.update files path (g (files path)).2 := by
  unfold onFile
  split
  · rename_i a file hResult
    rw [hResult]
    rfl
  · rename_i e file hResult
    rw [hResult]
    rfl

theorem touches_onFile (hPath : paths path) : Touches paths (onFile path g) := by
  intro files other hOther
  have hNe : other ≠ path := fun hSame => hOther (hSame ▸ hPath)
  rw [filesOf_onFile, Function.update_of_ne hNe]

theorem onFile_eq_ok_iff :
    onFile path g files = .ok a files' ↔
      (g (files path)).1 = .ok a ∧ files' = Function.update files path (g (files path)).2 := by
  unfold onFile
  split
  · rename_i a' file hResult
    rw [hResult]
    simp [eq_comm]
  · rename_i e file hResult
    rw [hResult]
    simp

end OnFile

end FileAction
