import Mathlib.Data.List.Basic

/-!
# Work handed to a runtime

A future does nothing until it is polled, and a closure nothing until it is
called. A runtime polls the futures it was given with `spawn`, and calls the
closures it was given with `spawnBlocking`; in both cases it only keeps the
result for whoever asks for it.
-/

namespace Runtime

universe u v

variable {σ : Type u} {α : Type v}

/-- A future over a world `σ`: what polling it to its end gives and does. -/
structure Future (σ : Type u) (α : Type v) where
  poll : σ → α × σ

structure Closure (σ : Type u) (α : Type v) where
  call : σ → α × σ

abbrev Work (σ : Type u) := σ → σ

/-- `async move || body`: calling it only builds the future of its body. -/
def asyncClosure (body : Future σ α) : Closure σ (Future σ α) := ⟨fun s => (body, s)⟩

def spawn (future : Future σ α) : Work σ := fun s => (future.poll s).2

/-- The value of the closure is dropped, as nobody joins the work. -/
def spawnBlocking (closure : Closure σ α) : Work σ := fun s => (closure.call s).2

@[simp] theorem spawnBlocking_asyncClosure (body : Future σ α) :
    spawnBlocking (asyncClosure body) = id := rfl

end Runtime
