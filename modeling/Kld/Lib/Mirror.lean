import Mathlib.Data.List.Basic

/-!
# A copy that is kept by messages

The holder of a copy takes the messages from a queue in their order, and some of them say
what it is to hold. What it holds in the end is known before they are delivered.
-/

namespace Mirror

universe u v

variable {α : Type u} {β : Type v} {news : α → Option β}

/-- What is held once the queue is delivered. -/
def settled (news : α → Option β) (queue : List α) (held : β) : β :=
  queue.foldl (fun held message => (news message).getD held) held

@[simp] theorem settled_nil (held : β) : settled news [] held = held := rfl

@[simp] theorem settled_cons (message : α) (queue : List α) (held : β) :
    settled news (message :: queue) held = settled news queue ((news message).getD held) := rfl

theorem settled_append (queue queue' : List α) (held : β) :
    settled news (queue ++ queue') held = settled news queue' (settled news queue held) :=
  List.foldl_append

theorem settled_of_no_news {queue : List α} (h : ∀ message ∈ queue, news message = none)
    (held : β) : settled news queue held = held := by
  induction queue with
  | nil => rfl
  | cons message queue ih =>
    obtain ⟨hHead, hTail⟩ := List.forall_mem_cons.mp h
    rw [settled_cons, hHead, Option.getD_none, ih hTail]

end Mirror
