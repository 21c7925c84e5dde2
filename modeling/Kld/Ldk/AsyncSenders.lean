import Kld.Lib.Table

/-!
# Senders for asynchronous API requests

A request registers a value and the sender of its reply under a key. The event
handler takes the entry out of the map to answer, so an entry is answered once;
what it does not find it cannot answer.
-/

namespace Kld

open Sql

abbrev AsyncSenders (κ ν τ : Type) := Table κ (ν × τ)

namespace AsyncSenders

variable {κ ν τ : Type} [DecidableEq κ] {senders : AsyncSenders κ ν τ} {k k' : κ}

def register (k : κ) (v : ν) (tx : τ) (senders : AsyncSenders κ ν τ) : AsyncSenders κ ν τ :=
  AList.insert k (v, tx) senders

def get (k : κ) (senders : AsyncSenders κ ν τ) : Option ((ν × τ) × AsyncSenders κ ν τ) :=
  (AList.lookup k senders).map fun entry => (entry, AList.erase k senders)

@[simp] theorem lookup_register_self (v : ν) (tx : τ) :
    (register k v tx senders).lookup k = some (v, tx) := AList.lookup_insert senders

theorem lookup_register_of_ne (h : k' ≠ k) (v : ν) (tx : τ) :
    (register k v tx senders).lookup k' = senders.lookup k' := AList.lookup_insert_ne h

theorem get_eq_some_iff {entry : ν × τ} {senders' : AsyncSenders κ ν τ} :
    senders.get k = some (entry, senders') ↔
      senders.lookup k = some entry ∧ senders' = senders.erase k := by
  rw [get, Option.map_eq_some_iff]
  constructor
  · rintro ⟨entry', hEntry, hEq⟩
    obtain ⟨rfl, rfl⟩ := Prod.mk.inj hEq
    exact ⟨hEntry, rfl⟩
  · rintro ⟨hEntry, rfl⟩
    exact ⟨entry, hEntry, rfl⟩

theorem get_eq_none_iff : senders.get k = none ↔ senders.lookup k = none := Option.map_eq_none_iff

end AsyncSenders

end Kld
