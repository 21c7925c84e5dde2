import Kld.Types
import Mathlib.Order.Monotone.Defs

/-!
# Probing

A probe is a payment that fails at its recipient. When none can be sent along a path, the
path is shortened hop by hop until one can be sent, and the scorer is told that the hop
which was taken off last is the one that fails.
-/

namespace Kld.Probe

structure RouteHop where
  pubkey : PublicKey
  shortChannelId : UInt64
  feeMsat : MillisatAmount
  cltvExpiryDelta : UInt32
deriving DecidableEq

variable {τ : Type}

structure Path (τ : Type) where
  hops : List RouteHop
  blindedTail : Option τ
deriving DecidableEq

inductive ScorerCall (τ : Type) where
  | probeSuccessful (path : Path τ) (duration : Nat)
  | probeFailed (path : Path τ) (shortChannelId : UInt64) (duration : Nat)
deriving DecidableEq

/-- What is outside of the function: the readings of the clock one after the other, and whether
the channel manager sends a probe that follows so many of them. -/
structure World (τ : Type) where
  clock : Nat → Nat
  sendProbe : Nat → Path τ → Bool

/-- A counter is absent until the exporter of the metrics has set it. -/
structure State (τ : Type) where
  readings : Nat
  total : Option Nat
  successful : Option Nat
  failed : Option Nat
  scored : List (ScorerCall τ)
deriving DecidableEq

section Loop

variable (w : World τ)

def now (s : State τ) : Nat × State τ :=
  (w.clock s.readings, { s with readings := s.readings + 1 })

/-- The time since `sendTime`, unless the clock has run backwards. -/
def elapsed (sendTime : Nat) (s : State τ) : Option Nat × State τ :=
  let (time, s) := now w s
  (if sendTime ≤ time then some (time - sendTime) else none, s)

def score (sendTime : Nat) (call : Nat → ScorerCall τ) (s : State τ) : State τ :=
  match elapsed w sendTime s with
  | (some duration, s) => { s with scored := s.scored ++ [call duration] }
  | (none, s) => s

/-- The loop that takes hops off the end. -/
def shorten (blindedTail : Option τ) (hops : List RouteHop) (s : State τ) : State τ :=
  if hHops : hops = [] then s
  else
    let popHop := hops.getLast hHops
    let rest := hops.dropLast
    let (sendTime, s) := now w s
    if !rest.isEmpty && w.sendProbe s.readings ⟨rest, blindedTail⟩ then
      score w sendTime
        (.probeFailed ⟨rest ++ [popHop], blindedTail⟩ popHop.shortChannelId) s
    else shorten blindedTail rest s
termination_by hops.length
decreasing_by
  have hPos := List.length_pos_iff.mpr hHops
  rw [List.length_dropLast]
  omega

def probePath (s : State τ) (path : Path τ) : State τ :=
  let s := { s with total := s.total.map (· + 1) }
  let (sendTime, s) := now w s
  if w.sendProbe s.readings path then
    score w sendTime (.probeSuccessful path)
      { s with successful := s.successful.map (· + 1) }
  else shorten w path.blindedTail path.hops { s with failed := s.failed.map (· + 1) }

/-- `scorerLocked` fails when the lock is poisoned, and `route` is the answer of `find_route`. -/
def sendProbe (scorerLocked : Bool) (route : Option (List (Path τ))) (s : State τ) : State τ :=
  if scorerLocked then
    match route with
    | some paths => paths.foldl (probePath w) s
    | none => s
  else s

end Loop

/-- Whatever comes before, a probe of the first hops is sent if they are at most `k`. -/
def SendsUpTo (w : World τ) (path : Path τ) (k : Nat) : Prop :=
  ∀ readings j, 1 ≤ j → j ≤ path.hops.length →
    (w.sendProbe readings ⟨path.hops.take j, path.blindedTail⟩ = true ↔ j ≤ k)

/-- The reports about a path of which `k` hops can be used. -/
def blame (path : Path τ) (k duration : Nat) : List (ScorerCall τ) :=
  if k = 0 then []
  else path.hops[k]?.toList.map fun hop =>
    .probeFailed ⟨path.hops.take (k + 1), path.blindedTail⟩ hop.shortChannelId duration

section Spec

variable {w : World τ} {path : Path τ} {k : Nat}

theorem blame_succ (duration : Nat) (hk : k + 1 < path.hops.length) :
    blame path (k + 1) duration =
      [.probeFailed ⟨path.hops.take (k + 1) ++ [path.hops[k + 1]], path.blindedTail⟩
        path.hops[k + 1].shortChannelId duration] := by
  rw [blame, if_neg (Nat.succ_ne_zero k), List.getElem?_eq_getElem hk,
    ← List.take_succ_eq_append_getElem hk]
  rfl

theorem score_spec {sendTime : Nat} (call : Nat → ScorerCall τ) {s : State τ}
    (hTime : sendTime ≤ w.clock s.readings) :
    score w sendTime call s = { s with
      readings := s.readings + 1
      scored := s.scored ++ [call (w.clock s.readings - sendTime)] } := by
  have hElapsed : elapsed w sendTime s = (some (w.clock s.readings - sendTime),
      { s with readings := s.readings + 1 }) := by
    simp [elapsed, now, hTime]
  rw [score, hElapsed]

theorem shorten_concat (blindedTail : Option τ) (rest : List RouteHop) (popHop : RouteHop)
    (s : State τ) :
    shorten w blindedTail (rest ++ [popHop]) s =
      if !rest.isEmpty && w.sendProbe (s.readings + 1) ⟨rest, blindedTail⟩ then
        score w (w.clock s.readings)
          (.probeFailed ⟨rest ++ [popHop], blindedTail⟩ popHop.shortChannelId)
          { s with readings := s.readings + 1 }
      else shorten w blindedTail rest { s with readings := s.readings + 1 } := by
  rw [shorten, dif_neg (List.concat_ne_nil popHop rest)]
  simp only [List.dropLast_concat, List.getLast_concat, now]

/-- The loop comes to the hop after the first `k`, or to the end if `k` is 0. -/
theorem shorten_take (hClock : Monotone w.clock) (hSends : SendsUpTo w path k)
    (hk : k < path.hops.length) (m : Nat) (hkm : k < m) (hm : m ≤ path.hops.length)
    (s : State τ) :
    ∃ readings duration, readings ≤ s.readings + m + 1 ∧
      shorten w path.blindedTail (path.hops.take m) s =
        { s with readings, scored := s.scored ++ blame path k duration } := by
  induction m generalizing s with
  | zero => exact absurd hkm (Nat.not_lt_zero k)
  | succ m ih =>
    rw [List.take_succ_eq_append_getElem hm, shorten_concat]
    rcases Nat.lt_or_eq_of_le (Nat.le_of_lt_succ hkm) with hLt | rfl
    · -- the rest is still too long, so the loop goes on
      have hNot : w.sendProbe (s.readings + 1) ⟨path.hops.take m, path.blindedTail⟩ = false := by
        rw [← Bool.not_eq_true, hSends _ m (by omega) (by omega)]
        omega
      rw [hNot, Bool.and_false, if_neg Bool.false_ne_true]
      obtain ⟨readings, duration, hLe, hShorten⟩ := ih hLt (by omega) { s with
        readings := s.readings + 1 }
      refine ⟨readings, duration, ?_, hShorten⟩
      dsimp only at hLe
      omega
    · cases k with
      | zero =>
        refine ⟨s.readings + 1, 0, by omega, ?_⟩
        rw [List.take_zero, List.isEmpty_nil, Bool.not_true, Bool.false_and,
          if_neg Bool.false_ne_true, shorten, dif_pos rfl, blame, if_pos rfl, List.append_nil]
      | succ k =>
        have hSent : w.sendProbe (s.readings + 1)
            ⟨path.hops.take (k + 1), path.blindedTail⟩ = true :=
          (hSends _ (k + 1) (by omega) (by omega)).mpr (Nat.le_refl _)
        have hSome : (path.hops.take (k + 1)).isEmpty = false := by
          rw [List.isEmpty_eq_false_iff, ← List.length_pos_iff, List.length_take]
          omega
        rw [hSent, hSome, Bool.not_false, Bool.true_and, if_pos rfl,
          score_spec _ (hClock (Nat.le_succ s.readings))]
        exact ⟨s.readings + 2, _, by omega, congrArg _ (congrArg _ (blame_succ _ hk).symm)⟩

theorem probePath_fails (hClock : Monotone w.clock) (hSends : SendsUpTo w path k)
    (hk : k < path.hops.length) (s : State τ) :
    ∃ readings duration, readings ≤ s.readings + path.hops.length + 2 ∧
      probePath w s path = { s with
        readings
        total := s.total.map (· + 1)
        failed := s.failed.map (· + 1)
        scored := s.scored ++ blame path k duration } := by
  have hNot : ¬ w.sendProbe (s.readings + 1) path = true := by
    have hFull := hSends (s.readings + 1) path.hops.length (by omega) (Nat.le_refl _)
    rw [List.take_length] at hFull
    rw [hFull]
    omega
  obtain ⟨readings, duration, hLe, hShorten⟩ := shorten_take hClock hSends hk path.hops.length hk
    (Nat.le_refl _) { s with
      readings := s.readings + 1
      total := s.total.map (· + 1)
      failed := s.failed.map (· + 1) }
  rw [List.take_length] at hShorten
  refine ⟨readings, duration, ?_, ?_⟩
  · dsimp only at hLe
    omega
  · exact (if_neg hNot).trans hShorten

/-- A path that cannot be probed counts as one failure, and the scorer hears of nothing but the
hop after those that can be used. -/
theorem failure_localised (hClock : Monotone w.clock) (hSends : SendsUpTo w path k)
    (hk : k < path.hops.length) (before after : List (Path τ)) (s : State τ) :
    ∃ readings duration,
      let s₁ := sendProbe w true (some before) s
      let s₂ : State τ := { s₁ with
        readings
        total := s₁.total.map (· + 1)
        failed := s₁.failed.map (· + 1)
        scored := s₁.scored ++ blame path k duration }
      readings ≤ s₁.readings + path.hops.length + 2 ∧
        sendProbe w true (some (before ++ [path])) s = s₂ ∧
        sendProbe w true (some (before ++ path :: after)) s =
          sendProbe w true (some after) s₂ := by
  obtain ⟨readings, duration, hLe, hProbe⟩ :=
    probePath_fails hClock hSends hk (sendProbe w true (some before) s)
  refine ⟨readings, duration, hLe, ?_, ?_⟩
  · rw [← hProbe]
    exact List.foldl_append
  · rw [← hProbe]
    exact List.foldl_append

end Spec

/-- A clock that counts, and channels that take a probe of one or two hops. -/
def twoHops : World Unit where
  clock readings := readings
  sendProbe _ path := decide (1 ≤ path.hops.length ∧ path.hops.length ≤ 2)

def hop (shortChannelId : UInt64) : RouteHop := ⟨⟨.replicate 33 2⟩, shortChannelId, 0, 40⟩

def fourHops : Path Unit := ⟨[hop 1, hop 2, hop 3, hop 4], none⟩

def started : State Unit := ⟨0, some 0, some 0, some 0, []⟩

theorem third_hop_blamed :
    ∃ duration, (sendProbe twoHops true (some [fourHops]) started).scored =
        [.probeFailed ⟨[hop 1, hop 2, hop 3], none⟩ 3 duration] ∧
      (sendProbe twoHops true (some [fourHops]) started).failed = some 1 := by
  have hSends : SendsUpTo twoHops fourHops 2 := by
    intro readings j hPos hj
    have hLength : (fourHops.hops.take j).length = j := List.length_take_of_le hj
    simp only [twoHops, hLength, decide_eq_true_eq]
    omega
  obtain ⟨readings, duration, _, hProbe, _⟩ :=
    failure_localised (w := twoHops) (fun _ _ h => h) hSends (by decide) [] [] started
  rw [List.nil_append] at hProbe
  rw [hProbe]
  exact ⟨duration, rfl, rfl⟩

end Kld.Probe
