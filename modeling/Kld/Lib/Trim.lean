import Mathlib.Data.List.Basic

/-!
# Lists without a repeated ending or start

The ending is taken away as often as it is there, so how often it was there is lost.
-/

namespace Trim

variable {α : Type} [DecidableEq α] {suffix rest xs : List α}

def trimEndUpTo (suffix : List α) : Nat → List α → List α
  | 0, xs => xs
  | n + 1, xs =>
    if suffix <:+ xs then trimEndUpTo suffix n (xs.take (xs.length - suffix.length)) else xs

def trimEndMatches (suffix xs : List α) : List α := trimEndUpTo suffix xs.length xs

def repeated (n : Nat) (suffix : List α) : List α := (List.replicate n suffix).flatten

omit [DecidableEq α] in
theorem repeated_succ (n : Nat) : repeated (n + 1) suffix = repeated n suffix ++ suffix := by
  rw [repeated, List.replicate_succ', List.flatten_append, List.flatten_singleton, repeated]

omit [DecidableEq α] in
theorem le_length_repeated (hSuffix : suffix ≠ []) (n : Nat) : n ≤ (repeated n suffix).length := by
  have hPos := List.length_pos_iff.mpr hSuffix
  induction n with
  | zero => exact Nat.zero_le _
  | succ n ih =>
    rw [repeated_succ, List.length_append]
    omega

theorem trimEndUpTo_repeated (hRest : ¬ suffix <:+ rest) {n fuel : Nat} (hFuel : n ≤ fuel) :
    trimEndUpTo suffix fuel (rest ++ repeated n suffix) = rest := by
  induction n generalizing fuel with
  | zero =>
    rw [repeated, List.replicate_zero, List.flatten_nil, List.append_nil]
    cases fuel with
    | zero => rfl
    | succ fuel => rw [trimEndUpTo, if_neg hRest]
  | succ n ih =>
    obtain ⟨fuel, rfl⟩ : ∃ m, fuel = m + 1 := ⟨fuel - 1, by omega⟩
    have hTake : (rest ++ repeated (n + 1) suffix).take
        ((rest ++ repeated (n + 1) suffix).length - suffix.length) = rest ++ repeated n suffix := by
      rw [repeated_succ, ← List.append_assoc, List.length_append, Nat.add_sub_cancel,
        List.take_left]
    rw [trimEndUpTo, if_pos, hTake]
    · exact ih (by omega)
    · rw [repeated_succ, ← List.append_assoc]
      exact List.suffix_append _ _

theorem trimEndMatches_repeated (hSuffix : suffix ≠ []) (hRest : ¬ suffix <:+ rest) (n : Nat) :
    trimEndMatches suffix (rest ++ repeated n suffix) = rest := by
  refine trimEndUpTo_repeated hRest ?_
  have hLength := le_length_repeated hSuffix n
  rw [List.length_append]
  omega

omit [DecidableEq α] in
theorem exists_repeated (hSuffix : suffix ≠ []) (xs : List α) :
    ∃ rest n, xs = rest ++ repeated n suffix ∧ ¬ suffix <:+ rest := by
  induction hLength : xs.length using Nat.strongRecOn generalizing xs with
  | ind length ih =>
    by_cases hEnds : suffix <:+ xs
    · obtain ⟨shorter, rfl⟩ := hEnds
      have hPos := List.length_pos_iff.mpr hSuffix
      rw [List.length_append] at hLength
      obtain ⟨rest, n, rfl, hRest⟩ := ih shorter.length (by omega) shorter rfl
      exact ⟨rest, n + 1, by rw [repeated_succ, List.append_assoc], hRest⟩
    · exact ⟨xs, 0, by simp [repeated], hEnds⟩

/-- What is left does not end so, and the rest is the ending some number of times. -/
theorem trimEndMatches_eq_iff (hSuffix : suffix ≠ []) :
    trimEndMatches suffix xs = rest ↔
      ¬ suffix <:+ rest ∧ ∃ n, xs = rest ++ repeated n suffix := by
  constructor
  · rintro rfl
    obtain ⟨rest, n, rfl, hRest⟩ := exists_repeated hSuffix xs
    rw [trimEndMatches_repeated hSuffix hRest]
    exact ⟨hRest, n, rfl⟩
  · rintro ⟨hRest, n, rfl⟩
    exact trimEndMatches_repeated hSuffix hRest n

def trimStartMatches (start xs : List α) : List α :=
  (trimEndMatches start.reverse xs.reverse).reverse

omit [DecidableEq α] in
theorem reverse_repeated (n : Nat) (start : List α) :
    (repeated n start.reverse).reverse = repeated n start := by
  rw [repeated, repeated, List.reverse_flatten, List.map_replicate, List.reverse_replicate,
    List.reverse_reverse]

theorem trimStartMatches_eq_iff {start : List α} (hStart : start ≠ []) :
    trimStartMatches start xs = rest ↔
      ¬ start <+: rest ∧ ∃ n, xs = repeated n start ++ rest := by
  have hReverse : ∀ n, xs.reverse = rest.reverse ++ repeated n start.reverse ↔
      xs = repeated n start ++ rest := by
    intro n
    rw [List.reverse_eq_iff, List.reverse_append, reverse_repeated, List.reverse_reverse]
  rw [trimStartMatches, List.reverse_eq_iff,
    trimEndMatches_eq_iff (by rwa [ne_eq, List.reverse_eq_nil_iff]), List.reverse_suffix,
    exists_congr hReverse]

end Trim
