import Kld.Lib.Table
import Mathlib.Data.List.Perm.Basic
import Mathlib.Data.Set.List

/-!
# Lists of the values of a map

A list of rows stands for a map when it holds the value of every key once. The
statements on lists of rows, which have no primary key to rely on, are then
updates of the map; a join with the rows of a key is a lookup.
-/

namespace Sql

universe u v w

variable {κ : Type u} {ν : Type v} {ν' : Type w}

/-- `xs` holds the values of `m`, each under its own key and only once. -/
structure Lists (key : ν → κ) (xs : List ν) (m : κ → Option ν) : Prop where
  keys_nodup : (xs.map key).Nodup
  some_iff : ∀ k x, m k = some x ↔ x ∈ xs ∧ key x = k

theorem nodup_map_concat_iff {key : ν → κ} {xs : List ν} {x : ν} :
    ((xs ++ [x]).map key).Nodup ↔ (xs.map key).Nodup ∧ ∀ y ∈ xs, key y ≠ key x := by
  rw [List.map_append, List.map_singleton, ← List.concat_eq_append, List.nodup_concat, and_comm]
  simp

theorem forall_update [DecidableEq κ] {P : κ → ν → Prop} {m : κ → Option ν} {k : κ} {x : ν}
    (hNew : P k x) (h : ∀ k y, m k = some y → P k y) :
    ∀ k' y, Function.update m k (some x) k' = some y → P k' y := by
  intro k' y hSome
  by_cases hSame : k' = k
  · subst hSame
    rw [Function.update_self] at hSome
    exact Option.some.inj hSome ▸ hNew
  · rw [Function.update_of_ne hSame] at hSome
    exact h k' y hSome

/-- A table whose rows encode the values of a map still does after an upsert. -/
theorem lookup_upsert_iff [DecidableEq κ] {κ' : Type v} {ρ : Type w} [DecidableEq κ'] {key : ν → κ}
    {enc : ν → κ' × ρ} (hKey : ∀ x y, (enc x).1 = (enc y).1 ↔ key x = key y) {t : Table κ' ρ}
    {m : κ → Option ν}
    (h : ∀ k row, t.lookup k = some row ↔ ∃ x, m (key x) = some x ∧ enc x = (k, row)) (x : ν)
    (k : κ') (row : ρ) :
    (t.upsert (enc x).1 (enc x).2 fun _ => (enc x).2).lookup k = some row ↔
      ∃ y, Function.update m (key x) (some x) (key y) = some y ∧ enc y = (k, row) := by
  rw [Table.lookup_upsert_row]
  by_cases hSame : k = (enc x).1
  · rw [if_pos hSame]
    constructor
    · intro hRow
      exact ⟨x, Function.update_self .., Prod.ext hSame.symm (Option.some.inj hRow)⟩
    · rintro ⟨y, hStored, hEnc⟩
      have hKeys : key y = key x := (hKey y x).mp ((congrArg Prod.fst hEnc).trans hSame)
      rw [hKeys, Function.update_self] at hStored
      obtain rfl := Option.some.inj hStored
      rw [hEnc]
  · rw [if_neg hSame, h]
    refine exists_congr fun y => and_congr_left fun hEnc => ?_
    have hNe : key y ≠ key x := fun hKeys =>
      hSame ((congrArg Prod.fst hEnc).symm.trans ((hKey y x).mpr hKeys))
    rw [Function.update_of_ne hNe]

namespace Lists

variable {key : ν → κ} {xs ys : List ν} {m : κ → Option ν}

theorem nil (key : ν → κ) : Lists key [] fun _ => none :=
  ⟨List.nodup_nil, fun _ _ => ⟨nofun, fun h => absurd h.1 List.not_mem_nil⟩⟩

theorem mem_iff (h : Lists key xs m) {x : ν} : x ∈ xs ↔ m (key x) = some x :=
  ⟨fun hx => (h.some_iff _ _).mpr ⟨hx, rfl⟩, fun hx => ((h.some_iff _ _).mp hx).1⟩

theorem key_eq (h : Lists key xs m) {k : κ} {x : ν} (hx : m k = some x) : key x = k :=
  ((h.some_iff k x).mp hx).2

theorem ne_of_none (h : Lists key xs m) {k : κ} {x : ν} (hk : m k = none) (hx : x ∈ xs) :
    key x ≠ k := by
  rintro rfl
  rw [h.mem_iff.mp hx] at hk
  cases hk

theorem perm (h : Lists key xs m) (hPerm : xs.Perm ys) : Lists key ys m := by
  refine ⟨(hPerm.map key).nodup_iff.mp h.keys_nodup, fun k x => ?_⟩
  rw [h.some_iff, hPerm.mem_iff]

theorem filter (h : Lists key xs m) (p : ν → Bool) :
    Lists key (xs.filter p) fun k => (m k).filter p := by
  refine ⟨(List.filter_sublist.map key).nodup h.keys_nodup, fun k x => ?_⟩
  rw [Option.filter_eq_some_iff, h.some_iff, List.mem_filter, and_right_comm]

theorem map (h : Lists key xs m) (f : ν → ν') {key' : ν' → κ} (hKey : ∀ x, key' (f x) = key x) :
    Lists key' (xs.map f) fun k => (m k).map f := by
  refine ⟨?_, fun k y => ?_⟩
  · rw [List.map_map, show key' ∘ f = key from funext hKey]
    exact h.keys_nodup
  · rw [Option.map_eq_some_iff, List.mem_map]
    constructor
    · rintro ⟨x, hx, rfl⟩
      exact ⟨⟨x, ((h.some_iff k x).mp hx).1, rfl⟩, (hKey x).trans (h.key_eq hx)⟩
    · rintro ⟨⟨x, hx, rfl⟩, rfl⟩
      exact ⟨x, (hKey x).symm ▸ h.mem_iff.mp hx, rfl⟩

theorem sublist_filterMap {f : ν → Option ν'} {key' : ν' → κ}
    (hKey : ∀ x y, f x = some y → key' y = key x) (xs : List ν) :
    ((xs.filterMap f).map key').Sublist (xs.map key) := by
  induction xs with
  | nil => exact List.nil_sublist _
  | cons x xs ih =>
    rw [List.filterMap_cons]
    cases hSome : f x with
    | none => exact ih.cons (key x)
    | some y =>
      rw [List.map_cons, List.map_cons, hKey x y hSome]
      exact ih.cons_cons (key x)

theorem filterMap (h : Lists key xs m) {f : ν → Option ν'} {key' : ν' → κ}
    (hKey : ∀ x y, f x = some y → key' y = key x) :
    Lists key' (xs.filterMap f) fun k => (m k).bind f := by
  refine ⟨(sublist_filterMap hKey xs).nodup h.keys_nodup, fun k y => ?_⟩
  rw [Option.bind_eq_some_iff, List.mem_filterMap]
  constructor
  · rintro ⟨x, hx, hSome⟩
    exact ⟨⟨x, ((h.some_iff k x).mp hx).1, hSome⟩, (hKey x y hSome).trans (h.key_eq hx)⟩
  · rintro ⟨⟨x, hx, hSome⟩, rfl⟩
    exact ⟨x, (hKey x y hSome).symm ▸ h.mem_iff.mp hx, hSome⟩

/-- Rows that are the encodings of the values of a map are the encoding of a listing. -/
theorem of_rows {enc : ν → ν'} (hEnc : ∀ x y, enc x = enc y → key x = key y) {rows : List ν'}
    (hNodup : rows.Nodup) (hKey : ∀ k x, m k = some x → key x = k)
    (hRows : ∀ row, row ∈ rows ↔ ∃ x, m (key x) = some x ∧ enc x = row) :
    ∃ xs, rows = xs.map enc ∧ Lists key xs m := by
  have hRange : ∀ row ∈ rows,
      row ∈ Set.range fun x : { x // m (key x) = some x } => enc x.1 := by
    intro row hRow
    obtain ⟨x, hx, hSame⟩ := (hRows row).mp hRow
    exact ⟨⟨x, hx⟩, hSame⟩
  obtain ⟨stored, hStored⟩ := (Set.range_list_map _).ge hRange
  have hMap : rows = (stored.map Subtype.val).map enc := by
    rw [← hStored, List.map_map]
    rfl
  have hValue : ∀ x ∈ stored.map Subtype.val, m (key x) = some x := by
    intro x hx
    obtain ⟨⟨_, hSome⟩, _, rfl⟩ := List.mem_map.mp hx
    exact hSome
  have hMem : ∀ x, m (key x) = some x → x ∈ stored.map Subtype.val := by
    intro x hx
    have hRow : enc x ∈ rows := (hRows _).mpr ⟨x, hx, rfl⟩
    rw [hMap] at hRow
    obtain ⟨y, hy, hSame⟩ := List.mem_map.mp hRow
    have hSome := hValue y hy
    rw [hEnc y x hSame, hx] at hSome
    exact Option.some.inj hSome ▸ hy
  refine ⟨stored.map Subtype.val, hMap, ?_, fun k x => ⟨fun hx => ?_, ?_⟩⟩
  · rw [hMap] at hNodup
    refine List.Nodup.map_on (fun x hx y hy hSame => ?_) (List.Nodup.of_map enc hNodup)
    have hSome := hValue x hx
    rw [hSame, hValue y hy] at hSome
    exact (Option.some.inj hSome).symm
  · obtain rfl := hKey k x hx
    exact ⟨hMem x hx, rfl⟩
  · rintro ⟨hx, rfl⟩
    exact hValue x hx

section

variable [DecidableEq κ]

theorem find (h : Lists key xs m) (k : κ) : xs.find? (fun x => key x = k) = m k := by
  cases hFind : xs.find? fun x => key x = k with
  | some x =>
    have hKey : key x = k := by simpa using List.find?_some hFind
    exact ((h.some_iff k x).mpr ⟨List.mem_of_find?_eq_some hFind, hKey⟩).symm
  | none =>
    cases hm : m k with
    | none => rfl
    | some x =>
      obtain ⟨hx, hKey⟩ := (h.some_iff k x).mp hm
      simpa [hKey] using List.find?_eq_none.mp hFind x hx

theorem filter_key (h : Lists key xs m) (k : κ) :
    xs.filter (fun x => key x = k) = (m k).toList := by
  have hNodup : (xs.filter fun x => key x = k).Nodup :=
    (List.Nodup.of_map key h.keys_nodup).filter _
  have hMem : ∀ x, x ∈ xs.filter (fun x => key x = k) ↔ m k = some x := by
    intro x
    rw [h.some_iff, List.mem_filter, decide_eq_true_eq]
  cases hm : m k with
  | none =>
    refine List.eq_nil_iff_forall_not_mem.mpr fun x hx => ?_
    rw [hMem, hm] at hx
    cases hx
  | some y =>
    have hPerm : (xs.filter fun x => key x = k).Perm [y] := by
      refine (List.perm_ext_iff_of_nodup hNodup (List.nodup_singleton y)).mpr fun x => ?_
      rw [hMem, hm, List.mem_singleton, Option.some_inj, eq_comm]
    exact List.perm_singleton.mp hPerm

theorem of_nodup (h : (xs.map key).Nodup) : Lists key xs fun k => xs.find? fun x => key x = k := by
  refine ⟨h, fun k x => ⟨fun hFind => ?_, ?_⟩⟩
  · exact ⟨List.mem_of_find?_eq_some hFind, by simpa using List.find?_some hFind⟩
  · rintro ⟨hx, rfl⟩
    obtain ⟨y, hy⟩ : ∃ y, xs.find? (fun y => key y = key x) = some y := by
      rw [← Option.isSome_iff_exists, List.find?_isSome]
      exact ⟨x, hx, by simp⟩
    have hKey : key y = key x := by simpa using List.find?_some hy
    rw [hy, List.inj_on_of_nodup_map h (List.mem_of_find?_eq_some hy) hx hKey]

theorem append (h : Lists key xs m) {x : ν} (hNew : m (key x) = none) :
    Lists key (xs ++ [x]) (Function.update m (key x) (some x)) := by
  refine ⟨?_, fun k y => ?_⟩
  · exact nodup_map_concat_iff.mpr ⟨h.keys_nodup, fun _ => h.ne_of_none hNew⟩
  · rw [List.mem_append, List.mem_singleton]
    by_cases hk : k = key x
    · subst hk
      rw [Function.update_self, Option.some_inj]
      constructor
      · rintro rfl
        exact ⟨Or.inr rfl, rfl⟩
      · rintro ⟨hy | rfl, hKey⟩
        · exact absurd hKey (h.ne_of_none hNew hy)
        · rfl
    · rw [Function.update_of_ne hk, h.some_iff]
      constructor
      · exact fun hy => ⟨Or.inl hy.1, hy.2⟩
      · rintro ⟨hy | rfl, hKey⟩
        · exact ⟨hy, hKey⟩
        · exact absurd hKey.symm hk

theorem erase (h : Lists key xs m) (k : κ) :
    Lists key (xs.filter fun x => key x ≠ k) (Function.update m k none) := by
  refine ⟨(List.filter_sublist.map key).nodup h.keys_nodup, fun k' x => ?_⟩
  rw [List.mem_filter, decide_eq_true_eq]
  by_cases hk : k' = k
  · subst hk
    rw [Function.update_self]
    exact ⟨nofun, fun hx => absurd hx.2 hx.1.2⟩
  · rw [Function.update_of_ne hk, h.some_iff]
    exact ⟨fun hx => ⟨⟨hx.1, fun hKey => hk (hx.2.symm.trans hKey)⟩, hx.2⟩,
      fun hx => ⟨hx.1.1, hx.2⟩⟩

theorem replace (h : Lists key xs m) {x : ν} (hOld : m (key x) ≠ none) :
    Lists key (xs.map fun y => if key y = key x then x else y)
      (Function.update m (key x) (some x)) := by
  have hKeys : ∀ y, key (if key y = key x then x else y) = key y := by
    intro y
    split
    · rename_i hy
      exact hy.symm
    · rfl
  have hMap := h.map (fun y => if key y = key x then x else y) hKeys
  refine ⟨hMap.keys_nodup, fun k y => ?_⟩
  rw [← hMap.some_iff]
  by_cases hk : k = key x
  · subst hk
    obtain ⟨z, hz⟩ := Option.ne_none_iff_exists'.mp hOld
    rw [Function.update_self, hz, Option.map_some, if_pos (h.key_eq hz)]
  · rw [Function.update_of_ne hk]
    cases hm : m k with
    | none => rfl
    | some z =>
      have hz : key z ≠ key x := fun hKey => hk ((h.key_eq hm).symm.trans hKey)
      rw [Option.map_some, if_neg hz]

theorem rows (t : Table κ ν) : Lists Prod.fst t.rows fun k => (t.lookup k).map (k, ·) := by
  refine ⟨?_, fun k row => ?_⟩
  · rw [Table.rows_map_fst]
    exact t.nodupKeys
  · obtain ⟨k', x⟩ := row
    rw [Option.map_eq_some_iff, Table.mem_rows_iff]
    constructor
    · rintro ⟨y, hy, hEq⟩
      cases hEq
      exact ⟨hy, rfl⟩
    · rintro ⟨hx, rfl⟩
      exact ⟨x, hx, rfl⟩

theorem rows_nodup (t : Table κ ν) : t.rows.Nodup := List.Nodup.of_map Prod.fst (rows t).keys_nodup

/-- A table of the encodings of a map is the encoding of a listing. -/
theorem of_table {t : Table κ ν'} {enc : ν → ν'} (hKey : ∀ k x, m k = some x → key x = k)
    (hLookup : ∀ k, t.lookup k = (m k).map enc) :
    ∃ xs, t.rows = xs.map (fun x => (key x, enc x)) ∧ Lists key xs m := by
  refine of_rows (fun _ _ hSame => (Prod.mk.inj hSame).1) (rows_nodup t) hKey ?_
  rintro ⟨k, row⟩
  rw [Table.mem_rows_iff, hLookup, Option.map_eq_some_iff]
  constructor
  · rintro ⟨x, hx, rfl⟩
    obtain rfl := hKey k x hx
    exact ⟨x, hx, rfl⟩
  · rintro ⟨x, hx, hSame⟩
    cases hSame
    exact ⟨x, hx, rfl⟩

/-- Inserting the values of a map one by one, as into a hash map, rebuilds the map. -/
theorem lookup_foldl_insert {m : κ → Option (κ × ν)} {entries : List (κ × ν)}
    (h : Lists Prod.fst entries m) (k : κ) :
    (entries.foldl (fun t entry => t.insert entry.1 entry.2) (∅ : Table κ ν)).lookup k =
      (m k).map Prod.snd := by
  have hFold : ∀ (entries : List (κ × ν)) (t : Table κ ν), (entries.map Prod.fst).Nodup →
      (entries.foldl (fun t entry => t.insert entry.1 entry.2) t).lookup k =
        ((entries.find? fun entry => entry.1 = k).map Prod.snd).or (t.lookup k) := by
    intro entries
    induction entries with
    | nil => exact fun t _ => rfl
    | cons entry entries ih =>
      intro t hNodup
      rw [List.map_cons, List.nodup_cons] at hNodup
      rw [List.foldl_cons, ih _ hNodup.2, List.find?_cons]
      by_cases hKey : entry.1 = k
      · have hNone : entries.find? (fun entry => entry.1 = k) = none := by
          rw [List.find?_eq_none]
          intro entry' hMem hSame
          have hKeys : entry'.1 = entry.1 := (of_decide_eq_true hSame).trans hKey.symm
          exact hNodup.1 (List.mem_map.mpr ⟨entry', hMem, hKeys⟩)
        rw [hNone, ← hKey, AList.lookup_insert]
        simp
      · rw [AList.lookup_insert_ne (Ne.symm hKey)]
        simp [hKey]
  rw [hFold entries ∅ h.keys_nodup, h.find, AList.lookup_empty, Option.or_none]

end

end Lists

section Join

variable {α : Type u} {β : Type v}

/-- `LEFT OUTER JOIN`: every left row with the right rows that match it, or with `NULL`. -/
def leftJoin (on : α → β → Bool) (xs : List α) (ys : List β) : List (α × Option β) :=
  xs.flatMap fun x =>
    match ys.filter (on x) with
    | [] => [(x, none)]
    | matched => matched.map fun y => (x, some y)

theorem leftJoin_cons (on : α → β → Bool) (x : α) (xs : List α) (ys : List β) :
    leftJoin on (x :: xs) ys = leftJoin on [x] ys ++ leftJoin on xs ys := by
  simp [leftJoin]

/-- Where at most one right row matches, the join is a lookup. -/
theorem leftJoin_eq_map {on : α → β → Bool} {xs : List α} {ys : List β} {found : α → Option β}
    (h : ∀ x ∈ xs, ys.filter (on x) = (found x).toList) :
    leftJoin on xs ys = xs.map fun x => (x, found x) := by
  unfold leftJoin
  rw [← List.flatMap_singleton' (xs.map _), List.flatMap_map]
  refine List.flatMap_congr fun x hx => ?_
  rw [h x hx]
  cases found x <;> rfl

theorem filter_leftJoin (on : α → β → Bool) (p : α → Bool) (xs : List α) (ys : List β) :
    (leftJoin on xs ys).filter (fun row => p row.1) = leftJoin on (xs.filter p) ys := by
  unfold leftJoin
  induction xs with
  | nil => rfl
  | cons x xs ih =>
    rw [List.flatMap_cons, List.filter_append, ih, List.filter_cons]
    cases hp : p x with
    | true =>
      rw [if_pos rfl, List.flatMap_cons, List.filter_eq_self.mpr]
      intro row hRow
      split at hRow
      · rw [List.mem_singleton.mp hRow, hp]
      · obtain ⟨y, _, rfl⟩ := List.mem_map.mp hRow
        exact hp
    | false =>
      rw [if_neg Bool.false_ne_true, List.filter_eq_nil_iff.mpr, List.nil_append]
      intro row hRow
      split at hRow
      · rw [List.mem_singleton.mp hRow, hp]
        exact Bool.false_ne_true
      · obtain ⟨y, _, rfl⟩ := List.mem_map.mp hRow
        rw [hp]
        exact Bool.false_ne_true

/-- The join of a comma and a condition: every pair of rows that match. -/
def innerJoin (on : α → β → Bool) (xs : List α) (ys : List β) : List (α × β) :=
  xs.flatMap fun x => (ys.filter (on x)).map (x, ·)

theorem innerJoin_eq_filterMap {on : α → β → Bool} {xs : List α} {ys : List β}
    {found : α → Option β} (h : ∀ x ∈ xs, ys.filter (on x) = (found x).toList) :
    innerJoin on xs ys = xs.filterMap fun x => (found x).map (x, ·) := by
  unfold innerJoin
  induction xs with
  | nil => rfl
  | cons x xs ih =>
    rw [List.flatMap_cons, ih fun x' hx' => h x' (List.mem_cons_of_mem x hx'),
      h x List.mem_cons_self, List.filterMap_cons]
    cases found x <;> rfl

theorem innerJoin_map {α' : Type u} {β' : Type v} (f : α' → α) (g : β' → β) (on : α → β → Bool)
    (xs : List α') (ys : List β') :
    innerJoin on (xs.map f) (ys.map g) =
      (innerJoin (fun x y => on (f x) (g y)) xs ys).map fun row => (f row.1, g row.2) := by
  unfold innerJoin
  rw [List.flatMap_map, List.map_flatMap]
  refine List.flatMap_congr fun x _ => ?_
  rw [List.filter_map, List.map_map, List.map_map]
  rfl

/-- A join on equal keys, searched for a key, finds the first row of each side. -/
theorem find_innerJoin {κ : Type w} [DecidableEq κ] (key : α → κ) (key' : β → κ) (k : κ)
    (xs : List α) (ys : List β) :
    (innerJoin (fun x y => key x = key' y) xs ys).find? (fun row => key row.1 = k) =
      (xs.find? fun x => key x = k).bind fun x =>
        (ys.find? fun y => key' y = k).map fun y => (x, y) := by
  unfold innerJoin
  induction xs with
  | nil => rfl
  | cons x xs ih =>
    rw [List.flatMap_cons, List.find?_append, ih, List.find?_map, List.find?_cons]
    by_cases hKey : key x = k
    · subst hKey
      have hHead : (ys.filter fun y => key x = key' y).find?
          ((fun row : α × β => decide (key row.1 = key x)) ∘ (x, ·)) =
            ys.find? fun y => key' y = key x := by
        rw [List.find?_filter]
        congr 1
        funext y
        simp [eq_comm]
      rw [hHead]
      cases ys.find? fun y => key' y = key x <;> simp
    · have hNone : (ys.filter fun y => key x = key' y).find?
          ((fun row : α × β => decide (key row.1 = k)) ∘ (x, ·)) = none := by
        simp [List.find?_eq_none, hKey]
      rw [hNone]
      simp [hKey]

end Join

end Sql
