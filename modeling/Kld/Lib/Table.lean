import Mathlib.Data.List.AList

/-!
# Tables with a primary key

A table is an association list without duplicate keys, so the primary key
constraint is part of the type. The statements below are the three ways in
which a row is written; rows are read by key or all together. A map that is kept
as a function is updated at one key.
-/

namespace Sql

universe u v

abbrev Table (κ : Type u) (ρ : Type v) := AList (fun _ : κ => ρ)

namespace Table

variable {κ : Type u} {ρ : Type v} [DecidableEq κ]

def rows (t : Table κ ρ) : List (κ × ρ) := t.entries.map fun e => (e.1, e.2)

/-- `UPSERT INTO t (columns) VALUES ..`: the row `fresh` where the key is absent,
and otherwise the present row with the named columns overwritten by `set`. -/
def upsert (k : κ) (fresh : ρ) (set : ρ → ρ) (t : Table κ ρ) : Table κ ρ :=
  t.insert k ((t.lookup k).elim fresh set)

/-- `UPDATE t SET columns WHERE key = k`, which changes nothing when the key is absent. -/
def update (k : κ) (set : ρ → ρ) (t : Table κ ρ) : Table κ ρ :=
  (t.lookup k).elim t fun row => t.insert k (set row)

/-- `INSERT INTO t`, which violates the primary key when the key is present. -/
def insertNew (k : κ) (row : ρ) (t : Table κ ρ) : Option (Table κ ρ) :=
  if k ∈ t then none else some (t.insert k row)

/-- `entry(k).or_insert(row)`: a row that is there is kept. -/
def orInsert (k : κ) (row : ρ) (t : Table κ ρ) : Table κ ρ := if k ∈ t then t else t.insert k row

/-- `DELETE FROM t WHERE` a condition on the key. -/
def deleteWhere (p : κ → Bool) (t : Table κ ρ) : Table κ ρ :=
  ⟨t.entries.filter fun e => !p e.1, List.NodupKeys.sublist List.filter_sublist t.nodupKeys⟩

@[simp] theorem lookup_upsert_self (k : κ) (fresh : ρ) (set : ρ → ρ) (t : Table κ ρ) :
    (t.upsert k fresh set).lookup k = some ((t.lookup k).elim fresh set) := AList.lookup_insert t

theorem lookup_upsert_of_ne {k k' : κ} (h : k' ≠ k) (fresh : ρ) (set : ρ → ρ) (t : Table κ ρ) :
    (t.upsert k fresh set).lookup k' = t.lookup k' := AList.lookup_insert_ne h

theorem lookup_upsert (k k' : κ) (fresh : ρ) (set : ρ → ρ) (t : Table κ ρ) :
    (t.upsert k fresh set).lookup k' =
      if k' = k then some ((t.lookup k).elim fresh set) else t.lookup k' := by
  split
  · rename_i h
    rw [h, lookup_upsert_self]
  · rename_i h
    exact lookup_upsert_of_ne h fresh set t

/-- An `UPSERT` that names every column stores its row in either case. -/
theorem upsert_row (k : κ) (row : ρ) (t : Table κ ρ) :
    (t.upsert k row fun _ => row) = t.insert k row := by
  unfold upsert
  cases t.lookup k <;> rfl

theorem lookup_upsert_row (k k' : κ) (row : ρ) (t : Table κ ρ) :
    (t.upsert k row fun _ => row).lookup k' = if k' = k then some row else t.lookup k' := by
  rw [lookup_upsert]
  cases t.lookup k <;> rfl

@[simp] theorem lookup_update_self (k : κ) (set : ρ → ρ) (t : Table κ ρ) :
    (t.update k set).lookup k = (t.lookup k).map set := by
  unfold update
  cases h : t.lookup k with
  | none => exact h
  | some row => exact AList.lookup_insert t

theorem lookup_update_of_ne {k k' : κ} (h : k' ≠ k) (set : ρ → ρ) (t : Table κ ρ) :
    (t.update k set).lookup k' = t.lookup k' := by
  unfold update
  cases t.lookup k with
  | none => rfl
  | some row => exact AList.lookup_insert_ne h

theorem lookup_update (k k' : κ) (set : ρ → ρ) (t : Table κ ρ) :
    (t.update k set).lookup k' = if k' = k then (t.lookup k).map set else t.lookup k' := by
  split
  · rename_i h
    rw [h, lookup_update_self]
  · rename_i h
    exact lookup_update_of_ne h set t

/-- The update of an absent row changes nothing. -/
theorem lookup_update_of_none {k : κ} {t : Table κ ρ} (h : t.lookup k = none) (set : ρ → ρ)
    (k' : κ) : (t.update k set).lookup k' = t.lookup k' := by
  rw [lookup_update]
  split
  · rename_i hKey
    rw [hKey, h]
    rfl
  · rfl

theorem insertNew_eq_some_iff {k : κ} {row : ρ} {t t' : Table κ ρ} :
    t.insertNew k row = some t' ↔ t.lookup k = none ∧ t' = t.insert k row := by
  rw [AList.lookup_eq_none, insertNew]
  split
  · rename_i h
    exact ⟨nofun, fun hNew => absurd h hNew.1⟩
  · rename_i h
    exact ⟨fun hEq => ⟨h, (Option.some.inj hEq).symm⟩, fun hNew => congrArg some hNew.2.symm⟩

@[simp] theorem mem_rows_iff {t : Table κ ρ} {k : κ} {row : ρ} :
    (k, row) ∈ t.rows ↔ t.lookup k = some row := by
  rw [← Option.mem_def, AList.mem_lookup_iff]
  unfold rows
  constructor
  · intro h
    obtain ⟨e, he, hEq⟩ := List.mem_map.mp h
    cases hEq
    exact he
  · intro h
    exact List.mem_map.mpr ⟨⟨k, row⟩, h, rfl⟩

omit [DecidableEq κ] in
theorem rows_map_fst (t : Table κ ρ) : t.rows.map Prod.fst = t.keys := by
  simp [rows, AList.keys, List.keys, Function.comp_def]

theorem lookup_rows (t : Table κ ρ) (k : κ) : t.rows.lookup k = t.lookup k := by
  rw [rows, AList.lookup]
  induction t.entries with
  | nil => rfl
  | cons e es ih =>
    rw [List.map_cons, List.lookup_cons]
    by_cases hKey : k = e.1
    · subst hKey
      rw [beq_self_eq_true, List.dlookup_cons_eq]
    · rw [beq_eq_false_iff_ne.mpr hKey, List.dlookup_cons_ne _ _ hKey]
      exact ih

theorem lookup_eq_some_of_mem {all : List (κ × ρ)} (hNodup : (all.map Prod.fst).Nodup) {k : κ}
    {row : ρ} (hMem : (k, row) ∈ all) : all.lookup k = some row := by
  obtain ⟨front, back, rfl⟩ := List.append_of_mem hMem
  refine List.lookup_eq_some_iff.mpr ⟨front, back, rfl, fun other hOther => ?_⟩
  rw [List.map_append, List.map_cons] at hNodup
  have hFresh := List.disjoint_of_nodup_append hNodup (List.mem_map_of_mem hOther)
  rw [bne_iff_ne]
  exact fun hEq => hFresh (hEq ▸ List.mem_cons_self)

/-- A search for the rows of a key finds what its only row answers. -/
theorem findSome_rows {τ : Type*} (t : Table κ ρ) (k : κ) (f : ρ → Option τ) :
    (t.rows.findSome? fun row => if k = row.1 then f row.2 else none) = (t.lookup k).bind f := by
  have hNodup : (t.rows.map Prod.fst).Nodup := rows_map_fst t ▸ t.keys_nodup
  rw [← lookup_rows]
  generalize t.rows = all at hNodup
  induction all with
  | nil => rfl
  | cons row rest ih =>
    rw [List.map_cons] at hNodup
    obtain ⟨hNotMem, hNodup⟩ := List.nodup_cons.mp hNodup
    rw [List.findSome?_cons, List.lookup_cons]
    by_cases hKey : k = row.1
    · have hRest : (rest.findSome? fun row => if k = row.1 then f row.2 else none) = none := by
        rw [List.findSome?_eq_none_iff]
        refine fun other hMem => if_neg fun hOther => hNotMem ?_
        rw [← hKey, hOther]
        exact List.mem_map_of_mem hMem
      rw [if_pos hKey, hRest, beq_iff_eq.mpr hKey, Option.bind_some]
      cases f row.2 <;> rfl
    · rw [if_neg hKey, beq_eq_false_iff_ne.mpr hKey]
      exact ih hNodup

theorem lookup_orInsert (k k' : κ) (row : ρ) (t : Table κ ρ) :
    (t.orInsert k row).lookup k' = (t.lookup k').or (if k' = k then some row else none) := by
  unfold orInsert
  split
  · rename_i hMem
    split
    · rename_i hKey
      obtain ⟨row', hSome⟩ := Option.isSome_iff_exists.mp (AList.lookup_isSome.mpr hMem)
      rw [hKey, hSome, Option.some_or]
    · rw [Option.or_none]
  · rename_i hMem
    split
    · rename_i hKey
      rw [hKey, AList.lookup_insert, AList.lookup_eq_none.mpr hMem, Option.none_or]
    · rename_i hKey
      rw [AList.lookup_insert_ne hKey, Option.or_none]

theorem lookup_foldl_orInsert (added : List (κ × ρ)) (t : Table κ ρ) (k : κ) :
    (added.foldl (fun t row => t.orInsert row.1 row.2) t).lookup k =
      (t.lookup k).or (added.lookup k) := by
  induction added generalizing t with
  | nil => rw [List.foldl_nil, List.lookup_nil, Option.or_none]
  | cons row added ih =>
    rw [List.foldl_cons, ih, lookup_orInsert, Option.or_assoc, List.lookup_cons]
    by_cases hKey : k = row.1
    · rw [if_pos hKey, hKey, beq_self_eq_true, Option.some_or]
    · rw [if_neg hKey, beq_eq_false_iff_ne.mpr hKey, Option.none_or]

omit [DecidableEq κ] in
theorem mem_deleteWhere {p : κ → Bool} {t : Table κ ρ} {k : κ} :
    k ∈ t.deleteWhere p ↔ k ∈ t ∧ p k = false := by
  simp only [AList.mem_keys, AList.keys, List.keys, deleteWhere, List.mem_map, List.mem_filter,
    Bool.not_eq_true']
  constructor
  · rintro ⟨e, ⟨he, hp⟩, rfl⟩
    exact ⟨⟨e, he, rfl⟩, hp⟩
  · rintro ⟨⟨e, he, rfl⟩, hp⟩
    exact ⟨e, ⟨he, hp⟩, rfl⟩

theorem rows_insert_of_notMem {t : Table κ ρ} {k : κ} {row : ρ} (h : k ∉ t) :
    rows (t.insert k row) = (k, row) :: t.rows := by
  rw [rows, AList.entries_insert_of_notMem h]
  rfl

def seen {τ : Type*} (strip : ρ → τ) (t : Table κ ρ) (k : κ) : Option τ := (t.lookup k).map strip

section

variable {τ : Type*} {strip : ρ → τ} {k : κ} {set set' : ρ → ρ} {t : Table κ ρ}

/-- A row that is put in or changed shows nothing exactly if the key had one that looks the same. -/
theorem seen_upsert_eq_iff {fresh : ρ} :
    (t.upsert k fresh set).seen strip = t.seen strip ↔
      ∃ row, t.lookup k = some row ∧ strip (set row) = strip row := by
  constructor
  · intro hSame
    have hAt := congrFun hSame k
    unfold seen at hAt
    rw [lookup_upsert_self, Option.map_some] at hAt
    obtain ⟨row, hRow, hLook⟩ := Option.map_eq_some_iff.mp hAt.symm
    rw [hRow, Option.elim_some] at hLook
    exact ⟨row, hRow, hLook.symm⟩
  · rintro ⟨row, hRow, hLook⟩
    funext k'
    unfold seen
    rw [lookup_upsert]
    split
    · rename_i hKey
      rw [hKey, hRow, Option.elim_some, Option.map_some, Option.map_some, hLook]
    · rfl

/-- A change of a row shows nothing exactly if the row, where there is one, looks the same. -/
theorem seen_update_eq_iff :
    (t.update k set).seen strip = t.seen strip ↔
      ∀ row, t.lookup k = some row → strip (set row) = strip row := by
  constructor
  · intro hSame row hRow
    have hAt := congrFun hSame k
    unfold seen at hAt
    rw [lookup_update_self, hRow, Option.map_some, Option.map_some] at hAt
    exact Option.some.inj hAt
  · intro hLook
    funext k'
    unfold seen
    rw [lookup_update]
    split
    · rename_i hKey
      rw [hKey]
      cases hRow : t.lookup k with
      | none => rfl
      | some row => exact congrArg some (hLook row hRow)
    · rfl

theorem seen_update_update (hSet : ∀ row, strip (set' (set row)) = strip (set row)) :
    ((t.update k set).update k set').seen strip = (t.update k set).seen strip := by
  refine seen_update_eq_iff.mpr fun row hRow => ?_
  rw [lookup_update_self] at hRow
  obtain ⟨earlier, _, rfl⟩ := Option.map_eq_some_iff.mp hRow
  exact hSet earlier

end

end Table

end Sql

namespace PartialMap

universe u v

variable {κ : Type u} {α : Type v} [DecidableEq κ] {f : κ → Option α} {k k' : κ} {x y : α}

theorem update_eq_some_iff :
    Function.update f k (some x) k' = some y ↔ (k' = k ∧ y = x) ∨ (k' ≠ k ∧ f k' = some y) := by
  by_cases h : k' = k
  · subst h
    simp [eq_comm]
  · simp [h]

theorem update_eq_none_iff : Function.update f k (some x) k' = none ↔ k' ≠ k ∧ f k' = none := by
  by_cases h : k' = k
  · subst h
    simp
  · simp [h]

/-- An update keeps what holds of an entry, if it keeps it of the updated one. -/
theorem exists_update {P : α → Prop} (hKeep : ∀ old, f k = some old → P old → P x)
    (h : ∃ old, f k' = some old ∧ P old) :
    ∃ new, Function.update f k (some x) k' = some new ∧ P new := by
  obtain ⟨old, hOld, hP⟩ := h
  by_cases hSame : k' = k
  · subst hSame
    exact ⟨x, Function.update_self .., hKeep old hOld hP⟩
  · exact ⟨old, (Function.update_of_ne hSame ..).trans hOld, hP⟩

end PartialMap
