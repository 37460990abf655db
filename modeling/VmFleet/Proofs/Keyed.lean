/-
This file proves what the operations on a table do to a single row. Looking a key
up after an operation is looking it up before, except at the key the operation is
about, so a proof about a table never has to know where in the list a row stands.
Where a statement counts rows, it needs that no key has two of them; every
operation keeps that.
-/

import VmFleet.Keyed

namespace VmFleet

namespace Keyed

variable {α β : Type}

/-! ### Looking a key up -/

/-- What a lookup says of the first row and of the others. -/
theorem find?_cons (key other : String) (row : α) (rows : List (String × α)) :
    (⟨(key, row) :: rows⟩ : Keyed α).find? other =
      if key = other then some row else (⟨rows⟩ : Keyed α).find? other := by
  unfold find?
  by_cases same : key = other
  · simp [same]
  · simp [same]

/-- After a row was put in, its key has it and the other keys have what they had. -/
theorem find?_insert (table : Keyed α) (key other : String) (value : α) :
    (table.insert key value).find? other =
      if key = other then some value else table.find? other := by
  obtain ⟨rows⟩ := table
  unfold insert
  induction rows with
  | nil => exact find?_cons key other value []
  | cons row rows inductionHypothesis =>
    obtain ⟨first, content⟩ := row
    simp only [insertRow]
    split
    · exact find?_cons key other value _
    · split
      · rename_i same
        subst same
        rw [find?_cons, find?_cons]
        split <;> rfl
      · rename_i different
        rw [find?_cons, find?_cons, inductionHypothesis]
        by_cases here : first = other
        · rw [if_pos here, if_neg (fun same => different (same.trans here.symm)), if_pos here]
        · rw [if_neg here, if_neg here]

/-- After a row was taken away, its key has none and the other keys have what they had. -/
theorem find?_erase (table : Keyed α) (key other : String) :
    (table.erase key).find? other = if key = other then none else table.find? other := by
  obtain ⟨rows⟩ := table
  unfold erase
  induction rows with
  | nil => simp [find?]
  | cons row rows inductionHypothesis =>
    obtain ⟨first, content⟩ := row
    by_cases same : first = key
    · subst same
      rw [List.filter_cons_of_neg (by simp), inductionHypothesis, find?_cons]
      split <;> rfl
    · rw [List.filter_cons_of_pos (by simpa using same), find?_cons, inductionHypothesis,
        find?_cons]
      by_cases here : first = other
      · rw [if_pos here, if_neg (fun back => same (here.trans back.symm)), if_pos here]
      · rw [if_neg here, if_neg here]

/-- After a row was changed, its key has the changed row and the other keys have what they
had. -/
theorem find?_modify (table : Keyed α) (key other : String) (change : α → α) :
    (table.modify key change).find? other =
      if key = other then (table.find? other).map change else table.find? other := by
  obtain ⟨rows⟩ := table
  unfold modify
  induction rows with
  | nil => simp [find?]
  | cons row rows inductionHypothesis =>
    obtain ⟨first, content⟩ := row
    rw [List.map_cons, find?_cons, inductionHypothesis, find?_cons]
    by_cases here : first = other
    · subst here
      by_cases same : first = key
      · simp [same]
      · simp [same, Ne.symm same]
    · rw [if_neg here, if_neg here]

/-- A key has a row exactly if a lookup finds one. -/
theorem contains_eq (table : Keyed α) (key : String) :
    table.contains key = (table.find? key).isSome := by
  obtain ⟨rows⟩ := table
  induction rows with
  | nil => rfl
  | cons row rows inductionHypothesis =>
    obtain ⟨first, content⟩ := row
    rw [find?_cons]
    by_cases same : first = key
    · simp [contains, same]
    · rw [if_neg same, ← inductionHypothesis]
      simp [contains, same]

/-- A key is one of the keys exactly if a lookup finds its row. -/
theorem mem_keys_iff {table : Keyed α} {key : String} :
    key ∈ table.keys ↔ (table.find? key).isSome = true := by
  rw [← contains_eq]
  simp [keys, contains]

/-- What a lookup finds is one of the rows. -/
theorem mem_rows_of_find? {table : Keyed α} {key : String} {value : α}
    (found : table.find? key = some value) : (key, value) ∈ table.rows := by
  unfold find? at found
  obtain ⟨⟨first, content⟩, row, rfl⟩ := Option.map_eq_some_iff.mp found
  have same : first = key := by simpa using List.find?_some row
  exact same ▸ List.mem_of_find?_eq_some row

/-! ### One row for each key -/

/-- No key has two rows. -/
def Unambiguous (table : Keyed α) : Prop :=
  table.keys.Nodup

theorem unambiguous_empty : (empty : Keyed α).Unambiguous :=
  List.nodup_nil

/-- Where no key has two rows, a lookup finds every row. -/
theorem Unambiguous.find?_of_mem {table : Keyed α} (unambiguous : table.Unambiguous)
    {key : String} {value : α} (member : (key, value) ∈ table.rows) :
    table.find? key = some value := by
  obtain ⟨rows⟩ := table
  induction rows with
  | nil => cases member
  | cons row rows inductionHypothesis =>
    obtain ⟨first, content⟩ := row
    obtain ⟨absent, rest⟩ := List.nodup_cons.mp unambiguous
    rw [find?_cons]
    rcases List.mem_cons.mp member with same | later
    · injection same with sameKey sameValue
      rw [if_pos sameKey.symm, sameValue]
    · have elsewhere : first ≠ key := by
        rintro rfl
        exact absent (List.mem_map.mpr ⟨_, later, rfl⟩)
      rw [if_neg elsewhere]
      exact inductionHypothesis rest later

/-- A new row makes the table longer by itself; where it comes to stand is another matter. -/
theorem rows_insert_perm (table : Keyed α) (key : String) (value : α)
    (free : table.find? key = none) :
    (table.insert key value).rows.Perm ((key, value) :: table.rows) := by
  obtain ⟨rows⟩ := table
  unfold insert
  induction rows with
  | nil => exact List.Perm.refl _
  | cons row rows inductionHypothesis =>
    obtain ⟨first, content⟩ := row
    rw [find?_cons] at free
    split at free
    · cases free
    · rename_i different
      simp only [insertRow]
      rw [if_neg (Ne.symm different)]
      split
      · exact List.Perm.refl _
      · exact ((inductionHypothesis free).cons _).trans (List.Perm.swap _ _ _)

/-- Taking a row away makes the table shorter by that row. -/
theorem Unambiguous.rows_erase_perm {table : Keyed α} (unambiguous : table.Unambiguous)
    {key : String} {value : α} (found : table.find? key = some value) :
    table.rows.Perm ((key, value) :: (table.erase key).rows) := by
  obtain ⟨rows⟩ := table
  unfold erase
  induction rows with
  | nil => cases found
  | cons row rows inductionHypothesis =>
    obtain ⟨first, content⟩ := row
    obtain ⟨absent, rest⟩ := List.nodup_cons.mp unambiguous
    rw [find?_cons] at found
    by_cases same : first = key
    · subst same
      rw [if_pos rfl] at found
      obtain rfl := Option.some.inj found
      have others : rows.filter (·.1 != first) = rows := by
        refine List.filter_eq_self.mpr fun row member => ?_
        have elsewhere : row.1 ≠ first := by
          intro back
          exact absent (back ▸ List.mem_map.mpr ⟨row, member, rfl⟩)
        simpa using elsewhere
      simp [others]
    · rw [if_neg same] at found
      rw [List.filter_cons_of_pos (by simpa using same)]
      exact ((inductionHypothesis rest found).cons _).trans (List.Perm.swap _ _ _)

theorem Unambiguous.insert {table : Keyed α} (unambiguous : table.Unambiguous) (key : String)
    (value : α) (free : table.find? key = none) : (table.insert key value).Unambiguous := by
  have perm := (table.rows_insert_perm key value free).map Prod.fst
  refine perm.nodup_iff.mpr (List.nodup_cons.mpr ⟨?_, unambiguous⟩)
  intro member
  obtain ⟨⟨first, content⟩, row, rfl⟩ := List.mem_map.mp member
  rw [unambiguous.find?_of_mem row] at free
  cases free

theorem Unambiguous.erase {table : Keyed α} (unambiguous : table.Unambiguous) (key : String) :
    (table.erase key).Unambiguous :=
  (List.filter_sublist.map Prod.fst).nodup unambiguous

/-! ### Rows in the order of their keys -/

/-- Every key comes before the keys of the later rows. -/
def IsAscending (table : Keyed α) : Prop :=
  table.keys.Pairwise (· < ·)

theorem isAscending_empty : (empty : Keyed α).IsAscending :=
  List.Pairwise.nil

theorem mem_keys_insertRow {key other : String} {value : α} {rows : List (String × α)} :
    other ∈ (insertRow key value rows).map Prod.fst ↔ other = key ∨ other ∈ rows.map Prod.fst := by
  induction rows with
  | nil => simp [insertRow]
  | cons row rows inductionHypothesis =>
    obtain ⟨first, content⟩ := row
    unfold insertRow
    split
    · simp
    · split
      · rename_i same
        simp [same]
      · rw [List.map_cons, List.mem_cons, inductionHypothesis, List.map_cons, List.mem_cons]
        exact or_left_comm

/-- A row is put in where its key belongs. -/
theorem IsAscending.insert {table : Keyed α} (ascending : table.IsAscending) (key : String)
    (value : α) : (table.insert key value).IsAscending := by
  obtain ⟨rows⟩ := table
  unfold IsAscending Keyed.insert keys at *
  induction rows with
  | nil => exact List.pairwise_singleton _ _
  | cons row rows inductionHypothesis =>
    obtain ⟨first, content⟩ := row
    obtain ⟨least, rest⟩ := List.pairwise_cons.mp ascending
    simp only [insertRow]
    split
    · rename_i before
      refine List.pairwise_cons.mpr ⟨?_, ascending⟩
      exact List.forall_mem_cons.mpr ⟨before, fun other member =>
        String.lt_trans before (least other member)⟩
    · rename_i notBefore
      split
      · rename_i same
        subst same
        exact List.pairwise_cons.mpr ⟨least, rest⟩
      · rename_i different
        have after : first < key := by
          rcases Decidable.em (first < key) with after | notAfter
          · exact after
          · exact absurd (String.le_antisymm (String.not_lt.mp notAfter)
              (String.not_lt.mp notBefore)) different
        refine List.pairwise_cons.mpr ⟨fun other member => ?_, inductionHypothesis rest⟩
        rcases mem_keys_insertRow.mp member with rfl | later
        · exact after
        · exact least other later

/-! ### A table with all its rows seen in another way -/

/-- The table with a view of each row in its place. -/
def view (table : Keyed α) (look : α → β) : Keyed β :=
  ⟨table.rows.map fun (key, row) => (key, look row)⟩

theorem find?_view (table : Keyed α) (look : α → β) (key : String) :
    (table.view look).find? key = (table.find? key).map look := by
  obtain ⟨rows⟩ := table
  unfold view
  induction rows with
  | nil => rfl
  | cons row rows inductionHypothesis =>
    obtain ⟨first, content⟩ := row
    rw [List.map_cons, find?_cons, find?_cons, inductionHypothesis]
    split <;> rfl

theorem keys_view (table : Keyed α) (look : α → β) : (table.view look).keys = table.keys := by
  simp [view, keys]

theorem view_insert (table : Keyed α) (look : α → β) (key : String) (value : α) :
    (table.insert key value).view look = (table.view look).insert key (look value) := by
  obtain ⟨rows⟩ := table
  unfold insert view
  refine congrArg Keyed.mk ?_
  induction rows with
  | nil => rfl
  | cons row rows inductionHypothesis =>
    obtain ⟨first, content⟩ := row
    simp only [insertRow, List.map_cons]
    split
    · rfl
    · split
      · rfl
      · simp [inductionHypothesis]

theorem view_erase (table : Keyed α) (look : α → β) (key : String) :
    (table.erase key).view look = (table.view look).erase key := by
  simp [view, erase, List.filter_map, Function.comp_def]

/-- A change that the view does not show leaves the viewed table as it was. -/
theorem view_modify (table : Keyed α) (look : α → β) (key : String) (change : α → α)
    (unseen : ∀ row, look (change row) = look row) :
    (table.modify key change).view look = table.view look := by
  unfold view modify
  refine congrArg Keyed.mk ?_
  rw [List.map_map]
  refine List.map_congr_left fun row _ => ?_
  simp only [Function.comp_apply]
  split
  · rw [unseen]
  · rfl

end Keyed

end VmFleet
