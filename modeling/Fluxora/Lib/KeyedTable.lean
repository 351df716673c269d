/-
# Tables with a unique key

A table is a list of rows in insertion order, and a row is identified by its key. `insertAll` is
`INSERT … ON CONFLICT (key) DO NOTHING` for a list of rows: each row is appended unless its key is
taken.
-/

import Mathlib.Data.List.Nodup

namespace Fluxora.Lib.KeyedTable

universe u v w

variable {α : Type u} {κ : Type v} [DecidableEq κ] (key : α → κ) {k : κ} {table : List α}

theorem find?_key_eq_some_iff (hnodup : (table.map key).Nodup) {row : α} :
    table.find? (fun row => key row = k) = some row ↔ row ∈ table ∧ key row = k := by
  apply Iff.intro
  · intro h
    have hkey := List.find?_some h
    exact ⟨List.mem_of_find?_eq_some h, by simpa using hkey⟩
  · rintro ⟨hmem, rfl⟩
    cases hfound : table.find? fun other => key other = key row with
    | none =>
      have hnone := List.find?_eq_none.mp hfound row hmem
      simp at hnone
    | some found =>
      have hkey : key found = key row := by simpa using List.find?_some hfound
      rw [List.inj_on_of_nodup_map hnodup (List.mem_of_find?_eq_some hfound) hmem hkey]

/-- Insert one row unless its key is taken. -/
def insertRow (table : List α) (row : α) : List α :=
  if key row ∈ table.map key then table else table ++ [row]

/-- The row under a key. -/
def row (table : List α) (k : κ) : Option α := table.find? fun row => key row = k

theorem row_eq_none_iff : row key table k = none ↔ k ∉ table.map key := by
  rw [row, List.find?_eq_none, List.mem_map]
  apply Iff.intro
  · intro hnone ⟨found, hmem, hkey⟩
    exact hnone found hmem (decide_eq_true hkey)
  · intro hnot found hmem hkey
    exact hnot ⟨found, hmem, of_decide_eq_true hkey⟩

theorem row_insertRow (table : List α) (new : α) (k : κ) :
    row key (insertRow key table new) k =
      if k = key new then (row key table k).or (some new) else row key table k := by
  rw [insertRow]
  split_ifs with htaken hkey hkey
  · subst hkey
    obtain ⟨found, hfound⟩ := Option.ne_none_iff_exists'.mp
      (mt (row_eq_none_iff key).mp (not_not.mpr htaken))
    rw [hfound]
    rfl
  · rfl
  · subst hkey
    rw [row, List.find?_append, List.find?_singleton, if_pos (decide_eq_true rfl)]
    rfl
  · rw [row, List.find?_append, List.find?_singleton,
      if_neg fun hsame => hkey (of_decide_eq_true hsame).symm, Option.or_none]
    rfl

/-- Change the rows under some keys in place. -/
def changeRows (keys : List κ) (change : α → α) (table : List α) : List α :=
  table.map fun row => if key row ∈ keys then change row else row

section

variable {change : α → α} (hkey : ∀ row, key (change row) = key row)

include hkey

theorem map_key_changeRows (keys : List κ) (table : List α) :
    (changeRows key keys change table).map key = table.map key := by
  rw [changeRows, List.map_map]
  apply List.map_congr_left
  intro row _
  rw [Function.comp_apply]
  split_ifs
  · exact hkey row
  · rfl

theorem row_changeRows (keys : List κ) (table : List α) (k : κ) :
    row key (changeRows key keys change table) k =
      if k ∈ keys then (row key table k).map change else row key table k := by
  induction table with
  | nil => exact (ite_self none).symm
  | cons first _ ih =>
    have hfirst : key (if key first ∈ keys then change first else first) = key first := by
      split_ifs
      · exact hkey first
      · rfl
    rw [changeRows, List.map_cons, row, row, List.find?_cons, List.find?_cons, hfirst]
    by_cases hsame : key first = k
    · rw [decide_eq_true hsame]
      dsimp only
      subst hsame
      split_ifs <;> rfl
    · rw [decide_eq_false hsame]
      exact ih

end

theorem row_filter (hnodup : (table.map key).Nodup) (keep : α → Bool) (k : κ) :
    row key (table.filter keep) k = (row key table k).filter keep := by
  apply Option.ext
  intro found
  have hkept : ((table.filter keep).map key).Nodup := hnodup.sublist (List.filter_sublist.map key)
  rw [row, row, find?_key_eq_some_iff key hkept, Option.filter_eq_some_iff,
    find?_key_eq_some_iff key hnodup, List.mem_filter]
  exact and_right_comm

theorem row_perm {table' : List α} (hperm : table.Perm table') (hnodup : (table.map key).Nodup)
    (k : κ) : row key table k = row key table' k := by
  apply Option.ext
  intro found
  have hnodup' : (table'.map key).Nodup := (hperm.map key).nodup_iff.mp hnodup
  rw [row, row, find?_key_eq_some_iff key hnodup, find?_key_eq_some_iff key hnodup',
    hperm.mem_iff]

/-- Insert rows one after the other, skipping the taken keys. -/
def insertAll (table rows : List α) : List α := rows.foldl (insertRow key) table

@[simp]
theorem insertAll_nil (table : List α) : insertAll key table [] = table := rfl

theorem insertAll_append (table first second : List α) :
    insertAll key table (first ++ second) = insertAll key (insertAll key table first) second :=
  List.foldl_append

theorem mem_keys_insertRow (table : List α) (row : α) (k : κ) :
    k ∈ (insertRow key table row).map key ↔ k ∈ table.map key ∨ k = key row := by
  rw [insertRow]
  by_cases htaken : key row ∈ table.map key
  · rw [if_pos htaken]
    apply Iff.intro
    · exact Or.inl
    · intro h
      rcases h with hold | hnew
      · exact hold
      · rw [hnew]
        exact htaken
  · rw [if_neg htaken]
    simp [eq_comm]

theorem mem_keys_insertAll (table rows : List α) (k : κ) :
    k ∈ (insertAll key table rows).map key ↔ k ∈ table.map key ∨ k ∈ rows.map key := by
  induction rows generalizing table with
  | nil => simp
  | cons row rest ih =>
    have hstep : insertAll key table (row :: rest) =
        insertAll key (insertRow key table row) rest := rfl
    rw [hstep, ih, mem_keys_insertRow, List.map_cons, List.mem_cons, or_assoc]

variable {rows : List α}

theorem mem_insertAll {row : α} (hmem : row ∈ insertAll key table rows) :
    row ∈ table ∨ row ∈ rows := by
  induction rows generalizing table with
  | nil => exact Or.inl hmem
  | cons first rest ih =>
    have hrest : row ∈ insertRow key table first ∨ row ∈ rest := ih hmem
    rcases hrest with hhead | htail
    · rw [insertRow] at hhead
      split at hhead
      · exact Or.inl hhead
      · rcases List.mem_append.mp hhead with hold | hnew
        · exact Or.inl hold
        · exact Or.inr (List.mem_cons.mpr (Or.inl (List.mem_singleton.mp hnew)))
    · exact Or.inr (List.mem_cons_of_mem _ htail)

theorem mem_insertAll_of_mem {row : α} (hmem : row ∈ table) (rows : List α) :
    row ∈ insertAll key table rows := by
  induction rows generalizing table with
  | nil => exact hmem
  | cons _ _ ih =>
    apply ih
    rw [insertRow]
    split_ifs
    · exact hmem
    · exact List.mem_append_left _ hmem

theorem nodup_insertAll (hnodup : (table.map key).Nodup) (rows : List α) :
    ((insertAll key table rows).map key).Nodup := by
  induction rows generalizing table with
  | nil => exact hnodup
  | cons row _ ih =>
    apply ih
    rw [insertRow]
    by_cases htaken : key row ∈ table.map key
    · rw [if_pos htaken]
      exact hnodup
    · rw [if_neg htaken, List.map_append, List.map_singleton]
      apply hnodup.append (List.nodup_singleton _)
      intro k hold hnew
      rw [List.mem_singleton.mp hnew] at hold
      exact htaken hold

theorem insertAll_eq_self (htaken : ∀ row ∈ rows, key row ∈ table.map key) :
    insertAll key table rows = table := by
  induction rows with
  | nil => rfl
  | cons row rest ih =>
    have hfirst : insertRow key table row = table :=
      if_pos (htaken row List.mem_cons_self)
    have hstep : insertAll key table (row :: rest) =
        insertAll key (insertRow key table row) rest := rfl
    rw [hstep, hfirst]
    exact ih fun r hr => htaken r (List.mem_cons_of_mem _ hr)

theorem insertAll_eq_append (hnodup : (rows.map key).Nodup) (table : List α) :
    insertAll key table rows = table ++ rows.filter (key · ∉ table.map key) := by
  induction rows generalizing table with
  | nil => rw [insertAll_nil, List.filter_nil, List.append_nil]
  | cons row rest ih =>
    obtain ⟨hfresh, hrest⟩ := List.nodup_cons.mp hnodup
    have hstep : insertAll key table (row :: rest) =
        insertAll key (insertRow key table row) rest := rfl
    rw [hstep, insertRow, ih hrest]
    by_cases htaken : key row ∈ table.map key
    · rw [if_pos htaken, List.filter_cons_of_neg (by simpa using htaken)]
    · -- no later row has the key of this one
      have hsame : rest.filter (key · ∉ (table ++ [row]).map key) =
          rest.filter (key · ∉ table.map key) := by
        apply List.filter_congr
        intro other hother
        have hne : key other ≠ key row := fun heq => hfresh (heq ▸ List.mem_map_of_mem hother)
        simp [hne]
      rw [if_neg htaken, hsame, List.filter_cons_of_pos (by simpa using htaken),
        List.append_assoc, List.singleton_append]

theorem mem_keys_insertAll_of_mem (hmem : k ∈ table.map key) (rows : List α) :
    k ∈ (insertAll key table rows).map key :=
  (mem_keys_insertAll key table rows k).mpr (Or.inl hmem)

theorem insertAll_insertAll_take (table rows : List α) (count : ℕ) :
    insertAll key (insertAll key table (rows.take count)) rows = insertAll key table rows := by
  have hpresent : ∀ row ∈ rows.take count,
      key row ∈ (insertAll key table (rows.take count)).map key :=
    fun row hrow => (mem_keys_insertAll key table _ _).mpr (Or.inr (List.mem_map_of_mem hrow))
  calc insertAll key (insertAll key table (rows.take count)) rows
      = insertAll key (insertAll key table (rows.take count))
          (rows.take count ++ rows.drop count) := by rw [List.take_append_drop]
    _ = insertAll key (insertAll key table (rows.take count)) (rows.drop count) := by
        rw [insertAll_append, insertAll_eq_self key hpresent]
    _ = insertAll key table rows := by rw [← insertAll_append, List.take_append_drop]

theorem map_insertAll {β : Type w} {key' : β → κ} (f : α → β)
    (hkey : ∀ row, key' (f row) = key row) (table rows : List α) :
    (insertAll key table rows).map f = insertAll key' (table.map f) (rows.map f) := by
  induction rows generalizing table with
  | nil => rfl
  | cons row rest ih =>
    have hstep : insertAll key table (row :: rest) =
        insertAll key (insertRow key table row) rest := rfl
    have hkeys : (table.map f).map key' = table.map key := by
      rw [List.map_map]
      exact List.map_congr_left fun row _ => hkey row
    have hrow : (insertRow key table row).map f = insertRow key' (table.map f) (f row) := by
      rw [insertRow, insertRow, hkeys, hkey]
      split_ifs
      · rfl
      · rw [List.map_append, List.map_singleton]
    rw [hstep, ih, hrow]
    rfl

theorem insertAll_take_window (table rows : List α) {done start count : ℕ}
    (hstart : start ≤ done) :
    insertAll key (insertAll key table (rows.take done)) ((rows.drop start).take count) =
      insertAll key table (rows.take (max done (start + count))) := by
  have hpresent : ∀ row ∈ rows.take done,
      key row ∈ (insertAll key table (rows.take done)).map key := by
    intro row hrow
    rw [mem_keys_insertAll]
    exact Or.inr (List.mem_map_of_mem hrow)
  by_cases hshort : start + count ≤ done
  · -- the whole window is in the prefix
    rw [Nat.max_eq_left hshort]
    apply insertAll_eq_self
    intro row hrow
    apply hpresent
    rw [List.take_drop] at hrow
    exact List.take_subset_take_left rows hshort (List.mem_of_mem_drop hrow)
  · -- the window is the rest of the prefix and what comes after it
    have hlong : done ≤ start + count := by omega
    have hsplit : (rows.drop start).take count =
        (rows.drop start).take (done - start) ++
          (rows.drop done).take (start + count - done) := by
      have hcount : count = (done - start) + (start + count - done) := by omega
      conv_lhs => rw [hcount, List.take_add, List.drop_drop]
      rw [show start + (done - start) = done by omega]
    have hinside : insertAll key (insertAll key table (rows.take done))
        ((rows.drop start).take (done - start)) = insertAll key table (rows.take done) := by
      apply insertAll_eq_self
      intro row hrow
      apply hpresent
      rw [List.take_drop, show start + (done - start) = done by omega] at hrow
      exact List.mem_of_mem_drop hrow
    rw [hsplit, insertAll_append, hinside, ← insertAll_append, Nat.max_eq_right hlong]
    congr 1
    rw [← List.take_add]
    congr 1
    omega

end Fluxora.Lib.KeyedTable
