/-
# Reading a list page by page

A reader asks for pages and hands the cursor of each page to the next request, until a page has
none. When the pages are cut from an ordered list and the cursor is the key of the last row of a
page, following the cursors returns the rows that are asked for, each once and in the order of the
list.
-/

import Mathlib.Data.List.Nodup

namespace Fluxora.Lib.Paging

universe u v w

variable {α β : Type u} {κ : Type v} {ε Page : Type w} {cursor : Option κ}

/-! ## Following cursors -/

/-- The pages that are read from a cursor on, up to the first without a cursor. -/
inductive Follows (fetch : Option κ → Except ε Page) (next : Page → Option κ) :
    Option κ → List Page → Prop
  | last {cursor : Option κ} {page : Page} (hfetch : fetch cursor = .ok page)
      (hnext : next page = none) : Follows fetch next cursor [page]
  | more {cursor : Option κ} {page : Page} {cursor' : κ} {pages : List Page}
      (hfetch : fetch cursor = .ok page) (hnext : next page = some cursor')
      (hrest : Follows fetch next (some cursor') pages) :
      Follows fetch next cursor (page :: pages)

variable {fetch : Option κ → Except ε Page} {next : Page → Option κ} {pages : List Page}

theorem Follows.exists_first (h : Follows fetch next cursor pages) :
    ∃ page, fetch cursor = .ok page := by
  cases h with
  | last hfetch | more hfetch => exact ⟨_, hfetch⟩

theorem Follows.eq_singleton {page : Page} (h : Follows fetch next cursor pages)
    (hfetch : fetch cursor = .ok page) (hnext : next page = none) : pages = [page] := by
  cases h with
  | last hfetch' =>
    rw [hfetch] at hfetch'
    cases hfetch'
    rfl
  | more hfetch' hnext' =>
    rw [hfetch] at hfetch'
    cases hfetch'
    rw [hnext] at hnext'
    cases hnext'

/-! ## Cutting a list at a key -/

variable [DecidableEq κ] (key : α → κ)

/-- What comes after the first row with a key, if there is one. -/
def after (k : κ) (rows : List α) : Option (List α) :=
  (rows.findIdx? (key · = k)).map fun i => rows.drop (i + 1)

theorem after_append_cons {front back : List α} {row : α}
    (hnodup : ((front ++ row :: back).map key).Nodup) :
    after key (key row) (front ++ row :: back) = some back := by
  have hfront : front.findIdx? (key · = key row) = none := by
    rw [List.findIdx?_eq_none_iff]
    intro other hother
    rw [decide_eq_false_iff_not]
    intro hsame
    rw [List.map_append, List.map_cons] at hnodup
    have hdisjoint := (List.nodup_append'.mp hnodup).2.2
    apply hdisjoint (List.mem_map_of_mem hother)
    rw [hsame]
    exact List.mem_cons_self
  rw [after, List.findIdx?_append, hfront, List.findIdx?_cons, decide_eq_true rfl]
  simp

variable {rows : List α}

theorem after_eq_none {k : κ} (habsent : k ∉ rows.map key) : after key k rows = none := by
  have hnone : rows.findIdx? (key · = k) = none := by
    rw [List.findIdx?_eq_none_iff]
    intro row hrow
    rw [decide_eq_false_iff_not]
    rintro rfl
    exact habsent (List.mem_map_of_mem hrow)
  rw [after, hnone, Option.map_none]

omit [DecidableEq κ] in
theorem exists_cut_of_sublist {front back : List α} {row : α}
    (hsub : (front ++ row :: back).Sublist rows) :
    ∃ front' back', rows = front' ++ row :: back' ∧ front.Sublist front' ∧ back.Sublist back' := by
  obtain ⟨front', rest, hrows, hfront, hrest⟩ := List.append_sublist_iff.mp hsub
  obtain ⟨middle, back', hcut, hrow, hback⟩ := List.cons_sublist_iff.mp hrest
  obtain ⟨before, behind, hmiddle⟩ := List.append_of_mem hrow
  refine ⟨front' ++ before, behind ++ back', ?_, ?_, ?_⟩
  · rw [hrows, hcut, hmiddle]
    simp only [List.append_assoc, List.cons_append]
  · exact hfront.trans (List.sublist_append_left _ _)
  · exact hback.trans (List.sublist_append_right _ _)

theorem exists_last_taken {p : α → Bool} {limit : ℕ} (hpos : 0 < limit)
    (hmore : limit < (rows.filter p).length) :
    ∃ front row back, rows = front ++ row :: back ∧
      ((rows.filter p).take limit).getLast? = some row ∧
      back.filter p = (rows.filter p).drop limit := by
  have hlength : ((rows.filter p).take limit).length = limit :=
    List.length_take_of_le (Nat.le_of_lt hmore)
  have hne : (rows.filter p).take limit ≠ [] := by
    intro hnil
    rw [hnil] at hlength
    exact absurd hlength (Nat.ne_of_lt hpos)
  obtain ⟨taken, row, htaken⟩ := List.eq_nil_or_concat _ |>.resolve_left hne
  have hsplit : rows.filter p = taken ++ (row :: (rows.filter p).drop limit) := by
    calc rows.filter p
        = (rows.filter p).take limit ++ (rows.filter p).drop limit :=
          (List.take_append_drop ..).symm
      _ = taken ++ (row :: (rows.filter p).drop limit) := by
          rw [htaken, List.concat_eq_append, List.append_assoc, List.singleton_append]
  obtain ⟨before, rest, hrows, _, hrest⟩ := List.filter_eq_append_iff.mp hsplit
  obtain ⟨skipped, back, hcut, _, _, hback⟩ := List.filter_eq_cons_iff.mp hrest
  refine ⟨before ++ skipped, row, back, ?_, ?_, hback⟩
  · rw [hrows, hcut, List.append_assoc]
  · rw [htaken, List.concat_eq_append, List.getLast?_append]
    rfl

/-! ## Pages of a list -/

/-- The rows a cursor leaves to be read. -/
def remaining (rows : List α) : Option κ → Option (List α)
  | none => some rows
  | some k => after key k rows

theorem remaining_suffix {rest : List α} (h : remaining key rows cursor = some rest) :
    rest <:+ rows := by
  cases cursor with
  | none =>
    cases h
    exact List.suffix_rfl
  | some =>
    obtain ⟨i, _, rfl⟩ := Option.map_eq_some_iff.mp h
    exact List.drop_suffix _ _

theorem exists_remaining_of_more {rest : List α} {p : α → Bool} {limit : ℕ}
    (hnodup : (rows.map key).Nodup) (hpos : 0 < limit) (hsuffix : rest <:+ rows)
    (hmore : limit < (rest.filter p).length) :
    ∃ row back, ((rest.filter p).take limit).getLast? = some row ∧
      remaining key rows (some (key row)) = some back ∧
      back.filter p = (rest.filter p).drop limit := by
  obtain ⟨front, rfl⟩ := hsuffix
  obtain ⟨skipped, row, back, rfl, hlast, hback⟩ := exists_last_taken hpos hmore
  refine ⟨row, back, hlast, ?_, hback⟩
  rw [remaining, ← List.append_assoc]
  rw [← List.append_assoc] at hnodup
  exact after_append_cons key hnodup

end Fluxora.Lib.Paging
