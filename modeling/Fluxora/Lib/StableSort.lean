/-
# Sorting part of a list

Insertion sort keeps elements that compare as equal in their order. Leaving elements out
before or after the sort therefore makes no difference.
-/

import Mathlib.Data.List.Sort

namespace Fluxora.Lib.StableSort

universe u

variable {α : Type u} {r : α → α → Prop} [DecidableRel r] {p : α → Bool} {l : List α}

theorem orderedInsert_of_forall_rel {a : α} (h : ∀ b ∈ l, r a b) :
    l.orderedInsert r a = a :: l := by
  cases l with
  | nil => rfl
  | cons b l => exact List.orderedInsert_cons_of_le r l (h b List.mem_cons_self)

section

variable [IsTrans α r]

theorem filter_orderedInsert (a : α) (hsorted : l.Pairwise r) :
    (l.orderedInsert r a).filter p =
      if p a then (l.filter p).orderedInsert r a else l.filter p := by
  induction l with
  | nil =>
    by_cases ha : p a
    · simp [ha]
    · simp [ha]
  | cons b l ih =>
    have ⟨hfirst, hrest⟩ := List.pairwise_cons.mp hsorted
    by_cases hab : r a b
    · -- the new element is in front of everything, and so it is of what is left
      have hall : ∀ c ∈ (b :: l).filter p, r a c := by
        intro c hc
        rcases List.mem_cons.mp (List.mem_of_mem_filter hc) with rfl | hmem
        · exact hab
        · exact IsTrans.trans a b c hab (hfirst c hmem)
      rw [List.orderedInsert_cons_of_le r l hab, orderedInsert_of_forall_rel hall,
        List.filter_cons]
    · rw [List.orderedInsert_of_not_le r l hab]
      by_cases hb : p b
      · rw [List.filter_cons_of_pos hb, List.filter_cons_of_pos hb, ih hrest]
        by_cases ha : p a
        · rw [if_pos ha, if_pos ha, List.orderedInsert_of_not_le r _ hab]
        · rw [if_neg ha, if_neg ha]
      · rw [List.filter_cons_of_neg hb, List.filter_cons_of_neg hb, ih hrest]

theorem sublist_insertionSort_of_sublist [Std.Total r] {l' : List α} (hsub : l.Sublist l') :
    (l.insertionSort r).Sublist (l'.insertionSort r) := by
  induction hsub with
  | slnil => exact List.Sublist.refl _
  | cons a _ ih =>
    rw [List.insertionSort_cons]
    exact ih.trans (List.sublist_orderedInsert a _)
  | cons_cons a _ ih =>
    rw [List.insertionSort_cons, List.insertionSort_cons]
    exact ih.orderedInsert_sublist a (List.pairwise_insertionSort r _)

theorem filter_insertionSort [Std.Total r] (l : List α) :
    (l.insertionSort r).filter p = (l.filter p).insertionSort r := by
  induction l with
  | nil => rfl
  | cons a l ih =>
    rw [List.insertionSort_cons, filter_orderedInsert a (List.pairwise_insertionSort r l), ih]
    by_cases ha : p a
    · rw [if_pos ha, List.filter_cons_of_pos ha, List.insertionSort_cons]
    · rw [if_neg ha, List.filter_cons_of_neg ha]

end

omit [DecidableRel r] in
theorem eq_filter_append_filter (hsorted : l.Pairwise r) (hfront : ∀ a b, r a b → p b → p a) :
    l = l.filter p ++ l.filter fun a => !p a := by
  induction l with
  | nil => rfl
  | cons a l ih =>
    have ⟨hfirst, hrest⟩ := List.pairwise_cons.mp hsorted
    by_cases ha : p a
    · rw [List.filter_cons_of_pos ha, List.filter_cons_of_neg (by simp [ha]), List.cons_append,
        ← ih hrest]
    · have hnone : l.filter p = [] := by
        rw [List.filter_eq_nil_iff]
        exact fun b hb hpb => ha (hfront a b (hfirst b hb) hpb)
      have hall := ih hrest
      rw [hnone, List.nil_append] at hall
      rw [List.filter_cons_of_neg ha, hnone, List.filter_cons_of_pos (by simp [ha]),
        List.nil_append, ← hall]

end Fluxora.Lib.StableSort
