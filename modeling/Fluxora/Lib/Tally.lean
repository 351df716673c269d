/-
# Tallies

A tally counts by key. A key that is counted down from one is deleted, so no count of zero
is kept. A tally of the members of a list has for each key the number of members of the
list in its group; members without a group are not counted.
-/

import Mathlib.Data.List.Basic

namespace Fluxora.Lib.Tally

universe u v

abbrev CountTable (κ : Type u) : Type u := κ → Option ℕ

variable {κ : Type u} {α : Type v}

def count (t : CountTable κ) (k : κ) : ℕ := (t k).getD 0

section

variable [DecidableEq κ]

def incr (t : CountTable κ) (k : κ) : CountTable κ := Function.update t k (some (count t k + 1))

def decr (t : CountTable κ) (k : κ) : CountTable κ :=
  Function.update t k (if count t k ≤ 1 then none else some (count t k - 1))

/-- The members of a group. -/
def members (group : α → Option κ) (k : κ) (list : List α) : ℕ :=
  list.countP fun a => group a = some k

/-- The tally has the number of members of each group, and no zero. -/
structure Counts (t : CountTable κ) (group : α → Option κ) (list : List α) : Prop where
  count_eq : ∀ k, count t k = members group k list
  noZero : ∀ k, t k ≠ some 0

end

variable [DecidableEq κ] {t : CountTable κ} {k k' : κ} {group : α → Option κ} {list : List α}
  {a b : α} {i : ℕ}

@[simp]
theorem count_incr_self : count (incr t k) k = count t k + 1 := by
  rw [count, incr, Function.update_self, Option.getD_some]

theorem count_incr_of_ne (hne : k' ≠ k) : count (incr t k) k' = count t k' := by
  rw [count, incr, Function.update_of_ne hne, count]

@[simp]
theorem count_decr_self : count (decr t k) k = count t k - 1 := by
  rw [count, decr, Function.update_self]
  split_ifs with hlast
  · rw [Option.getD_none]
    omega
  · rw [Option.getD_some]

theorem count_decr_of_ne (hne : k' ≠ k) : count (decr t k) k' = count t k' := by
  rw [count, decr, Function.update_of_ne hne, count]

theorem incr_ne_zero (hzero : ∀ k, t k ≠ some 0) : incr t k k' ≠ some 0 := by
  by_cases hk : k' = k
  · rw [hk, incr, Function.update_self]
    simp
  · rw [incr, Function.update_of_ne hk]
    exact hzero k'

theorem decr_ne_zero (hzero : ∀ k, t k ≠ some 0) : decr t k k' ≠ some 0 := by
  by_cases hk : k' = k
  · rw [hk, decr, Function.update_self]
    split_ifs with hlast
    · exact Option.some_ne_none 0 |>.symm
    · rw [Ne, Option.some.injEq]
      omega
  · rw [decr, Function.update_of_ne hk]
    exact hzero k'

/-! ## Members -/

theorem members_append_singleton :
    members group k (list ++ [a]) =
      members group k list + if group a = some k then 1 else 0 := by
  rw [members, members, List.countP_append, List.countP_singleton]
  simp only [decide_eq_true_eq]

theorem members_set (group : α → Option κ) (k : κ) (b : α) (hget : list[i]? = some a) :
    members group k (list.set i b) + (if group a = some k then 1 else 0) =
      members group k list + if group b = some k then 1 else 0 := by
  induction list generalizing i with
  | nil => cases hget
  | cons _ _ ih =>
    cases i with
    | zero =>
      cases hget
      simp only [members, List.set_cons_zero, List.countP_cons, decide_eq_true_eq]
      omega
    | succ =>
      have hrest := ih hget
      simp only [members, List.set_cons_succ, List.countP_cons, decide_eq_true_eq] at hrest ⊢
      omega

/-! ## Counting -/

theorem Counts.nil : Counts (fun _ => none) group ([] : List α) where
  count_eq _ := rfl
  noZero _ := Option.some_ne_none 0 |>.symm

theorem Counts.add (h : Counts t group list) (hgroup : group a = some k) :
    Counts (incr t k) group (list ++ [a]) where
  count_eq k' := by
    rw [members_append_singleton, hgroup, ← h.count_eq]
    by_cases hk : k' = k
    · rw [hk, count_incr_self, if_pos rfl]
    · rw [count_incr_of_ne hk, if_neg fun heq => hk (Option.some.inj heq).symm, Nat.add_zero]
  noZero _ := incr_ne_zero h.noZero

theorem Counts.add_none (h : Counts t group list) (hgroup : group a = none) :
    Counts t group (list ++ [a]) where
  count_eq k := by
    rw [members_append_singleton, hgroup, ← h.count_eq]
    rfl
  noZero := h.noZero

theorem Counts.leave (h : Counts t group list) (hget : list[i]? = some a)
    (hgroup : group a = some k) (hleft : group b = none) :
    Counts (decr t k) group (list.set i b) where
  count_eq k' := by
    have hset := members_set group k' b hget
    rw [hgroup, hleft, ← h.count_eq] at hset
    by_cases hk : k' = k
    · rw [hk, count_decr_self]
      rw [hk, if_pos rfl] at hset
      simp only [reduceCtorEq, if_false] at hset
      omega
    · rw [count_decr_of_ne hk]
      rw [if_neg fun heq => hk (Option.some.inj heq).symm] at hset
      simp only [reduceCtorEq, if_false] at hset
      omega
  noZero _ := decr_ne_zero h.noZero

theorem Counts.stay (h : Counts t group list) (hget : list[i]? = some a)
    (hsame : group b = group a) : Counts t group (list.set i b) where
  count_eq k := by
    have hset := members_set group k b hget
    rw [hsame, ← h.count_eq] at hset
    omega
  noZero := h.noZero

end Fluxora.Lib.Tally
