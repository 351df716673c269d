/-
# Grouping

Elements are put into groups one after the other, by a key. The groups come in the order
in which their keys have been seen, and each holds its elements in their order.
-/

import Mathlib.Data.List.Induction
import Mathlib.Data.List.Nodup

namespace Fluxora.Lib.Grouping

universe u v

variable {α : Type u} {κ : Type v} [DecidableEq κ]

/-- Put an element into the group of its key. -/
def push (key : κ) (x : α) : List (κ × List α) → List (κ × List α)
  | [] => [(key, [x])]
  | (k, group) :: rest =>
    if k = key then (k, group ++ [x]) :: rest else (k, group) :: push key x rest

/-- The groups of a list. -/
def groups (f : α → κ) (xs : List α) : List (κ × List α) :=
  xs.foldl (fun groups x => push (f x) x groups) []

theorem groups_append_singleton (f : α → κ) (xs : List α) (x : α) :
    groups f (xs ++ [x]) = push (f x) x (groups f xs) := by
  rw [groups, List.foldl_append, List.foldl_cons, List.foldl_nil, groups]

theorem keys_push (key : κ) (x : α) (gs : List (κ × List α)) :
    (push key x gs).map Prod.fst =
      if key ∈ gs.map Prod.fst then gs.map Prod.fst else gs.map Prod.fst ++ [key] := by
  induction gs with
  | nil => rfl
  | cons g rest ih =>
    obtain ⟨k, group⟩ := g
    by_cases hk : k = key
    · rw [push, if_pos hk, List.map_cons, List.map_cons, if_pos]
      exact List.mem_cons.mpr (.inl hk.symm)
    · rw [push, if_neg hk, List.map_cons, List.map_cons, ih]
      by_cases hmem : key ∈ rest.map Prod.fst
      · rw [if_pos hmem, if_pos (List.mem_cons_of_mem _ hmem)]
      · rw [if_neg hmem, if_neg (List.not_mem_cons_of_ne_of_not_mem (Ne.symm hk) hmem)]
        rfl

variable {gs : List (κ × List α)}

theorem nodup_keys_push (key : κ) (x : α) (hkeys : (gs.map Prod.fst).Nodup) :
    ((push key x gs).map Prod.fst).Nodup := by
  rw [keys_push]
  split_ifs with hmem
  · exact hkeys
  · exact hkeys.append (List.nodup_singleton _) (by simpa using hmem)

theorem mem_push_of_ne {key k : κ} (hk : k ≠ key) (x : α) (group : List α)
    (gs : List (κ × List α)) : (k, group) ∈ push key x gs ↔ (k, group) ∈ gs := by
  induction gs with
  | nil => simp [push, hk]
  | cons g _ ih =>
    obtain ⟨k', group'⟩ := g
    rw [push]
    split_ifs with hkey
    · subst hkey
      simp [hk]
    · rw [List.mem_cons, List.mem_cons, ih]

theorem mem_push_self {key : κ} (x : α) (group : List α) (hkeys : (gs.map Prod.fst).Nodup) :
    (key, group) ∈ push key x gs ↔
      (∃ before, (key, before) ∈ gs ∧ group = before ++ [x]) ∨
        key ∉ gs.map Prod.fst ∧ group = [x] := by
  induction gs with
  | nil => simp [push]
  | cons g rest ih =>
    obtain ⟨k, before⟩ := g
    rw [List.map_cons, List.nodup_cons] at hkeys
    by_cases hkey : k = key
    · subst hkey
      have hunique : ∀ other, (k, other) ∉ rest := by
        intro other hmem
        have hkey : Prod.fst (k, other) ∈ rest.map Prod.fst := List.mem_map_of_mem hmem
        exact hkeys.1 hkey
      simp [push, hunique]
    · rw [push, if_neg hkey, List.mem_cons, ih hkeys.2]
      simp [Ne.symm hkey]

theorem nodup_keys_groups (f : α → κ) (xs : List α) :
    ((groups f xs).map Prod.fst).Nodup := by
  induction xs using List.reverseRecOn with
  | nil => exact List.nodup_nil
  | append_singleton _ _ ih =>
    rw [groups_append_singleton]
    exact nodup_keys_push _ _ ih

theorem mem_groups_iff {f : α → κ} {xs : List α} {k : κ} {group : List α} :
    (k, group) ∈ groups f xs ↔ group = xs.filter (f · = k) ∧ group ≠ [] := by
  induction xs using List.reverseRecOn generalizing group with
  | nil =>
    apply Iff.intro
    · intro h
      cases h
    · rintro ⟨rfl, hne⟩
      exact absurd rfl hne
  | append_singleton xs x ih =>
    rw [groups_append_singleton, List.filter_append]
    by_cases hk : k = f x
    · subst hk
      have hkey : f x ∈ (groups f xs).map Prod.fst ↔ xs.filter (f · = f x) ≠ [] := by
        apply Iff.intro
        · intro hmem
          obtain ⟨⟨k, before⟩, hbefore, hk⟩ := List.mem_map.mp hmem
          obtain rfl : k = f x := hk
          obtain ⟨rfl, hne⟩ := ih.mp hbefore
          exact hne
        · intro hne
          exact List.mem_map_of_mem (f := Prod.fst) (ih.mpr ⟨rfl, hne⟩)
      rw [mem_push_self x group (nodup_keys_groups f xs), hkey, not_not]
      have hlast : [x].filter (f · = f x) = [x] := by simp
      rw [hlast]
      apply Iff.intro
      · rintro (⟨before, hbefore, rfl⟩ | ⟨hnone, rfl⟩)
        · obtain ⟨rfl, _⟩ := ih.mp hbefore
          exact ⟨rfl, by simp⟩
        · rw [hnone]
          exact ⟨rfl, by simp⟩
      · rintro ⟨rfl, _⟩
        by_cases hnone : xs.filter (f · = f x) = []
        · exact .inr ⟨hnone, by rw [hnone]; rfl⟩
        · exact .inl ⟨_, ih.mpr ⟨rfl, hnone⟩, rfl⟩
    · have hlast : [x].filter (f · = k) = [] := by simp [Ne.symm hk]
      rw [mem_push_of_ne hk, ih, hlast, List.append_nil]

end Fluxora.Lib.Grouping
