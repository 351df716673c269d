/-
# Indexes of sets

An index has a set of members for each key, in the order in which they were added. A set is
made with its first member and goes with its last, so that no empty set is kept.
-/

import Mathlib.Data.List.Nodup

namespace Fluxora.Lib.SetIndex

universe u v

abbrev IndexedSets (κ : Type u) (α : Type v) : Type (max u v) := κ → Option (List α)

variable {κ : Type u} {α : Type v} [DecidableEq κ] [DecidableEq α]

def empty : IndexedSets κ α := fun _ => none

def members (index : IndexedSets κ α) (k : κ) : List α := (index k).getD []

def add (index : IndexedSets κ α) (k : κ) (a : α) : IndexedSets κ α :=
  Function.update index k
    (some (if a ∈ members index k then members index k else members index k ++ [a]))

/-- Delete a member, and its set if that was the last one. -/
def remove (index : IndexedSets κ α) (k : κ) (a : α) : IndexedSets κ α :=
  Function.update index k
    ((index k).bind fun set => if set.filter (· ≠ a) = [] then none else some (set.filter (· ≠ a)))

/-- Delete a whole set. -/
def drop (index : IndexedSets κ α) (k : κ) : IndexedSets κ α := Function.update index k none

/-- No set is empty, and none has a member twice. -/
structure WellKept (index : IndexedSets κ α) : Prop where
  nonempty : ∀ k, index k ≠ some []
  nodup : ∀ k, (members index k).Nodup

variable {index : IndexedSets κ α} {k k' : κ} {a b : α}

omit [DecidableEq α] in
theorem members_update (index : IndexedSets κ α) (k : κ) (set : Option (List α)) (k' : κ) :
    members (Function.update index k set) k' =
      if k' = k then set.getD [] else members index k' := by
  rw [members]
  by_cases hk : k' = k
  · rw [if_pos hk, hk, Function.update_self]
  · rw [if_neg hk, Function.update_of_ne hk]
    rfl

theorem members_remove (index : IndexedSets κ α) (k : κ) (a : α) (k' : κ) :
    members (remove index k a) k' =
      if k' = k then (members index k).filter (· ≠ a) else members index k' := by
  rw [remove, members_update]
  by_cases hk : k' = k
  · rw [if_pos hk, if_pos hk, members]
    cases index k with
    | none => rfl
    | some =>
      rw [Option.bind_some]
      split_ifs with hempty
      · rw [Option.getD_some, hempty]
        rfl
      · rfl
  · rw [if_neg hk, if_neg hk]

@[simp]
theorem mem_members_add :
    b ∈ members (add index k a) k' ↔ b ∈ members index k' ∨ k' = k ∧ b = a := by
  rw [add, members_update]
  by_cases hk : k' = k
  · subst hk
    rw [if_pos rfl, Option.getD_some]
    split_ifs with hthere
    · apply Iff.intro
      · exact Or.inl
      · rintro (hold | ⟨-, rfl⟩)
        · exact hold
        · exact hthere
    · simp
  · simp [hk]

@[simp]
theorem mem_members_remove :
    b ∈ members (remove index k a) k' ↔ b ∈ members index k' ∧ ¬ (k' = k ∧ b = a) := by
  rw [members_remove]
  by_cases hk : k' = k
  · subst hk
    simp
  · simp [hk]

omit [DecidableEq κ] [DecidableEq α] in
theorem WellKept.empty : WellKept (SetIndex.empty : IndexedSets κ α) where
  nonempty _ := nofun
  nodup _ := List.nodup_nil

theorem WellKept.add (h : WellKept index) (k : κ) (a : α) : WellKept (add index k a) where
  nonempty k' := by
    rw [SetIndex.add]
    by_cases hk : k' = k
    · rw [hk, Function.update_self]
      split_ifs with hthere
      · exact fun hempty => List.ne_nil_of_mem hthere (Option.some.inj hempty)
      · exact fun hempty => List.concat_ne_nil a _ (Option.some.inj hempty)
    · rw [Function.update_of_ne hk]
      exact h.nonempty k'
  nodup k' := by
    rw [SetIndex.add, members_update]
    split_ifs with hk hthere
    · exact h.nodup k
    · exact List.Nodup.append (h.nodup k) (List.nodup_singleton a) (by simpa using hthere)
    · exact h.nodup k'

theorem WellKept.remove (h : WellKept index) (k : κ) (a : α) : WellKept (remove index k a) where
  nonempty k' := by
    rw [SetIndex.remove]
    by_cases hk : k' = k
    · rw [hk, Function.update_self]
      cases index k with
      | none => nofun
      | some =>
        rw [Option.bind_some]
        split_ifs with hempty
        · nofun
        · exact fun hsome => hempty (Option.some.inj hsome)
    · rw [Function.update_of_ne hk]
      exact h.nonempty k'
  nodup k' := by
    rw [members_remove]
    split_ifs
    · exact (h.nodup k).filter _
    · exact h.nodup k'

omit [DecidableEq α] in
theorem WellKept.drop (h : WellKept index) (k : κ) : WellKept (drop index k) where
  nonempty k' := by
    rw [SetIndex.drop]
    by_cases hk : k' = k
    · rw [hk, Function.update_self]
      nofun
    · rw [Function.update_of_ne hk]
      exact h.nonempty k'
  nodup k' := by
    rw [SetIndex.drop, members_update]
    split_ifs
    · exact List.nodup_nil
    · exact h.nodup k'

end Fluxora.Lib.SetIndex
