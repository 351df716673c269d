/-
# What a run deletes

A held object is retained whatever its tier is, an object that is not is deleted when no tier
keeps it: the daily tier keeps all, the weekly and the monthly tier keep one object of each window
of ages, and nothing keeps an expired object.

The source hands the policy to the selection, which does not look at it: the tiers of the objects
are those of their classification.
-/

import Fluxora.Backup.Tiers

namespace Fluxora.Backup

open Lib

variable {objects : List BackupObject} {legalHolds : List String} {object : BackupObject}

/-- The key of the object is a hold, or starts with one. -/
def IsHeld (legalHolds : List String) (object : BackupObject) : Prop :=
  ∃ hold ∈ legalHolds, object.key = hold ∨ object.key.startsWith hold = true

/-- An object of the tier that no hold protects, of an age in the given window of days. -/
structure InWindow (legalHolds : List String) (tier : Classification) (days window : ℤ)
    (object : BackupObject) : Prop where
  unheld : ¬ IsHeld legalHolds object
  classification : object.classification = tier
  age : object.ageInDays / days = window

/-- Exactly one object of each window of the tier is retained, and none in it is newer. -/
def KeepsNewest (objects : List BackupObject) (legalHolds : List String) (tier : Classification)
    (days : ℤ) (retained : List BackupObject) : Prop :=
  ∀ window, (∃ object ∈ objects, InWindow legalHolds tier days window object) →
    ∃ kept ∈ retained, InWindow legalHolds tier days window kept ∧
      (∀ other ∈ objects, InWindow legalHolds tier days window other →
        other.lastModified ≤ kept.lastModified) ∧
      ∀ other ∈ retained, InWindow legalHolds tier days window other → other = kept

/-- What is promised of a selection. -/
structure SelectsSafely (objects : List BackupObject) (legalHolds : List String)
    (selection : Selection) : Prop where
  split : (selection.retained ++ selection.toDelete).Perm objects
  disjoint : selection.retained.Disjoint selection.toDelete
  held : ∀ object ∈ selection.toDelete, ¬ IsHeld legalHolds object
  daily : ∀ object ∈ selection.toDelete, object.classification ≠ .daily
  expired : ∀ object ∈ objects, ¬ IsHeld legalHolds object → object.classification = .expired →
    object ∈ selection.toDelete
  weekly : KeepsNewest objects legalHolds .weekly 7 selection.retained
  monthly : KeepsNewest objects legalHolds .monthly 30 selection.retained

/-! ## One object of each window -/

variable {days : ℤ} {kept : BackupObject}

theorem eq_of_mem_newestPerWindow {tier : List BackupObject} {other : BackupObject}
    (hkept : kept ∈ newestPerWindow days tier) (hother : other ∈ newestPerWindow days tier)
    (hsame : other.ageInDays / days = kept.ageInDays / days) : other = kept := by
  obtain ⟨⟨window, group⟩, hgroup, hfirst⟩ := List.mem_filterMap.mp hkept
  obtain ⟨⟨window', group'⟩, hgroup', hfirst'⟩ := List.mem_filterMap.mp hother
  obtain ⟨rfl, _⟩ := Grouping.mem_groups_iff.mp hgroup
  obtain ⟨rfl, _⟩ := Grouping.mem_groups_iff.mp hgroup'
  have hwindow := of_decide_eq_true (List.mem_filter.mp (le_of_head?_newestFirst hfirst).1).2
  have hwindow' := of_decide_eq_true (List.mem_filter.mp (le_of_head?_newestFirst hfirst').1).2
  obtain rfl : window' = window := by rw [← hwindow, ← hwindow', hsame]
  exact Option.some.inj (hfirst'.symm.trans hfirst)

variable {tier : Classification}

theorem classification_of_mem_newestPerWindow
    (hkept : kept ∈ newestPerWindow days (objects.filter (·.classification = tier))) :
    kept.classification = tier :=
  of_decide_eq_true (List.mem_filter.mp (mem_newestPerWindow hkept).1).2

theorem mem_filterRetainedObjects_iff :
    object ∈ filterRetainedObjects objects ↔
      object ∈ objects ∧ match object.classification with
        | .daily => True
        | .weekly => object ∈ newestPerWindow 7 (objects.filter (·.classification = .weekly))
        | .monthly => object ∈ newestPerWindow 30 (objects.filter (·.classification = .monthly))
        | .expired => False := by
  have hweekly : object ∈ newestPerWindow 7 (objects.filter (·.classification = .weekly)) →
      object.classification = .weekly := classification_of_mem_newestPerWindow
  have hmonthly : object ∈ newestPerWindow 30 (objects.filter (·.classification = .monthly)) →
      object.classification = .monthly := classification_of_mem_newestPerWindow
  apply Iff.intro
  · intro hkept
    refine ⟨mem_filterRetainedObjects hkept, ?_⟩
    rw [filterRetainedObjects, List.mem_append, List.mem_append, List.mem_filter] at hkept
    rcases hkept with (⟨_, hdaily⟩ | hkept) | hkept
    · rw [of_decide_eq_true hdaily]
      trivial
    · rw [hweekly hkept]
      exact hkept
    · rw [hmonthly hkept]
      exact hkept
  · rintro ⟨hobject, hkept⟩
    rw [filterRetainedObjects, List.mem_append, List.mem_append, List.mem_filter]
    cases hclass : object.classification <;> rw [hclass] at hkept
    case daily => exact Or.inl (Or.inl ⟨hobject, decide_eq_true rfl⟩)
    case weekly => exact Or.inl (Or.inr hkept)
    case monthly => exact Or.inr hkept
    case expired => exact hkept.elim

/-! ## The split -/

/-- The objects that no hold protects. -/
def unheldObjects (objects : List BackupObject) (legalHolds : List String) : List BackupObject :=
  let held := objects.filter fun object =>
    legalHolds.any fun hold => object.key = hold || object.key.startsWith hold
  objects.filter fun object => !(held.map BackupObject.key).contains object.key

theorem mem_unheldObjects_iff :
    object ∈ unheldObjects objects legalHolds ↔ object ∈ objects ∧ ¬ IsHeld legalHolds object := by
  rw [unheldObjects, List.mem_filter]
  apply and_congr_right
  intro hobject
  rw [Bool.not_eq_true', List.contains_eq_mem, decide_eq_false_iff_not, List.mem_map]
  apply not_congr
  have hheld : ∀ other : BackupObject, (legalHolds.any fun hold =>
      decide (other.key = hold) || other.key.startsWith hold) = true ↔ IsHeld legalHolds other := by
    intro other
    simp [IsHeld]
  apply Iff.intro
  · rintro ⟨other, hother, hkey⟩
    have hother := (hheld other).mp (List.mem_filter.mp hother).2
    rwa [IsHeld, hkey] at hother
  · exact fun h => ⟨object, List.mem_filter.mpr ⟨hobject, (hheld object).mpr h⟩, rfl⟩

theorem mem_toDelete_iff (hkeys : (objects.map BackupObject.key).Nodup) :
    object ∈ (selectObjectsForDeletion objects legalHolds).toDelete ↔
      (object ∈ objects ∧ ¬ IsHeld legalHolds object) ∧
        object ∉ filterRetainedObjects (unheldObjects objects legalHolds) := by
  rw [← mem_unheldObjects_iff]
  change object ∈ (unheldObjects objects legalHolds).filter (fun object =>
    !(filterRetainedObjects (unheldObjects objects legalHolds)).any (·.key = object.key)) ↔ _
  rw [List.mem_filter]
  apply and_congr_right
  intro hobject
  rw [Bool.not_eq_true', List.any_eq_false]
  apply Iff.intro
  · exact fun h hkept => h object hkept (decide_eq_true rfl)
  · intro h other hother hkey
    have hmem := (mem_unheldObjects_iff.mp (mem_filterRetainedObjects hother)).1
    have hsame := List.inj_on_of_nodup_map hkeys hmem (mem_unheldObjects_iff.mp hobject).1
      (of_decide_eq_true hkey)
    rw [hsame] at hother
    exact h hother

theorem mem_retained_iff (hkeys : (objects.map BackupObject.key).Nodup) :
    object ∈ (selectObjectsForDeletion objects legalHolds).retained ↔
      object ∈ objects ∧ object ∉ (selectObjectsForDeletion objects legalHolds).toDelete := by
  change object ∈ objects.filter (fun object =>
    !(selectObjectsForDeletion objects legalHolds).toDelete.any (·.key = object.key)) ↔ _
  rw [List.mem_filter]
  apply and_congr_right
  intro hobject
  rw [Bool.not_eq_true', List.any_eq_false]
  apply Iff.intro
  · exact fun h hdeleted => h object hdeleted (decide_eq_true rfl)
  · intro h other hother hkey
    have hmem := ((mem_toDelete_iff hkeys).mp hother).1.1
    rw [List.inj_on_of_nodup_map hkeys hmem hobject (of_decide_eq_true hkey)] at hother
    exact h hother

theorem retained_append_toDelete_perm (hkeys : (objects.map BackupObject.key).Nodup) :
    ((selectObjectsForDeletion objects legalHolds).retained ++
      (selectObjectsForDeletion objects legalHolds).toDelete).Perm objects := by
  have hobjects : objects.Nodup := hkeys.of_map
  have hretained : (selectObjectsForDeletion objects legalHolds).retained.Nodup :=
    hobjects.filter _
  have hdeleted : (selectObjectsForDeletion objects legalHolds).toDelete.Nodup :=
    (hobjects.filter _).filter _
  have hdisjoint : (selectObjectsForDeletion objects legalHolds).retained.Disjoint
      (selectObjectsForDeletion objects legalHolds).toDelete :=
    fun _ hkept => ((mem_retained_iff hkeys).mp hkept).2
  rw [List.perm_ext_iff_of_nodup (hretained.append hdeleted hdisjoint) hobjects]
  intro object
  rw [List.mem_append, mem_retained_iff hkeys]
  apply Iff.intro
  · rintro (hkept | hdropped)
    · exact hkept.1
    · exact ((mem_toDelete_iff hkeys).mp hdropped).1.1
  · intro hobject
    by_cases hdropped : object ∈ (selectObjectsForDeletion objects legalHolds).toDelete
    · exact Or.inr hdropped
    · exact Or.inl ⟨hobject, hdropped⟩

theorem mem_retained_of_unheld (hkeys : (objects.map BackupObject.key).Nodup)
    (hobject : object ∈ objects) (hunheld : ¬ IsHeld legalHolds object) :
    object ∈ (selectObjectsForDeletion objects legalHolds).retained ↔
      object ∈ filterRetainedObjects (unheldObjects objects legalHolds) := by
  rw [mem_retained_iff hkeys, mem_toDelete_iff hkeys]
  apply Iff.intro
  · intro ⟨_, hstays⟩
    by_contra hdropped
    exact hstays ⟨⟨hobject, hunheld⟩, hdropped⟩
  · exact fun hkept => ⟨hobject, fun hdropped => hdropped.2 hkept⟩

/-! ## The tiers -/

theorem keepsNewest (hkeys : (objects.map BackupObject.key).Nodup)
    (htier : ∀ object ∈ unheldObjects objects legalHolds, object.classification = tier → (object ∈
      filterRetainedObjects (unheldObjects objects legalHolds) ↔ object ∈ newestPerWindow days
      ((unheldObjects objects legalHolds).filter (·.classification = tier)))) :
    KeepsNewest objects legalHolds tier days
      (selectObjectsForDeletion objects legalHolds).retained := by
  have htierMem : ∀ {object : BackupObject} {window : ℤ}, object ∈ objects →
      InWindow legalHolds tier days window object →
      object ∈ (unheldObjects objects legalHolds).filter (·.classification = tier) :=
    fun hobject hin => List.mem_filter.mpr
      ⟨mem_unheldObjects_iff.mpr ⟨hobject, hin.unheld⟩, decide_eq_true hin.classification⟩
  have hretained : ∀ {object : BackupObject} {window : ℤ}, object ∈ objects →
      InWindow legalHolds tier days window object →
      (object ∈ (selectObjectsForDeletion objects legalHolds).retained ↔
        object ∈ newestPerWindow days
          ((unheldObjects objects legalHolds).filter (·.classification = tier))) :=
    fun hobject hin => (mem_retained_of_unheld hkeys hobject hin.unheld).trans
      (htier _ (mem_unheldObjects_iff.mpr ⟨hobject, hin.unheld⟩) hin.classification)
  rintro window ⟨object, hobject, hin⟩
  obtain ⟨kept, hkept, hwindow, _⟩ := exists_mem_newestPerWindow days (htierMem hobject hin)
  obtain ⟨hmem, hnewest⟩ := mem_newestPerWindow hkept
  obtain ⟨hunheld, hclass⟩ := List.mem_filter.mp hmem
  obtain ⟨hkeptObject, hkeptUnheld⟩ := mem_unheldObjects_iff.mp hunheld
  have hkeptIn : InWindow legalHolds tier days window kept :=
    ⟨hkeptUnheld, of_decide_eq_true hclass, hwindow.trans hin.age⟩
  refine ⟨kept, (hretained hkeptObject hkeptIn).mpr hkept, hkeptIn, ?_, ?_⟩
  · intro other hother hotherIn
    exact hnewest other (htierMem hother hotherIn) (hotherIn.age.trans hkeptIn.age.symm)
  · intro other hother hotherIn
    have hotherObject := ((mem_retained_iff hkeys).mp hother).1
    exact eq_of_mem_newestPerWindow hkept ((hretained hotherObject hotherIn).mp hother)
      (hotherIn.age.trans hkeptIn.age.symm)

/-- **The selection is safe** for every list of objects with distinct keys and all holds. -/
theorem selectObjectsForDeletion_safe (objects : List BackupObject) (legalHolds : List String)
    (hkeys : (objects.map BackupObject.key).Nodup) :
    SelectsSafely objects legalHolds (selectObjectsForDeletion objects legalHolds) where
  split := retained_append_toDelete_perm hkeys
  disjoint _ hkept := ((mem_retained_iff hkeys).mp hkept).2
  held _ hdeleted := ((mem_toDelete_iff hkeys).mp hdeleted).1.2
  daily object hdeleted hdaily := by
    obtain ⟨hunheld, hdropped⟩ := (mem_toDelete_iff hkeys).mp hdeleted
    refine hdropped (mem_filterRetainedObjects_iff.mpr ⟨mem_unheldObjects_iff.mpr hunheld, ?_⟩)
    rw [hdaily]
    trivial
  expired object hobject hunheld hexpired := by
    refine (mem_toDelete_iff hkeys).mpr ⟨⟨hobject, hunheld⟩, fun hkept => ?_⟩
    have hnone := (mem_filterRetainedObjects_iff.mp hkept).2
    rw [hexpired] at hnone
    exact hnone
  weekly := by
    refine keepsNewest hkeys fun object hobject hweekly => ?_
    rw [mem_filterRetainedObjects_iff, hweekly]
    exact and_iff_right hobject
  monthly := by
    refine keepsNewest hkeys fun object hobject hmonthly => ?_
    rw [mem_filterRetainedObjects_iff, hmonthly]
    exact and_iff_right hobject

/-- Two objects of one week, of which the newer one is retained. -/
theorem selectObjectsForDeletion_safe_weekly :
    let objects : List BackupObject :=
      [⟨"a", 1, 0, 9, .weekly⟩, ⟨"b", 1, 86400000, 8, .weekly⟩]
    (objects.map BackupObject.key).Nodup ∧
      SelectsSafely objects ["held/"] (selectObjectsForDeletion objects ["held/"]) :=
  ⟨by decide, selectObjectsForDeletion_safe _ _ (by decide)⟩

end Fluxora.Backup
