/-
# Retention of backups

Backup objects in a bucket fall into tiers by their age in days. Daily ones are all kept;
of the weekly and the monthly tier the newest object of each age window is kept. The
windows are counted from the day of the run, so an object wanders through them.
-/

import Fluxora.Lib.Grouping
import Fluxora.Lib.StableSort
import Mathlib.Algebra.Order.Ring.Int

namespace Fluxora.Backup

open Lib

/-! ## Objects -/

inductive Classification
  | daily
  | weekly
  | monthly
  | expired
  deriving DecidableEq

/-- An object as the bucket lists it. Times are in milliseconds. -/
structure StoredObject where
  key : String
  size : ℕ
  lastModified : ℤ
  deriving DecidableEq

structure BackupObject where
  key : String
  size : ℕ
  lastModified : ℤ
  ageInDays : ℤ
  classification : Classification
  deriving DecidableEq

structure RetentionPolicy where
  dailyDays : ℤ
  weeklyDays : ℤ
  monthlyDays : ℤ

def defaultPolicy : RetentionPolicy where
  dailyDays := 7
  weeklyDays := 28
  monthlyDays := 365

def calculateAgeInDays (lastModified now : ℤ) : ℤ := (now - lastModified) / (1000 * 60 * 60 * 24)

def classifyBackup (ageInDays : ℤ) (policy : RetentionPolicy) : Classification :=
  if ageInDays ≤ policy.dailyDays then .daily
  else if ageInDays ≤ policy.weeklyDays then .weekly
  else if ageInDays ≤ policy.monthlyDays then .monthly
  else .expired

/-- An object as a run at the given time sees it. -/
def seenAt (now : ℤ) (object : StoredObject) : BackupObject where
  key := object.key
  size := object.size
  lastModified := object.lastModified
  ageInDays := calculateAgeInDays object.lastModified now
  classification := classifyBackup (calculateAgeInDays object.lastModified now) defaultPolicy

/-- The order of the listing decides between objects of the same time only. -/
def fetchBackupObjects (bucket : List StoredObject) (now : ℤ) : List BackupObject :=
  bucket.map (seenAt now)

/-! ## Selection -/

/-- `(a, b) => b.lastModified.getTime() - a.lastModified.getTime()`. -/
def isNewer (first second : BackupObject) : Prop := second.lastModified ≤ first.lastModified

instance : DecidableRel isNewer := fun first second =>
  inferInstanceAs (Decidable (second.lastModified ≤ first.lastModified))

def newestFirst (objects : List BackupObject) : List BackupObject := objects.insertionSort isNewer

/-- The newest object of each window of so many days. -/
def newestPerWindow (days : ℤ) (tier : List BackupObject) : List BackupObject :=
  (Grouping.groups (fun object : BackupObject => object.ageInDays / days)
    (newestFirst tier)).filterMap fun (_, group) => (newestFirst group).head?

def filterRetainedObjects (objects : List BackupObject) : List BackupObject :=
  objects.filter (·.classification = .daily) ++
    newestPerWindow 7 (objects.filter (·.classification = .weekly)) ++
    newestPerWindow 30 (objects.filter (·.classification = .monthly))

structure Selection where
  retained : List BackupObject
  toDelete : List BackupObject

def selectObjectsForDeletion (allObjects : List BackupObject) (legalHolds : List String) :
    Selection :=
  let held := allObjects.filter fun object =>
    legalHolds.any fun hold => object.key = hold || object.key.startsWith hold
  let heldKeys := held.map BackupObject.key
  let objectsNotHeld := allObjects.filter fun object => !heldKeys.contains object.key
  let retainedNotHeld := filterRetainedObjects objectsNotHeld
  let toDelete := objectsNotHeld.filter fun object => !retainedNotHeld.any (·.key = object.key)
  { retained := allObjects.filter fun object => !toDelete.any (·.key = object.key)
    toDelete }

/-! ## Enforcement -/

structure BackupRetentionOptions where
  dryRun : Bool := false
  now : ℤ
  legalHolds : List String := []
  confirmDeletion : Bool := false

def deleteObjects (bucket : List StoredObject) (keys : List String) : List StoredObject :=
  bucket.filter fun object => !keys.contains object.key

/-- What is left in the bucket. -/
def enforceBackupRetention (options : BackupRetentionOptions) (bucket : List StoredObject) :
    Except String (List StoredObject) :=
  if !options.dryRun && !options.confirmDeletion then
    .error "confirmDeletion must be true when executing actual deletion."
  else
    let selection := selectObjectsForDeletion (fetchBackupObjects bucket options.now)
      options.legalHolds
    if options.dryRun then .ok bucket
    else .ok (deleteObjects bucket (selection.toDelete.map BackupObject.key))

/-! ## What is kept -/

section

variable {days : ℤ} {tier : List BackupObject}

instance : IsTrans BackupObject isNewer := ⟨fun _ _ _ h h' => le_trans h' h⟩

instance : Std.Total isNewer := ⟨fun a b => le_total b.lastModified a.lastModified⟩

theorem le_of_head?_newestFirst {objects : List BackupObject} {first : BackupObject}
    (hfirst : (newestFirst objects).head? = some first) :
    first ∈ objects ∧ ∀ object ∈ objects, object.lastModified ≤ first.lastModified := by
  have hsorted := List.pairwise_insertionSort isNewer objects
  obtain ⟨rest, hrest⟩ := List.head?_eq_some_iff.mp hfirst
  rw [newestFirst] at hrest
  rw [hrest, List.pairwise_cons] at hsorted
  have hmem : ∀ object, object ∈ objects ↔ object ∈ first :: rest := by
    intro object
    rw [← hrest, List.mem_insertionSort]
  refine ⟨(hmem first).mpr List.mem_cons_self, ?_⟩
  intro object hobject
  rcases List.mem_cons.mp ((hmem object).mp hobject) with rfl | hin
  · exact le_rfl
  · exact hsorted.1 object hin

theorem mem_newestPerWindow {kept : BackupObject} (hkept : kept ∈ newestPerWindow days tier) :
    kept ∈ tier ∧ ∀ object ∈ tier, object.ageInDays / days = kept.ageInDays / days →
      object.lastModified ≤ kept.lastModified := by
  obtain ⟨⟨window, group⟩, hgroup, hfirst⟩ := List.mem_filterMap.mp hkept
  obtain ⟨rfl, _⟩ := Grouping.mem_groups_iff.mp hgroup
  obtain ⟨hmem, hnewest⟩ := le_of_head?_newestFirst hfirst
  obtain ⟨hkept, hwindow⟩ := List.mem_filter.mp hmem
  rw [newestFirst, List.mem_insertionSort] at hkept
  refine ⟨hkept, fun object hobject hsame => hnewest object (List.mem_filter.mpr ⟨?_, ?_⟩)⟩
  · rw [newestFirst, List.mem_insertionSort]
    exact hobject
  · rw [hsame]
    exact hwindow

theorem exists_mem_newestPerWindow (days : ℤ) {object : BackupObject} (hobject : object ∈ tier) :
    ∃ kept ∈ newestPerWindow days tier, kept.ageInDays / days = object.ageInDays / days ∧
      object.lastModified ≤ kept.lastModified := by
  let group := (newestFirst tier).filter (fun other => decide
    (other.ageInDays / days = object.ageInDays / days))
  have hmem : object ∈ group := by
    refine List.mem_filter.mpr ⟨?_, decide_eq_true rfl⟩
    rw [newestFirst, List.mem_insertionSort]
    exact hobject
  have hgroup := Grouping.mem_groups_iff.mpr ⟨rfl, List.ne_nil_of_mem hmem⟩
  cases hfirst : (newestFirst group).head? with
  | none =>
    rw [List.head?_eq_none_iff] at hfirst
    have hempty : object ∈ newestFirst group := by
      rw [newestFirst, List.mem_insertionSort]
      exact hmem
    rw [hfirst] at hempty
    cases hempty
  | some kept =>
    obtain ⟨hkept, hnewest⟩ := le_of_head?_newestFirst hfirst
    refine ⟨kept, List.mem_filterMap.mpr ⟨_, hgroup, hfirst⟩, ?_, hnewest object hmem⟩
    exact of_decide_eq_true (List.mem_filter.mp hkept).2

end

end Fluxora.Backup
