/-
# Tiers over time

One object is created every day and the policy is enforced once after it. In its second
week an object shares its window with the one that is a day younger, which is kept in its
place. So no object gets beyond its second week, and the windows behind it are empty for
good.
-/

import Fluxora.Backup.Retention
import Fluxora.Lib.DigitText

namespace Fluxora.Backup

open Lib

/-! ## One run of the policy -/

section

variable {now : ℤ} {bucket : List StoredObject}

/-- What an enforcement without legal holds leaves in the bucket. -/
def keptAt (now : ℤ) (bucket : List StoredObject) : List StoredObject :=
  deleteObjects bucket
    ((selectObjectsForDeletion (fetchBackupObjects bucket now) []).toDelete.map BackupObject.key)

theorem enforceBackupRetention_eq (now : ℤ) (bucket : List StoredObject) :
    enforceBackupRetention { now, confirmDeletion := true } bucket = .ok (keptAt now bucket) := rfl

theorem mem_filterRetainedObjects {objects : List BackupObject} {object : BackupObject}
    (hobject : object ∈ filterRetainedObjects objects) : object ∈ objects := by
  rw [filterRetainedObjects, List.mem_append, List.mem_append] at hobject
  rcases hobject with (hdaily | hweekly) | hmonthly
  · exact List.mem_of_mem_filter hdaily
  · exact List.mem_of_mem_filter (mem_newestPerWindow hweekly).1
  · exact List.mem_of_mem_filter (mem_newestPerWindow hmonthly).1

theorem toDelete_no_holds (objects : List BackupObject) :
    (selectObjectsForDeletion objects []).toDelete =
      objects.filter fun object => !(filterRetainedObjects objects).any (·.key = object.key) := by
  have hnone : objects.filter (fun object => ([] : List String).any fun hold =>
      object.key = hold || object.key.startsWith hold) = [] :=
    List.filter_eq_nil_iff.mpr fun _ _ => Bool.false_ne_true
  have hall : objects.filter (fun object => !([] : List String).contains object.key) = objects :=
    List.filter_eq_self.mpr fun _ _ => rfl
  simp only [selectObjectsForDeletion, hnone, List.map_nil, hall]

theorem mem_keptAt_iff (hkeys : (bucket.map StoredObject.key).Nodup) {object : StoredObject} :
    object ∈ keptAt now bucket ↔
      object ∈ bucket ∧
        seenAt now object ∈ filterRetainedObjects (fetchBackupObjects bucket now) := by
  rw [keptAt, deleteObjects, List.mem_filter, toDelete_no_holds]
  apply and_congr_right
  intro hobject
  have hsame : ∀ seen ∈ fetchBackupObjects bucket now, seen.key = object.key →
      seen = seenAt now object := by
    intro seen hseen hkey
    obtain ⟨other, hother, rfl⟩ := List.mem_map.mp hseen
    rw [List.inj_on_of_nodup_map hkeys hother hobject hkey]
  rw [Bool.not_eq_true', List.contains_eq_mem, decide_eq_false_iff_not, List.mem_map]
  apply Iff.intro
  · intro hstays
    by_contra hselected
    refine hstays ⟨seenAt now object, List.mem_filter.mpr ⟨List.mem_map_of_mem hobject, ?_⟩, rfl⟩
    rw [Bool.not_eq_true', List.any_eq_false]
    intro seen hseen hkey
    rw [hsame seen (mem_filterRetainedObjects hseen) (of_decide_eq_true hkey)] at hseen
    exact hselected hseen
  · rintro hselected ⟨seen, hseen, hkey⟩
    obtain ⟨hseen, hdropped⟩ := List.mem_filter.mp hseen
    rw [Bool.not_eq_true', List.any_eq_false] at hdropped
    exact hdropped _ hselected
      (decide_eq_true (congrArg BackupObject.key (hsame seen hseen hkey)).symm)

theorem mem_keptAt_of_daily (hkeys : (bucket.map StoredObject.key).Nodup) {object : StoredObject}
    (hobject : object ∈ bucket) (hage : calculateAgeInDays object.lastModified now ≤ 7) :
    object ∈ keptAt now bucket := by
  refine (mem_keptAt_iff hkeys).mpr ⟨hobject, ?_⟩
  rw [filterRetainedObjects, List.append_assoc]
  apply List.mem_append_left
  refine List.mem_filter.mpr ⟨List.mem_map_of_mem hobject, decide_eq_true ?_⟩
  exact if_pos hage

/-- The second week of an object. -/
def InSecondWeek (now : ℤ) (object : StoredObject) : Prop :=
  8 ≤ calculateAgeInDays object.lastModified now ∧ calculateAgeInDays object.lastModified now ≤ 13

theorem classification_secondWeek {object : StoredObject} (hweek : InSecondWeek now object) :
    (seenAt now object).classification = .weekly := by
  obtain ⟨hlow, hhigh⟩ := hweek
  show classifyBackup _ _ = _
  rw [classifyBackup, if_neg, if_pos]
  · show _ ≤ (28 : ℤ)
    omega
  · show ¬ _ ≤ (7 : ℤ)
    omega

theorem window_secondWeek {object : StoredObject} (hweek : InSecondWeek now object) :
    (seenAt now object).ageInDays / 7 = 1 := by
  obtain ⟨hlow, hhigh⟩ := hweek
  show calculateAgeInDays object.lastModified now / 7 = 1
  omega

theorem mem_weekly_of_secondWeek {object : StoredObject} (hobject : object ∈ bucket)
    (hweek : InSecondWeek now object) :
    seenAt now object ∈ (fetchBackupObjects bucket now).filter (·.classification = .weekly) :=
  List.mem_filter.mpr
    ⟨List.mem_map_of_mem hobject, decide_eq_true (classification_secondWeek hweek)⟩

theorem lastModified_le_of_mem_keptAt (hkeys : (bucket.map StoredObject.key).Nodup)
    {object other : StoredObject} (hkept : object ∈ keptAt now bucket)
    (hweek : InSecondWeek now object) (hother : other ∈ bucket)
    (hotherWeek : InSecondWeek now other) : other.lastModified ≤ object.lastModified := by
  obtain ⟨hobject, hselected⟩ := (mem_keptAt_iff hkeys).mp hkept
  rw [filterRetainedObjects, List.mem_append, List.mem_append] at hselected
  have hweekly := classification_secondWeek hweek
  rcases hselected with (hdaily | hselected) | hmonthly
  · have hclass := of_decide_eq_true (List.mem_filter.mp hdaily).2
    cases hweekly.symm.trans hclass
  · apply (mem_newestPerWindow hselected).2 (seenAt now other)
      (mem_weekly_of_secondWeek hother hotherWeek)
    rw [window_secondWeek hotherWeek, window_secondWeek hweek]
  · have hclass := of_decide_eq_true (List.mem_filter.mp (mem_newestPerWindow hmonthly).1).2
    cases hweekly.symm.trans hclass

theorem mem_keptAt_of_newest (hkeys : (bucket.map StoredObject.key).Nodup)
    {object : StoredObject} (hobject : object ∈ bucket) (hweek : InSecondWeek now object)
    (hnewest : ∀ other ∈ bucket, object.lastModified ≤ other.lastModified →
      calculateAgeInDays other.lastModified now ≤ 7 ∨ other = object) :
    object ∈ keptAt now bucket := by
  obtain ⟨kept, hkept, _, hnewer⟩ :=
    exists_mem_newestPerWindow 7 (mem_weekly_of_secondWeek hobject hweek)
  obtain ⟨hseen, hweekly⟩ := List.mem_filter.mp (mem_newestPerWindow hkept).1
  obtain ⟨other, hother, rfl⟩ := List.mem_map.mp hseen
  have hsame : other = object := by
    apply (hnewest other hother hnewer).resolve_left
    intro hdaily
    have hclass : (seenAt now other).classification = .daily := if_pos hdaily
    cases hclass.symm.trans (of_decide_eq_true hweekly)
  subst hsame
  refine (mem_keptAt_iff hkeys).mpr ⟨hobject, ?_⟩
  rw [filterRetainedObjects]
  exact List.mem_append_left _ (List.mem_append_right _ hkept)

end

/-! ## Days -/

/-- The length of a day. -/
def dayMs : ℤ := 1000 * 60 * 60 * 24

/-- A backup a day, each under a key of its own, and an enforcement after it on the same
day. Objects may have been there before. -/
structure BackupRun where
  start : ℤ
  initial : List StoredObject
  object : ℕ → StoredObject
  enforced : ℕ → ℤ
  keys : (initial.map StoredObject.key).Nodup
  fresh : ∀ day, (object day).key ∉ initial.map StoredObject.key
  distinct : Function.Injective fun day => (object day).key
  before : ∀ stored ∈ initial, stored.lastModified < start
  created : ∀ day : ℕ, start + day * dayMs ≤ (object day).lastModified
  after : ∀ day, (object day).lastModified ≤ enforced day
  sameDay : ∀ day : ℕ, enforced day < start + (day + 1) * dayMs

namespace BackupRun

variable (run : BackupRun)

/-- What happens on a day. -/
def onDay (day : ℕ) (bucket : List StoredObject) : Except String (List StoredObject) :=
  enforceBackupRetention { now := run.enforced day, confirmDeletion := true }
    (bucket ++ [run.object day])

/-- The bucket at the end of a day. -/
def bucketAfter : ℕ → Except String (List StoredObject)
  | 0 => run.onDay 0 run.initial
  | day + 1 => bucketAfter day >>= run.onDay (day + 1)

/-- An age as of the enforcement of a day. -/
def ageOn (day : ℕ) (stored : StoredObject) : ℤ :=
  calculateAgeInDays stored.lastModified (run.enforced day)

/-- A week and a month of the tiers in which an object is left at the end of a day: the
weekly tier has the second to the fourth week, the monthly one the months after the
first. -/
structure TiersSurvive (day : ℕ) : Prop where
  weekly : 28 ≤ day → ∀ week ∈ [1, 2, 3], ∃ bucket, run.bucketAfter day = .ok bucket ∧
    ∃ stored ∈ bucket, 8 ≤ run.ageOn day stored ∧ run.ageOn day stored ≤ 28 ∧
      run.ageOn day stored / 7 = week
  monthly : 365 ≤ day → ∀ month ∈ [1, 2, 3, 4, 5, 6, 7, 8, 9, 10, 11],
    ∃ bucket, run.bucketAfter day = .ok bucket ∧
      ∃ stored ∈ bucket, 29 ≤ run.ageOn day stored ∧ run.ageOn day stored ≤ 365 ∧
        run.ageOn day stored / 30 = month

/-! ## What is left in the bucket -/

/-- The bucket before the enforcement of a day. -/
def stock : ℕ → List StoredObject
  | 0 => run.initial ++ [run.object 0]
  | day + 1 => keptAt (run.enforced day) (stock day) ++ [run.object (day + 1)]

variable {run} {day j : ℕ} {stored : StoredObject}

theorem bucketAfter_eq : run.bucketAfter day = .ok (keptAt (run.enforced day) (run.stock day)) := by
  induction day with
  | zero => rfl
  | succ _ ih =>
    rw [bucketAfter, ih]
    rfl

theorem object_mem_stock : run.object day ∈ run.stock day := by
  cases day with
  | zero | succ => exact List.mem_append_right _ List.mem_cons_self

theorem mem_stock_succ_of_mem_keptAt (h : stored ∈ keptAt (run.enforced day) (run.stock day)) :
    stored ∈ run.stock (day + 1) := List.mem_append_left _ h

theorem mem_stock (h : stored ∈ run.stock day) :
    stored ∈ run.initial ∨ ∃ j ≤ day, stored = run.object j := by
  induction day with
  | zero =>
    rcases List.mem_append.mp h with hold | hnew
    · exact .inl hold
    · exact .inr ⟨0, le_rfl, List.mem_singleton.mp hnew⟩
  | succ day ih =>
    rcases List.mem_append.mp h with hold | hnew
    · rcases ih (List.mem_of_mem_filter hold) with hinitial | ⟨j, hj, hobject⟩
      · exact .inl hinitial
      · exact .inr ⟨j, by omega, hobject⟩
    · exact .inr ⟨day + 1, le_rfl, List.mem_singleton.mp hnew⟩

theorem nodup_keys_stock : ((run.stock day).map StoredObject.key).Nodup := by
  induction day with
  | zero =>
    rw [stock, List.map_append, List.map_singleton]
    apply run.keys.append (List.nodup_singleton _)
    intro key hold hnew
    rw [List.mem_singleton.mp hnew] at hold
    exact run.fresh 0 hold
  | succ day ih =>
    rw [stock, List.map_append, List.map_singleton]
    apply List.Nodup.append (ih.sublist (List.filter_sublist.map _)) (List.nodup_singleton _)
    intro key hold hnew
    rw [List.mem_singleton.mp hnew] at hold
    obtain ⟨stored, hstored, hkey⟩ := List.mem_map.mp hold
    rcases mem_stock (List.mem_of_mem_filter hstored) with hinitial | ⟨j, hj, rfl⟩
    · exact run.fresh (day + 1) (hkey ▸ List.mem_map_of_mem hinitial)
    · have := run.distinct hkey
      omega

theorem ageOn_object (run : BackupRun) (day j : ℕ) :
    (day : ℤ) - j - 1 ≤ run.ageOn day (run.object j) ∧
      run.ageOn day (run.object j) ≤ (day : ℤ) - j := by
  have hcreated := run.created j
  have hbefore := (run.after j).trans_lt (run.sameDay j)
  have hday := (run.created day).trans (run.after day)
  have hsame := run.sameDay day
  rw [dayMs] at hcreated hbefore hday hsame
  rw [ageOn, calculateAgeInDays]
  omega

theorem lastModified_lt {k : ℕ} (hk : j < k) :
    (run.object j).lastModified < (run.object k).lastModified := by
  have hbefore := (run.after j).trans_lt (run.sameDay j)
  have hcreated := run.created k
  rw [dayMs] at hbefore hcreated
  omega

theorem object_mem_stock_of_le (hj : j ≤ day) (hday : day ≤ j + 8) :
    run.object j ∈ run.stock day := by
  induction day, hj using Nat.le_induction with
  | base => exact object_mem_stock
  | succ day _ ih =>
    have hage := (ageOn_object run day j).2
    apply mem_stock_succ_of_mem_keptAt
    apply mem_keptAt_of_daily nodup_keys_stock (ih (by omega))
    exact hage.trans (by omega)

theorem object_mem_stock_nine : run.object j ∈ run.stock (j + 9) := by
  apply mem_stock_succ_of_mem_keptAt
  have hmem : run.object j ∈ run.stock (j + 8) := object_mem_stock_of_le (by omega) le_rfl
  have hage := ageOn_object run (j + 8) j
  by_cases hdaily : run.ageOn (j + 8) (run.object j) ≤ 7
  · exact mem_keptAt_of_daily nodup_keys_stock hmem hdaily
  · refine mem_keptAt_of_newest nodup_keys_stock hmem ⟨?_, ?_⟩ ?_
    · show 8 ≤ run.ageOn (j + 8) (run.object j)
      omega
    · show run.ageOn (j + 8) (run.object j) ≤ 13
      omega
    · intro other hother hnewer
      rcases mem_stock hother with hinitial | ⟨k, hk, rfl⟩
      · -- what was there before the run is older
        have hold := run.before other hinitial
        have hcreated := run.created j
        rw [dayMs] at hcreated
        omega
      · rcases lt_trichotomy j k with hlater | rfl | hearlier
        · have hyoung := (ageOn_object run (j + 8) k).2
          exact .inl (hyoung.trans (by omega))
        · exact .inr rfl
        · have hless := run.lastModified_lt hearlier
          omega

theorem object_not_mem_keptAt :
    run.object j ∉ keptAt (run.enforced (j + 10)) (run.stock (j + 10)) := by
  intro hkept
  have hage := ageOn_object run (j + 10) j
  have hweek : InSecondWeek (run.enforced (j + 10)) (run.object j) := by
    rw [ageOn] at hage
    exact ⟨by omega, by omega⟩
  have hnext := ageOn_object run (j + 10) (j + 1)
  have hnewer : InSecondWeek (run.enforced (j + 10)) (run.object (j + 1)) := by
    rw [ageOn] at hnext
    exact ⟨by omega, by omega⟩
  have hle := lastModified_le_of_mem_keptAt nodup_keys_stock hkept hweek
    (object_mem_stock_nine (j := j + 1)) hnewer
  have hless := run.lastModified_lt (show j < j + 1 by omega)
  omega

theorem object_not_mem_keptAt_of_le (hday : j + 10 ≤ day) :
    run.object j ∉ keptAt (run.enforced day) (run.stock day) := by
  induction day, hday using Nat.le_induction with
  | base => exact object_not_mem_keptAt
  | succ day _ ih =>
    intro hkept
    rcases List.mem_append.mp (List.mem_of_mem_filter hkept) with hold | hnew
    · exact ih hold
    · have hsame : j = day + 1 :=
        run.distinct (congrArg StoredObject.key (List.mem_singleton.mp hnew))
      omega

theorem not_thirdWeek (hday : 28 ≤ day)
    (hstored : stored ∈ keptAt (run.enforced day) (run.stock day)) :
    run.ageOn day stored / 7 ≠ 2 := by
  intro hweek
  rcases mem_stock (List.mem_of_mem_filter hstored) with hinitial | ⟨j, hj, rfl⟩
  · have hbefore := run.before stored hinitial
    have hcreated := (run.created day).trans (run.after day)
    rw [dayMs] at hcreated
    rw [ageOn, calculateAgeInDays] at hweek
    omega
  · have hage := ageOn_object run day j
    have hlate : j + 10 ≤ day := by omega
    exact object_not_mem_keptAt_of_le hlate hstored

end BackupRun

/-- In a run of so many days the documented tiers are there at the end of every day if
and only if the run is over before the first day on which they are due. -/
theorem tiersSurvive_iff (run : BackupRun) (days : ℕ) :
    (∀ day < days, run.TiersSurvive day) ↔ days ≤ 28 := by
  apply Iff.intro
  · intro hsurvive
    by_contra hlong
    obtain ⟨bucket, hbucket, stored, hstored, _, _, hweek⟩ :=
      (hsurvive 28 (by omega)).weekly le_rfl 2 (by decide)
    rw [BackupRun.bucketAfter_eq, Except.ok.injEq] at hbucket
    exact BackupRun.not_thirdWeek le_rfl (hbucket ▸ hstored) hweek
  · intro hshort day hday
    exact ⟨fun hdue => by omega, fun hdue => by omega⟩

/-- A bucket that is empty at first, with a backup at the start of each day and the
enforcement at the same time. -/
def plainRun : BackupRun where
  start := 0
  initial := []
  object day := ⟨toString day, 1, day * dayMs⟩
  enforced day := day * dayMs
  keys := List.nodup_nil
  fresh _ := List.not_mem_nil
  distinct := fun _ _ hkey => DigitText.toString_nat_inj hkey
  before _ hstored := absurd hstored List.not_mem_nil
  created day := by simp
  after day := le_rfl
  sameDay day := by
    rw [dayMs]
    omega

/-- On the day after the first four weeks no backup of the third week is left. -/
theorem tiers_lost_plainRun :
    ¬ ∀ (run : BackupRun) (day : ℕ), run.TiersSurvive day := by
  intro hall
  obtain ⟨bucket, hbucket, stored, hstored, _, _, hweek⟩ :=
    (hall plainRun 28).weekly le_rfl 2 (by decide)
  rw [BackupRun.bucketAfter_eq, Except.ok.injEq] at hbucket
  exact BackupRun.not_thirdWeek le_rfl (hbucket ▸ hstored) hweek

end Fluxora.Backup
