/-
# Bounded queues of keys that expire

Keys are entered one after another, each with the time it expires. A queue that is full
drops its first entry for a new one. When all keys live equally long, the entry that was
entered first expires first: as long as fewer keys are live than fit, only an expired one is
dropped.
-/

import Mathlib.Data.List.Nodup
import Mathlib.Data.List.Pairwise
import Mathlib.Order.Basic
import Mathlib.Data.Nat.Basic

namespace Fluxora.Lib.ExpiryQueue

universe u

variable {κ : Type u} {entries : List (κ × ℕ)} {now horizon capacity : ℕ} {k : κ} {time : ℕ}

/-! ## Operations -/

/-- How many keys have not expired. -/
def liveCount (entries : List (κ × ℕ)) (now : ℕ) : ℕ :=
  (entries.filter fun entry => now < entry.2).length

def makeRoom (capacity : ℕ) (entries : List (κ × ℕ)) : List (κ × ℕ) :=
  if capacity ≤ entries.length then entries.tail else entries

/-- Enter a key with the time it expires, in place of an entry it has. -/
def enter [DecidableEq κ] (capacity : ℕ) (entries : List (κ × ℕ)) (k : κ) (time : ℕ) :
    List (κ × ℕ) :=
  makeRoom capacity (entries.filter (·.1 ≠ k)) ++ [(k, time)]

/-- No key is there twice, and what was entered first expires first. -/
structure Ordered (entries : List (κ × ℕ)) (horizon : ℕ) : Prop where
  keys : (entries.map Prod.fst).Nodup
  sorted : entries.Pairwise fun first second => first.2 ≤ second.2
  bounded : ∀ entry ∈ entries, entry.2 ≤ horizon

/-! ## Reading -/

theorem lookup_eq_some_iff [DecidableEq κ] (h : Ordered entries horizon) :
    entries.lookup k = some time ↔ (k, time) ∈ entries := by
  apply Iff.intro
  · intro hlookup
    obtain ⟨before, after, hsplit, _⟩ := List.lookup_eq_some_iff.mp hlookup
    rw [hsplit]
    exact List.mem_append_right before List.mem_cons_self
  · intro hmem
    obtain ⟨before, after, hsplit⟩ := List.append_of_mem hmem
    refine List.lookup_eq_some_iff.mpr ⟨before, after, hsplit, fun entry hbefore => ?_⟩
    have hkeys := h.keys
    rw [hsplit, List.map_append] at hkeys
    have hne : entry.1 ≠ k := (List.nodup_append.mp hkeys).2.2 entry.1
      (List.mem_map_of_mem hbefore) k List.mem_cons_self
    exact bne_iff_ne.mpr hne.symm

/-! ## Entering -/

theorem makeRoom_sublist : (makeRoom capacity entries).Sublist entries := by
  rw [makeRoom]
  split_ifs
  · exact List.tail_sublist entries
  · exact List.Sublist.refl entries

theorem Ordered.nil : Ordered ([] : List (κ × ℕ)) horizon where
  keys := List.nodup_nil
  sorted := List.Pairwise.nil
  bounded := fun _ hmem => absurd hmem List.not_mem_nil

theorem Ordered.mono {horizon' : ℕ} (h : Ordered entries horizon) (hle : horizon ≤ horizon') :
    Ordered entries horizon' :=
  ⟨h.keys, h.sorted, fun entry hmem => (h.bounded entry hmem).trans hle⟩

theorem Ordered.sublist {entries' : List (κ × ℕ)} (h : Ordered entries horizon)
    (hsub : entries'.Sublist entries) : Ordered entries' horizon where
  keys := h.keys.sublist (hsub.map _)
  sorted := h.sorted.sublist hsub
  bounded := fun entry hmem => h.bounded entry (hsub.subset hmem)

variable [DecidableEq κ] {entry : κ × ℕ}

theorem Ordered.enter (h : Ordered entries horizon) (hle : horizon ≤ time) :
    Ordered (enter capacity entries k time) time := by
  have hkept := h.sublist (makeRoom_sublist.trans List.filter_sublist :
    (makeRoom capacity (entries.filter (·.1 ≠ k))).Sublist entries)
  have hother : ∀ entry ∈ makeRoom capacity (entries.filter (·.1 ≠ k)), entry.1 ≠ k :=
    fun entry hmem => of_decide_eq_true (List.mem_filter.mp (makeRoom_sublist.subset hmem)).2
  refine ⟨?_, ?_, ?_⟩
  · rw [ExpiryQueue.enter, List.map_append]
    refine List.nodup_append.mpr ⟨hkept.keys, List.nodup_singleton k, ?_⟩
    intro key hkey other hmem
    obtain ⟨entry, hentry, rfl⟩ := List.mem_map.mp hkey
    rw [List.mem_singleton.mp hmem]
    exact hother entry hentry
  · refine List.pairwise_append.mpr ⟨hkept.sorted, List.pairwise_singleton _ _, ?_⟩
    intro entry hentry last hlast
    rw [List.mem_singleton.mp hlast]
    exact (hkept.bounded entry hentry).trans hle
  · intro entry hmem
    rcases List.mem_append.mp hmem with hold | hnew
    · exact (hkept.bounded entry hold).trans hle
    · rw [List.mem_singleton.mp hnew]

theorem mem_of_mem_enter (hmem : entry ∈ enter capacity entries k time) :
    entry ∈ entries ∨ entry = (k, time) := by
  rcases List.mem_append.mp hmem with hold | hnew
  · exact Or.inl (List.mem_of_mem_filter (makeRoom_sublist.subset hold))
  · exact Or.inr (List.mem_singleton.mp hnew)

theorem mem_enter_self : (k, time) ∈ enter capacity entries k time :=
  List.mem_append_right _ (List.mem_singleton_self _)

omit [DecidableEq κ] in
theorem mem_makeRoom_of_live (h : Ordered entries horizon)
    (hroom : liveCount entries now < capacity) (hmem : entry ∈ entries) (hlive : now < entry.2) :
    entry ∈ makeRoom capacity entries := by
  rw [makeRoom]
  split_ifs with hfull
  · cases entries with
    | nil => exact absurd hmem List.not_mem_nil
    | cons _ rest =>
      rcases List.mem_cons.mp hmem with rfl | hrest
      · have hall : ∀ other ∈ entry :: rest, decide (now < other.2) = true := by
          intro other hother
          rcases List.mem_cons.mp hother with rfl | hlater
          · exact decide_eq_true hlive
          · exact decide_eq_true
              (hlive.trans_le ((List.pairwise_cons.mp h.sorted).1 other hlater))
        rw [liveCount, List.filter_eq_self.mpr hall] at hroom
        exact absurd hfull (not_le.mpr hroom)
      · exact hrest
  · exact hmem

theorem mem_enter_of_live (h : Ordered entries horizon) (hroom : liveCount entries now < capacity)
    (hmem : entry ∈ entries) (hlive : now < entry.2)
    (hne : entry.1 ≠ k) : entry ∈ enter capacity entries k time := by
  refine List.mem_append_left _ ?_
  refine mem_makeRoom_of_live (h.sublist List.filter_sublist) ?_
    (List.mem_filter.mpr ⟨hmem, decide_eq_true hne⟩) hlive
  exact (List.filter_sublist.filter _).length_le.trans_lt hroom

end Fluxora.Lib.ExpiryQueue
