/-
# Keys with a time to live

A table of values each of which is there until a time. An entry is written with the time it
is to live; a later write takes its place, and a deleted entry is gone. What a reader finds
was written, and its time is not over.
-/

import Mathlib.Data.Int.Order.Basic
import Mathlib.Logic.Function.Basic

namespace Fluxora.Lib.TtlTable

universe u v

structure Entry (α : Type v) where
  value : α
  /-- The last time at which the entry is there. -/
  expireAt : ℤ
  deriving DecidableEq

/-- The entries as they were written, also those whose time is over. -/
abbrev Table (κ : Type u) (α : Type v) : Type (max u v) := κ → Option (Entry α)

variable {κ : Type u} {α : Type v}

def get (table : Table κ α) (now : ℤ) (k : κ) : Option α :=
  ((table k).filter fun entry => now ≤ entry.expireAt).map (·.value)

theorem get_eq_some_iff {table : Table κ α} {now : ℤ} {k : κ} {value : α} :
    get table now k = some value ↔ ∃ time, table k = some ⟨value, time⟩ ∧ now ≤ time := by
  rw [get, Option.map_eq_some_iff]
  apply Iff.intro
  · rintro ⟨entry, hentry, rfl⟩
    obtain ⟨hwritten, hlives⟩ := Option.filter_eq_some_iff.mp hentry
    exact ⟨entry.expireAt, hwritten, of_decide_eq_true hlives⟩
  · rintro ⟨time, hwritten, hlives⟩
    exact ⟨⟨value, time⟩, Option.filter_eq_some_iff.mpr ⟨hwritten, decide_eq_true hlives⟩, rfl⟩

variable [DecidableEq κ]

def set (table : Table κ α) (now : ℤ) (k : κ) (value : α) (ttl : ℤ) : Table κ α :=
  Function.update table k (some ⟨value, now + ttl⟩)

def del (table : Table κ α) (k : κ) : Table κ α := Function.update table k none

variable {table : Table κ α} {now : ℤ} {k k' : κ} {value : α} {ttl : ℤ}

theorem set_self : set table now k value ttl k = some ⟨value, now + ttl⟩ :=
  Function.update_self _ _ _

theorem set_of_ne (hne : k' ≠ k) : set table now k value ttl k' = table k' :=
  Function.update_of_ne hne _ _

theorem del_self : del table k k = none := Function.update_self _ _ _

theorem del_of_ne (hne : k' ≠ k) : del table k k' = table k' := Function.update_of_ne hne _ _

theorem of_del {entry : Entry α} (h : del table k k' = some entry) :
    k' ≠ k ∧ table k' = some entry := by
  by_cases heq : k' = k
  · rw [heq, del_self] at h
    cases h
  · rw [del_of_ne heq] at h
    exact ⟨heq, h⟩

end Fluxora.Lib.TtlTable
