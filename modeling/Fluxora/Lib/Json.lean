/-
# JSON values and property lists

A JSON object is a list of properties in the order they were written. Setting a property keeps its
place when the key is there already and appends it when it is not, as the source language does;
removing a key and looking one up do not care about the place.
-/

import Mathlib.Data.Rat.Defs
import Mathlib.Data.List.Basic

namespace Fluxora.Lib

/-- A JSON value. Numbers are exact. -/
inductive Json
  | null
  | bool (b : Bool)
  | number (q : ℚ)
  | string (text : String)
  | array (items : List Json)
  | object (entries : List (String × Json))

/-- A property of an object; other values have none. -/
def Json.property (name : String) : Json → Option Json
  | .object entries => entries.lookup name
  | _ => none

theorem Json.sizeOf_property_lt {name : String} {value v : Json}
    (h : value.property name = some v) : sizeOf v < sizeOf value := by
  cases value with
  | object entries =>
    obtain ⟨before, after, hentries, -⟩ := List.lookup_eq_some_iff.mp h
    have hmem : (name, v) ∈ entries := by
      rw [hentries]
      exact List.mem_append_right _ List.mem_cons_self
    have hentry := List.sizeOf_lt_of_mem hmem
    rw [Prod.mk.sizeOf_spec] at hentry
    rw [Json.object.sizeOf_spec]
    omega
  | _ => cases h

theorem Json.property_ne {name : String} {value v : Json} (h : value.property name = some v) :
    v ≠ value := by
  rintro rfl
  exact lt_irrefl _ (sizeOf_property_lt h)

namespace Properties

universe u

variable {β : Type u}

/-- Assign a property: in place if the key exists, else at the end. -/
def set (key : String) (value : β) : List (String × β) → List (String × β)
  | [] => [(key, value)]
  | (k, v) :: rest => if k = key then (k, value) :: rest else (k, v) :: set key value rest

/-- Delete a property. -/
def erase (key : String) (entries : List (String × β)) : List (String × β) :=
  entries.filter (·.1 ≠ key)

/-- The keys in order. -/
def keys (entries : List (String × β)) : List String := entries.map Prod.fst

variable (key : String) (value : β) (entries : List (String × β))

@[simp]
theorem lookup_set_self : (set key value entries).lookup key = some value := by
  induction entries with
  | nil => simp [set]
  | cons entry _ ih =>
    obtain ⟨k, v⟩ := entry
    by_cases hkey : k = key
    · simp [set, hkey]
    · have hbeq : (key == k) = false := by simpa using Ne.symm hkey
      simp [set, hkey, List.lookup_cons, hbeq, ih]

theorem lookup_set_of_ne {key other : String} (h : other ≠ key) (value : β)
    (entries : List (String × β)) :
    (set key value entries).lookup other = entries.lookup other := by
  induction entries with
  | nil =>
    have hbeq : (other == key) = false := by simpa using h
    simp [set, List.lookup_cons, hbeq]
  | cons entry _ ih =>
    obtain ⟨k, v⟩ := entry
    by_cases hkey : k = key
    · subst hkey
      have hbeq : (other == k) = false := by simpa using h
      simp [set, List.lookup_cons, hbeq]
    · simp only [set, if_neg hkey, List.lookup_cons, ih]

theorem mem_keys_set : key ∈ keys (set key value entries) := by
  induction entries with
  | nil => simp [set, keys]
  | cons entry _ ih =>
    obtain ⟨k, v⟩ := entry
    by_cases hkey : k = key
    · simp [set, keys, hkey]
    · simp only [set, if_neg hkey, keys, List.map_cons, List.mem_cons]
      exact Or.inr ih

@[simp]
theorem erase_set : erase key (set key value entries) = erase key entries := by
  induction entries with
  | nil => simp [set, erase]
  | cons entry _ ih =>
    obtain ⟨k, v⟩ := entry
    by_cases hkey : k = key
    · simp [set, erase, hkey]
    · simpa [set, erase, hkey] using ih

theorem erase_eq_self_iff : erase key entries = entries ↔ key ∉ keys entries := by
  simp only [erase, List.filter_eq_self, keys, List.mem_map, not_exists, not_and,
    decide_eq_true_eq]

end Properties

end Fluxora.Lib
