/-
# JSON values up to the order of keys

An object is what it has under each key; in which order it was written does not matter. Two
values are the same in this sense just if sorting the keys of all their objects, by any
order of keys, makes them equal.
-/

import Mathlib.Data.List.Sort
import Fluxora.Lib.DoubleText

namespace Fluxora.Lib.JsonOrder

open Properties DoubleText

/-! ## Values -/

/-- A value that is read from a text: its numbers are doubles, and no object has a key twice. -/
inductive Parsed : Json → Prop
  | null : Parsed .null
  | bool (b : Bool) : Parsed (.bool b)
  | number {q : ℚ} (hdouble : IsDouble q) : Parsed (.number q)
  | string (text : String) : Parsed (.string text)
  | array {items : List Json} (hitems : ∀ item ∈ items, Parsed item) : Parsed (.array items)
  | object {entries : List (String × Json)} (hkeys : (keys entries).Nodup)
      (hentries : ∀ entry ∈ entries, Parsed entry.2) : Parsed (.object entries)

/-- Every key of every object in a value is of a kind. -/
inductive EveryKey (p : String → Prop) : Json → Prop
  | null : EveryKey p .null
  | bool (b : Bool) : EveryKey p (.bool b)
  | number (q : ℚ) : EveryKey p (.number q)
  | string (text : String) : EveryKey p (.string text)
  | array {items : List Json} (hitems : ∀ item ∈ items, EveryKey p item) :
      EveryKey p (.array items)
  | object {entries : List (String × Json)} (hkeys : ∀ entry ∈ entries, p entry.1)
      (hentries : ∀ entry ∈ entries, EveryKey p entry.2) : EveryKey p (.object entries)

theorem Parsed.isDouble {q : ℚ} : Parsed (.number q) → IsDouble q
  | .number h => h

theorem Parsed.items {items : List Json} : Parsed (.array items) → ∀ item ∈ items, Parsed item
  | .array h => h

theorem Parsed.nodup {entries : List (String × Json)} :
    Parsed (.object entries) → (keys entries).Nodup
  | .object h _ => h

theorem Parsed.entries {entries : List (String × Json)} :
    Parsed (.object entries) → ∀ entry ∈ entries, Parsed entry.2
  | .object _ h => h

variable {p : String → Prop}

theorem EveryKey.items {items : List Json} :
    EveryKey p (.array items) → ∀ item ∈ items, EveryKey p item
  | .array h => h

theorem EveryKey.entries {entries : List (String × Json)} :
    EveryKey p (.object entries) → ∀ entry ∈ entries, p entry.1 ∧ EveryKey p entry.2
  | .object hkeys hentries => fun entry hmem => ⟨hkeys entry hmem, hentries entry hmem⟩

mutual

/-- Equal up to the order of object keys. -/
def SameUpToOrder : Json → Json → Prop
  | .null, .null => True
  | .bool b, .bool b' => b = b'
  | .number q, .number q' => q = q'
  | .string text, .string text' => text = text'
  | .array items, .array items' => SameItems items items'
  | .object entries, .object entries' =>
    (keys entries).Perm (keys entries') ∧ SameEntries entries entries'
  | _, _ => False

def SameItems : List Json → List Json → Prop
  | [], [] => True
  | item :: rest, item' :: rest' => SameUpToOrder item item' ∧ SameItems rest rest'
  | _, _ => False

/-- What is under each key of the first is the same under that key of the second. -/
def SameEntries : List (String × Json) → List (String × Json) → Prop
  | [], _ => True
  | (key, value) :: rest, entries' =>
    (∃ value', entries'.lookup key = some value' ∧ SameUpToOrder value value') ∧
      SameEntries rest entries'

end

/-! ## Sorting the keys -/

section

variable (le : String → String → Prop) [DecidableRel le]

mutual

/-- The value with the keys of all its objects in order. -/
def sortKeys : Json → Json
  | .null => .null
  | .bool b => .bool b
  | .number q => .number q
  | .string text => .string text
  | .array items => .array (sortItems items)
  | .object entries =>
    let sorted := sortEntries entries
    .object (((keys entries).insertionSort le).map fun key =>
      (key, (sorted.lookup key).getD .null))

def sortItems : List Json → List Json
  | [] => []
  | item :: rest => sortKeys item :: sortItems rest

def sortEntries : List (String × Json) → List (String × Json)
  | [] => []
  | (key, value) :: rest => (key, sortKeys value) :: sortEntries rest

end

variable {le}

theorem keys_sortKeys (entries : List (String × Json)) :
    keys (((keys entries).insertionSort le).map fun key =>
      (key, ((sortEntries le entries).lookup key).getD .null)) =
        (keys entries).insertionSort le := by
  rw [keys, List.map_map]
  exact List.map_id' _

theorem lookup_sortEntries (entries : List (String × Json)) (key : String) :
    (sortEntries le entries).lookup key = (entries.lookup key).map (sortKeys le) := by
  induction entries with
  | nil => rw [sortEntries, List.lookup_nil, Option.map_none]
  | cons entry _ ih =>
    obtain ⟨k, value⟩ := entry
    rw [sortEntries, List.lookup_cons, List.lookup_cons]
    cases key == k with
    | true => rfl
    | false => exact ih

theorem exists_lookup {entries : List (String × Json)} {key : String}
    (hkey : key ∈ keys entries) :
    ∃ value, entries.lookup key = some value ∧ (key, value) ∈ entries := by
  have hsome : (entries.lookup key).isSome = true := by
    obtain ⟨entry, hmem, rfl⟩ := List.mem_map.mp hkey
    rw [List.lookup_isSome_iff]
    exact ⟨entry, hmem, beq_self_eq_true _⟩
  obtain ⟨value, hvalue⟩ := Option.isSome_iff_exists.mp hsome
  obtain ⟨before, after, hsplit, -⟩ := List.lookup_eq_some_iff.mp hvalue
  refine ⟨value, hvalue, ?_⟩
  rw [hsplit]
  exact List.mem_append_right before List.mem_cons_self

theorem lookup_of_mem {entries : List (String × Json)} (hkeys : (keys entries).Nodup)
    {entry : String × Json} (hmem : entry ∈ entries) : entries.lookup entry.1 = some entry.2 := by
  induction entries with
  | nil => exact absurd hmem List.not_mem_nil
  | cons first _ ih =>
    obtain ⟨hnew, hrest⟩ := List.nodup_cons.mp hkeys
    rcases List.mem_cons.mp hmem with rfl | hlater
    · rw [List.lookup_cons, beq_self_eq_true]
    · have hne : (entry.1 == first.1) = false := by
        rw [beq_eq_false_iff_ne]
        intro heq
        exact hnew (heq ▸ List.mem_map_of_mem hlater)
      rw [List.lookup_cons, hne]
      exact ih hrest hlater

theorem mem_insertionSort_keys {entries : List (String × Json)} {key : String} :
    key ∈ (keys entries).insertionSort le ↔ key ∈ keys entries :=
  (List.perm_insertionSort le _).mem_iff

section

variable [Std.Total le] [IsTrans String le] [Std.Antisymm le]

theorem insertionSort_eq_iff {ks ks' : List String} :
    ks.insertionSort le = ks'.insertionSort le ↔ ks.Perm ks' := by
  apply Iff.intro
  · intro heq
    exact (List.perm_insertionSort le ks).symm.trans
      (heq ▸ List.perm_insertionSort le ks')
  · intro hperm
    refine List.Perm.eq_of_pairwise (fun a b _ _ => antisymm_of le)
      (List.pairwise_insertionSort le ks) (List.pairwise_insertionSort le ks') ?_
    exact (List.perm_insertionSort le ks).trans
      (hperm.trans (List.perm_insertionSort le ks').symm)

theorem sortKeys_object_eq_iff {entries entries' : List (String × Json)}
    (hkeys : (keys entries).Nodup) :
    sortKeys le (.object entries) = sortKeys le (.object entries') ↔
      (keys entries).Perm (keys entries') ∧ ∀ entry ∈ entries, ∃ value',
        entries'.lookup entry.1 = some value' ∧ sortKeys le entry.2 = sortKeys le value' := by
  rw [sortKeys, sortKeys, Json.object.injEq]
  apply Iff.intro
  · intro heq
    have hsorted : (keys entries).insertionSort le = (keys entries').insertionSort le := by
      rw [← keys_sortKeys entries, ← keys_sortKeys entries', heq]
    have hperm := insertionSort_eq_iff.mp hsorted
    refine ⟨hperm, fun entry hmem => ?_⟩
    have hkey : entry.1 ∈ keys entries := List.mem_map_of_mem hmem
    obtain ⟨value', hvalue', -⟩ := exists_lookup (hperm.mem_iff.mp hkey)
    have hpair := List.map_inj_left.mp (hsorted ▸ heq) entry.1
      (hsorted ▸ mem_insertionSort_keys.mpr hkey)
    rw [lookup_sortEntries, lookup_sortEntries, lookup_of_mem hkeys hmem, hvalue'] at hpair
    exact ⟨value', hvalue', (Prod.mk.inj hpair).2⟩
  · rintro ⟨hperm, hvalues⟩
    rw [insertionSort_eq_iff.mpr hperm]
    refine List.map_congr_left fun key hkey => ?_
    obtain ⟨value, hvalue, hmem⟩ :=
      exists_lookup (hperm.mem_iff.mpr (mem_insertionSort_keys.mp hkey))
    obtain ⟨value', hvalue', hsame⟩ := hvalues _ hmem
    rw [lookup_sortEntries, lookup_sortEntries, hvalue, hvalue', Option.map_some,
      Option.map_some, hsame]

end

mutual

theorem sortKeys_eq_iff [Std.Total le] [IsTrans String le] [Std.Antisymm le] :
    ∀ {a b : Json}, Parsed a → Parsed b → (sortKeys le a = sortKeys le b ↔ SameUpToOrder a b)
  | .array items, .array items', .array ha, .array hb => by
    rw [sortKeys, sortKeys, SameUpToOrder, Json.array.injEq]
    exact sortItems_eq_iff items items' ha hb
  | .object entries, .object entries', .object hkeys ha, .object _ hb => by
    rw [sortKeys_object_eq_iff hkeys, SameUpToOrder]
    exact and_congr_right fun _ => sortEntries_eq_iff entries entries' ha hb
  | .null, b, _, _ => by cases b <;> simp [sortKeys, SameUpToOrder]
  | .bool _, b, _, _ => by cases b <;> simp [sortKeys, SameUpToOrder]
  | .number _, b, _, _ => by cases b <;> simp [sortKeys, SameUpToOrder]
  | .string _, b, _, _ => by cases b <;> simp [sortKeys, SameUpToOrder]
  | .array _, .null, _, _ => by simp [sortKeys, SameUpToOrder]
  | .array _, .bool _, _, _ => by simp [sortKeys, SameUpToOrder]
  | .array _, .number _, _, _ => by simp [sortKeys, SameUpToOrder]
  | .array _, .string _, _, _ => by simp [sortKeys, SameUpToOrder]
  | .array _, .object _, _, _ => by simp [sortKeys, SameUpToOrder]
  | .object _, .null, _, _ => by simp [sortKeys, SameUpToOrder]
  | .object _, .bool _, _, _ => by simp [sortKeys, SameUpToOrder]
  | .object _, .number _, _, _ => by simp [sortKeys, SameUpToOrder]
  | .object _, .string _, _, _ => by simp [sortKeys, SameUpToOrder]
  | .object _, .array _, _, _ => by simp [sortKeys, SameUpToOrder]

theorem sortItems_eq_iff [Std.Total le] [IsTrans String le] [Std.Antisymm le] :
    ∀ items items' : List Json, (∀ item ∈ items, Parsed item) →
      (∀ item ∈ items', Parsed item) →
        (sortItems le items = sortItems le items' ↔ SameItems items items')
  | [], [], _, _ => by simp [sortItems, SameItems]
  | [], _ :: _, _, _ => by simp [sortItems, SameItems]
  | _ :: _, [], _, _ => by simp [sortItems, SameItems]
  | item :: rest, item' :: rest', ha, hb => by
    rw [sortItems, sortItems, SameItems, List.cons.injEq]
    exact and_congr
      (sortKeys_eq_iff (ha item List.mem_cons_self) (hb item' List.mem_cons_self))
      (sortItems_eq_iff rest rest' (fun v hv => ha v (List.mem_cons_of_mem _ hv))
        fun v hv => hb v (List.mem_cons_of_mem _ hv))

theorem sortEntries_eq_iff [Std.Total le] [IsTrans String le] [Std.Antisymm le] :
    ∀ entries entries' : List (String × Json), (∀ entry ∈ entries, Parsed entry.2) →
      (∀ entry ∈ entries', Parsed entry.2) →
        ((∀ entry ∈ entries, ∃ value', entries'.lookup entry.1 = some value' ∧
          sortKeys le entry.2 = sortKeys le value') ↔ SameEntries entries entries')
  | [], _, _, _ => by simp [SameEntries]
  | (key, value) :: rest, entries', ha, hb => by
    have hrest := sortEntries_eq_iff rest entries'
      (fun entry hmem => ha entry (List.mem_cons_of_mem _ hmem)) hb
    rw [SameEntries, ← hrest, List.forall_mem_cons]
    refine and_congr_left fun _ => exists_congr fun value' => and_congr_right fun hlookup => ?_
    obtain ⟨before, after, hsplit, -⟩ := List.lookup_eq_some_iff.mp hlookup
    exact sortKeys_eq_iff (ha _ List.mem_cons_self)
      (hb (key, value') (hsplit ▸ List.mem_append_right before List.mem_cons_self))

end

end

end Fluxora.Lib.JsonOrder
