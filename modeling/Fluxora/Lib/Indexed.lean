/-
# A table and lists by class

Objects that are held twice: in a table under their keys, and in a list for each class. The key
and the class of an object are functions. The table and the lists hold the same objects as long as
no key is inserted twice and an object leaves both.

An object is a reference.
-/

import Fluxora.Lib.Json
import Mathlib.Data.List.Nodup

namespace Fluxora.Lib

universe u v

/-! ## Keys that occur once -/

namespace Properties

variable {β : Type u} {key : String}

theorem set_of_not_mem {entries : List (String × β)} (hfresh : key ∉ keys entries) (value : β) :
    set key value entries = entries ++ [(key, value)] := by
  induction entries with
  | nil => rfl
  | cons entry _ ih =>
    obtain ⟨k, v⟩ := entry
    have hne : k ≠ key := fun hsame => hfresh (hsame ▸ List.mem_cons_self)
    rw [set, if_neg hne, ih fun hmem => hfresh (List.mem_cons_of_mem _ hmem)]
    rfl

theorem keys_set_of_not_mem {entries : List (String × β)} (hfresh : key ∉ keys entries)
    (value : β) :
    keys (set key value entries) = keys entries ++ [key] := by
  rw [set_of_not_mem hfresh, keys, List.map_append]
  rfl

theorem nodup_keys_set {entries : List (String × β)} (hnodup : (keys entries).Nodup)
    (hfresh : key ∉ keys entries) (value : β) : (keys (set key value entries)).Nodup := by
  rw [keys_set_of_not_mem hfresh]
  exact hnodup.append (List.nodup_singleton _) (by simpa using hfresh)

theorem nodup_keys_erase {entries : List (String × β)} (hnodup : (keys entries).Nodup)
    (key : String) : (keys (erase key entries)).Nodup :=
  List.Nodup.sublist (List.filter_sublist.map Prod.fst) hnodup

theorem lookup_erase (key other : String) (entries : List (String × β)) :
    (erase key entries).lookup other = if other = key then none else entries.lookup other := by
  induction entries with
  | nil => exact (ite_self none).symm
  | cons entry rest ih =>
    obtain ⟨k, v⟩ := entry
    by_cases hkey : k = key
    · have herased : erase key ((k, v) :: rest) = erase key rest :=
        List.filter_cons_of_neg (by simpa using hkey)
      rw [herased, ih]
      split_ifs with hother
      · rfl
      · have hne : (other == k) = false := by simpa using fun hsame => hother (hsame.trans hkey)
        rw [List.lookup_cons, hne]
    · have hkept : erase key ((k, v) :: rest) = (k, v) :: erase key rest :=
        List.filter_cons_of_pos (by simpa using hkey)
      rw [hkept, List.lookup_cons, List.lookup_cons, ih]
      split_ifs with hother
      · have hne : (other == k) = false := by simpa [hother] using Ne.symm hkey
        rw [hne]
      · rfl

theorem length_erase {entries : List (String × β)} (hnodup : (keys entries).Nodup)
    (hmem : key ∈ keys entries) : (erase key entries).length + 1 = entries.length := by
  induction entries with
  | nil => exact absurd hmem List.not_mem_nil
  | cons entry rest ih =>
    obtain ⟨k, v⟩ := entry
    obtain ⟨hnot, hrest⟩ := List.nodup_cons.mp hnodup
    by_cases hsame : k = key
    · subst hsame
      have hgone : erase k ((k, v) :: rest) = erase k rest := List.filter_cons_of_neg (by simp)
      rw [hgone, (erase_eq_self_iff k rest).mpr hnot, List.length_cons]
    · have hkept : erase key ((k, v) :: rest) = (k, v) :: erase key rest :=
        List.filter_cons_of_pos (decide_eq_true hsame)
      rw [hkept, List.length_cons, List.length_cons,
        ih hrest ((List.mem_cons.mp hmem).resolve_left (Ne.symm hsame))]

end Properties

/-! ## Objects in a table and in lists -/

structure Indexed (γ : Type u) (ρ : Type v) where
  entries : List (String × ρ) := []
  buckets : γ → List ρ := fun _ => []

namespace Indexed

variable {γ : Type u} {ρ : Type v}

/-- The objects of the table. -/
def refs (t : Indexed γ ρ) : List ρ := t.entries.map Prod.snd

def find (t : Indexed γ ρ) (k : String) : Option ρ := t.entries.lookup k

section

variable [DecidableEq γ]

/-- Put an object under a key, and at the end of the list of its class. -/
def insert (t : Indexed γ ρ) (k : String) (c : γ) (r : ρ) : Indexed γ ρ where
  entries := Properties.set k r t.entries
  buckets := Function.update t.buckets c (t.buckets c ++ [r])

/-- Delete a key, and the first object with this key in the list of a class. -/
def remove (key : ρ → String) (t : Indexed γ ρ) (k : String) (c : γ) : Indexed γ ρ where
  entries := Properties.erase k t.entries
  buckets := Function.update t.buckets c ((t.buckets c).eraseP fun r => key r = k)

end

/-- The table and the lists hold the same objects, each of them once. -/
structure Consistent (key : ρ → String) (cls : ρ → γ) (t : Indexed γ ρ) : Prop where
  nodup_keys : (Properties.keys t.entries).Nodup
  key_eq : ∀ k r, (k, r) ∈ t.entries → key r = k
  nodup_bucket : ∀ c, (t.buckets c).Nodup
  mem_bucket : ∀ c r, r ∈ t.buckets c ↔ r ∈ t.refs ∧ cls r = c

theorem Consistent.empty (key : ρ → String) (cls : ρ → γ) :
    Consistent key cls ({} : Indexed γ ρ) where
  nodup_keys := List.nodup_nil
  key_eq _ _ h := absurd h List.not_mem_nil
  nodup_bucket _ := List.nodup_nil
  mem_bucket _ _ := ⟨fun h => absurd h List.not_mem_nil, fun h => absurd h.1 List.not_mem_nil⟩

variable {key : ρ → String} {cls : ρ → γ} {t : Indexed γ ρ} {r : ρ}

theorem Consistent.congr (h : Consistent key cls t) {key' : ρ → String} {cls' : ρ → γ}
    (hkey : ∀ r ∈ t.refs, key' r = key r) (hcls : ∀ r ∈ t.refs, cls' r = cls r) :
    Consistent key' cls' t where
  nodup_keys := h.nodup_keys
  key_eq k r hmem := (hkey r (List.mem_map_of_mem hmem)).trans (h.key_eq k r hmem)
  nodup_bucket := h.nodup_bucket
  mem_bucket c r := by
    rw [h.mem_bucket c r]
    apply Iff.intro
    · rintro ⟨hheld, hclass⟩
      exact ⟨hheld, (hcls r hheld).trans hclass⟩
    · rintro ⟨hheld, hclass⟩
      exact ⟨hheld, (hcls r hheld).symm.trans hclass⟩

/-! ## Objects under their keys -/

theorem Consistent.find_eq_some_iff (h : Consistent key cls t) {k : String} :
    t.find k = some r ↔ r ∈ t.refs ∧ key r = k := by
  rw [find]
  apply Iff.intro
  · intro hfind
    obtain ⟨before, after, hentries, -⟩ := List.lookup_eq_some_iff.mp hfind
    have hmem : (k, r) ∈ t.entries := by
      rw [hentries]
      exact List.mem_append_right _ List.mem_cons_self
    exact ⟨List.mem_map_of_mem hmem, h.key_eq k r hmem⟩
  · rintro ⟨hheld, rfl⟩
    obtain ⟨⟨k', r'⟩, hmem, rfl⟩ := List.mem_map.mp hheld
    rw [h.key_eq k' r' hmem]
    obtain ⟨before, after, hentries⟩ := List.append_of_mem hmem
    refine List.lookup_eq_some_iff.mpr ⟨before, after, hentries, fun entry hbefore => ?_⟩
    have hnodup := h.nodup_keys
    rw [hentries, Properties.keys, List.map_append, List.map_cons] at hnodup
    have hne : k' ≠ entry.1 := fun hsame =>
      List.disjoint_of_nodup_append hnodup (List.mem_map_of_mem hbefore)
        (hsame ▸ List.mem_cons_self)
    exact bne_iff_ne.mpr hne

theorem Consistent.eq_of_key (h : Consistent key cls t) {r' : ρ} (hheld : r ∈ t.refs)
    (hheld' : r' ∈ t.refs) (hsame : key r = key r') : r = r' := by
  have hr := h.find_eq_some_iff.mpr ⟨hheld, hsame⟩
  rw [h.find_eq_some_iff.mpr ⟨hheld', rfl⟩] at hr
  exact (Option.some.inj hr).symm

theorem Consistent.map_key (h : Consistent key cls t) :
    t.refs.map key = Properties.keys t.entries := by
  rw [refs, List.map_map, Properties.keys]
  exact List.map_congr_left fun entry hmem => h.key_eq entry.1 entry.2 hmem

theorem Consistent.nodup_refs (h : Consistent key cls t) : t.refs.Nodup :=
  List.Nodup.of_map key (by rw [h.map_key]; exact h.nodup_keys)

theorem Consistent.nodup_map_key (h : Consistent key cls t) {rs : List ρ} (hnodup : rs.Nodup)
    (hheld : ∀ r ∈ rs, r ∈ t.refs) : (rs.map key).Nodup :=
  hnodup.map_on fun r hr r' hr' hsame => h.eq_of_key (hheld r hr) (hheld r' hr') hsame

variable {classes : List γ}

theorem Consistent.nodup_flatMap (h : Consistent key cls t) (hclasses : classes.Nodup) :
    (classes.flatMap t.buckets).Nodup := by
  rw [List.nodup_flatMap]
  refine ⟨fun c _ => h.nodup_bucket c, hclasses.imp fun hne r hr hr' => hne ?_⟩
  exact ((h.mem_bucket _ r).mp hr).2.symm.trans ((h.mem_bucket _ r).mp hr').2

theorem Consistent.mem_of_flatMap (h : Consistent key cls t) (hr : r ∈ classes.flatMap t.buckets) :
    r ∈ t.refs := by
  obtain ⟨c, -, hr⟩ := List.mem_flatMap.mp hr
  exact ((h.mem_bucket c r).mp hr).1

/-! ## Insertion and removal -/

section

variable [DecidableEq γ] {r : ρ}

theorem entries_insert {k : String} (hfresh : k ∉ Properties.keys t.entries) (c : γ) (r : ρ) :
    (t.insert k c r).entries = t.entries ++ [(k, r)] := Properties.set_of_not_mem hfresh r

theorem refs_insert {k : String} (hfresh : k ∉ Properties.keys t.entries) (c : γ) (r : ρ) :
    (t.insert k c r).refs = t.refs ++ [r] := by
  rw [refs, entries_insert hfresh, List.map_append]
  rfl

theorem buckets_insert_self (k : String) (c : γ) (r : ρ) :
    (t.insert k c r).buckets c = t.buckets c ++ [r] := Function.update_self _ _ _

theorem buckets_insert_of_ne {c c' : γ} (hne : c' ≠ c) (k : String) (r : ρ) :
    (t.insert k c r).buckets c' = t.buckets c' := Function.update_of_ne hne _ _

theorem Consistent.insert (h : Consistent key cls t) (hnew : r ∉ t.refs)
    (hfresh : key r ∉ Properties.keys t.entries) :
    Consistent key cls (t.insert (key r) (cls r) r) where
  nodup_keys := Properties.nodup_keys_set h.nodup_keys hfresh r
  key_eq k r' hmem := by
    rw [entries_insert hfresh, List.mem_append, List.mem_singleton] at hmem
    rcases hmem with hmem | hmem
    · exact h.key_eq k r' hmem
    · cases hmem
      rfl
  nodup_bucket c := by
    by_cases hc : c = cls r
    · subst hc
      rw [buckets_insert_self]
      refine (h.nodup_bucket _).append (List.nodup_singleton _) ?_
      simpa using fun hmem => hnew ((h.mem_bucket _ r).mp hmem).1
    · rw [buckets_insert_of_ne hc]
      exact h.nodup_bucket c
  mem_bucket c r' := by
    rw [refs_insert hfresh, List.mem_append, List.mem_singleton, or_and_right, ← h.mem_bucket c r']
    by_cases hc : c = cls r
    · subst hc
      rw [buckets_insert_self, List.mem_append, List.mem_singleton]
      exact or_congr_right ⟨fun hr => ⟨hr, hr ▸ rfl⟩, And.left⟩
    · rw [buckets_insert_of_ne hc]
      refine ⟨Or.inl, fun hr => hr.elim id fun hr => ?_⟩
      exact absurd (hr.1 ▸ hr.2).symm hc

theorem buckets_remove_self (k : String) (c : γ) :
    (remove key t k c).buckets c = (t.buckets c).eraseP fun r => key r = k :=
  Function.update_self _ _ _

theorem buckets_remove_of_ne {c c' : γ} (hne : c' ≠ c) (k : String) :
    (remove key t k c).buckets c' = t.buckets c' := Function.update_of_ne hne _ _

theorem Consistent.mem_refs_remove (h : Consistent key cls t) (hheld : r ∈ t.refs) (c : γ)
    (r' : ρ) : r' ∈ (remove key t (key r) c).refs ↔ r' ∈ t.refs ∧ r' ≠ r := by
  rw [remove, refs, Properties.erase, List.mem_map]
  apply Iff.intro
  · rintro ⟨⟨k, r''⟩, hmem, rfl⟩
    obtain ⟨hentry, hne⟩ := List.mem_filter.mp hmem
    refine ⟨List.mem_map_of_mem hentry, fun hsame => of_decide_eq_true hne ?_⟩
    exact (h.key_eq k r'' hentry).symm.trans (congrArg key hsame)
  · rintro ⟨hheld', hne⟩
    obtain ⟨⟨k, r''⟩, hentry, rfl⟩ := List.mem_map.mp hheld'
    refine ⟨⟨k, r''⟩, List.mem_filter.mpr ⟨hentry, decide_eq_true fun hsame => hne ?_⟩, rfl⟩
    exact h.eq_of_key hheld' hheld ((h.key_eq k r'' hentry).trans hsame)

theorem Consistent.length_remove (h : Consistent key cls t) (hheld : r ∈ t.refs) (c : γ) :
    (remove key t (key r) c).entries.length + 1 = t.entries.length := by
  have hkey : key r ∈ Properties.keys t.entries := by
    rw [← h.map_key]
    exact List.mem_map_of_mem hheld
  exact Properties.length_erase h.nodup_keys hkey

theorem mem_eraseP_iff {p : ρ → Bool} {l : List ρ} (hnodup : l.Nodup) (hmem : r ∈ l)
    (hp : p r = true) (hunique : ∀ r' ∈ l, p r' = true → r' = r) (r' : ρ) :
    r' ∈ l.eraseP p ↔ r' ∈ l ∧ r' ≠ r := by
  obtain ⟨a, before, after, -, hfirst, hlist, herased⟩ := List.exists_of_eraseP hmem hp
  have ha : a ∈ l := by
    rw [hlist]
    exact List.mem_append_right _ List.mem_cons_self
  obtain rfl := hunique a ha hfirst
  rw [hlist, List.nodup_middle, List.nodup_cons] at hnodup
  rw [herased, hlist, List.mem_append, List.mem_append, List.mem_cons]
  apply Iff.intro
  · intro hr'
    refine ⟨hr'.imp_right Or.inr, ?_⟩
    rintro rfl
    exact hnodup.1 (List.mem_append.mpr hr')
  · rintro ⟨hr', hne⟩
    exact hr'.imp_right fun h => h.resolve_left hne

theorem Consistent.remove (h : Consistent key cls t) (hheld : r ∈ t.refs) :
    Consistent key cls (remove key t (key r) (cls r)) where
  nodup_keys := Properties.nodup_keys_erase h.nodup_keys _
  key_eq k r' hmem := h.key_eq k r' (List.mem_filter.mp hmem).1
  nodup_bucket c := by
    by_cases hc : c = cls r
    · subst hc
      rw [buckets_remove_self]
      exact (h.nodup_bucket _).eraseP _
    · rw [buckets_remove_of_ne hc]
      exact h.nodup_bucket c
  mem_bucket c r' := by
    rw [h.mem_refs_remove hheld, and_right_comm, ← h.mem_bucket c r']
    by_cases hc : c = cls r
    · subst hc
      rw [buckets_remove_self]
      refine mem_eraseP_iff (h.nodup_bucket _) ((h.mem_bucket _ r).mpr ⟨hheld, rfl⟩)
        (decide_eq_true rfl) (fun r'' hr'' hsame => ?_) r'
      exact h.eq_of_key ((h.mem_bucket _ r'').mp hr'').1 hheld (of_decide_eq_true hsame)
    · rw [buckets_remove_of_ne hc]
      refine ⟨fun hr => ⟨hr, fun hsame => hc ?_⟩, And.left⟩
      exact ((hsame ▸ (h.mem_bucket c r').mp hr).2).symm

end

end Indexed

/-! ## Objects that change -/

section

variable {α : Type u} {ρ : Type v} [DecidableEq ρ] (test : α → Bool) (change : α → α)

/-- Change the objects of a list that pass a test, one after the other. -/
def changeMatching : List ρ → (ρ → α) → (ρ → α) × List ρ
  | [], objects => (objects, [])
  | r :: rest, objects =>
    if test (objects r) then
      let changed := changeMatching rest (Function.update objects r (change (objects r)))
      (changed.1, r :: changed.2)
    else changeMatching rest objects

variable {test change}

theorem changeMatching_snd {rs : List ρ} (hnodup : rs.Nodup) (objects : ρ → α) :
    (changeMatching test change rs objects).2 = rs.filter fun r => test (objects r) := by
  induction rs generalizing objects with
  | nil => rfl
  | cons r _ ih =>
    obtain ⟨hnot, hrest⟩ := List.nodup_cons.mp hnodup
    rw [changeMatching, List.filter_cons]
    split_ifs with htest
    · dsimp only
      rw [ih hrest]
      refine congrArg (r :: ·) (List.filter_congr fun r' hr' => ?_)
      have hne : r' ≠ r := fun hsame => hnot (hsame ▸ hr')
      rw [Function.update_of_ne hne]
    · exact ih hrest objects

theorem changeMatching_fst {rs : List ρ} (hnodup : rs.Nodup) (objects : ρ → α) (r' : ρ) :
    (changeMatching test change rs objects).1 r' =
      if r' ∈ rs ∧ test (objects r') = true then change (objects r') else objects r' := by
  induction rs generalizing objects with
  | nil => exact (if_neg fun h => List.not_mem_nil (And.left h)).symm
  | cons r _ ih =>
    obtain ⟨hnot, hrest⟩ := List.nodup_cons.mp hnodup
    rw [changeMatching]
    by_cases hsame : r' = r
    · subst hsame
      split_ifs with htest hboth hboth
      · rw [ih hrest, if_neg fun h => hnot h.1, Function.update_self]
      · exact absurd ⟨List.mem_cons_self, htest⟩ hboth
      · exact absurd hboth.2 htest
      · rw [ih hrest, if_neg fun h => hnot h.1]
    · simp only [List.mem_cons, or_iff_right hsame]
      split_ifs with htest hboth hboth
      · rw [ih hrest, Function.update_of_ne hsame, if_pos hboth]
      · rw [ih hrest, Function.update_of_ne hsame, if_neg hboth]
      · rw [ih hrest, if_pos hboth]
      · rw [ih hrest, if_neg hboth]

end

end Fluxora.Lib
