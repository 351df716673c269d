/-
# A list seen at one place

A list that is cut at one of its elements into what is before it and what is after it. A
change of the element, or its removal, leaves the other two parts alone.
-/

import Mathlib.Data.List.Basic

namespace Fluxora.Lib.Split

universe u

variable {α : Type u} {l before after : List α} {a b : α} {i : ℕ} {parts : List (List α)}

theorem exists_split (h : l[i]? = some a) :
    ∃ before after, l = before ++ a :: after ∧ before.length = i := by
  obtain ⟨hi, rfl⟩ := List.getElem?_eq_some_iff.mp h
  refine ⟨l.take i, l.drop (i + 1), ?_, List.length_take_of_le (Nat.le_of_lt hi)⟩
  rw [← List.drop_eq_getElem_cons hi, List.take_append_drop]

theorem getElem?_split (hl : l = before ++ a :: after) : l[before.length]? = some a := by
  rw [hl, List.getElem?_append_right (Nat.le_refl _), Nat.sub_self]
  rfl

theorem modify_split (change : α → α) :
    (before ++ a :: after).modify before.length change = before ++ change a :: after := by
  induction before with
  | nil => rfl
  | cons first _ ih => exact congrArg (first :: ·) ih

variable {change : α → α}

theorem mem_modify (h : l[i]? = some a) (hb : b ∈ l.modify i change) : b = change a ∨ b ∈ l := by
  obtain ⟨before, after, rfl, rfl⟩ := exists_split h
  rw [modify_split] at hb
  rcases List.mem_append.mp hb with hbefore | hafter
  · exact Or.inr (List.mem_append_left _ hbefore)
  · rcases List.mem_cons.mp hafter with hchanged | hafter
    · exact Or.inl hchanged
    · exact Or.inr (List.mem_append_right _ (List.mem_cons_of_mem _ hafter))

theorem mem_modify_self (h : l[i]? = some a) : change a ∈ l.modify i change := by
  obtain ⟨before, after, rfl, rfl⟩ := exists_split h
  rw [modify_split]
  exact List.mem_append_cons_self

theorem eraseIdx_split : (before ++ a :: after).eraseIdx before.length = before ++ after := by
  rw [List.eraseIdx_append_of_length_le (Nat.le_refl _), Nat.sub_self, List.eraseIdx_zero,
    List.tail_cons]

theorem mem_split (hb : b ∈ before ++ after) : b ∈ before ++ a :: after := by
  rcases List.mem_append.mp hb with hbefore | hafter
  · exact List.mem_append_left _ hbefore
  · exact List.mem_append_right _ (List.mem_cons_of_mem _ hafter)

theorem mem_eraseIdx_of_ne (h : l[i]? = some a) (hb : b ∈ l) (hne : b ≠ a) : b ∈ l.eraseIdx i := by
  obtain ⟨before, after, rfl, rfl⟩ := exists_split h
  rw [eraseIdx_split]
  rcases List.mem_append.mp hb with hbefore | hafter
  · exact List.mem_append_left _ hbefore
  · exact List.mem_append_right _ ((List.mem_cons.mp hafter).resolve_left hne)

variable {P : α → Prop}

theorem exists_split_iff :
    (∃ b ∈ before ++ a :: after, P b) ↔ P a ∨ ∃ b ∈ before ++ after, P b := by
  apply Iff.intro
  · rintro ⟨b, hb, hP⟩
    rcases List.mem_append.mp hb with hbefore | hafter
    · exact Or.inr ⟨b, List.mem_append_left _ hbefore, hP⟩
    · rcases List.mem_cons.mp hafter with rfl | hafter
      · exact Or.inl hP
      · exact Or.inr ⟨b, List.mem_append_right _ hafter, hP⟩
  · rintro (hP | ⟨b, hb, hP⟩)
    · exact ⟨a, List.mem_append_cons_self, hP⟩
    · exact ⟨b, mem_split hb, hP⟩

theorem forall_split (h : ∀ c ∈ before ++ a :: after, P c) (hb : P b) :
    ∀ c ∈ before ++ b :: after, P c := by
  intro c hc
  rcases List.mem_append.mp hc with hbefore | hafter
  · exact h c (List.mem_append_left _ hbefore)
  · rcases List.mem_cons.mp hafter with rfl | hafter
    · exact hb
    · exact h c (List.mem_append_right _ (List.mem_cons_of_mem _ hafter))

theorem split_first_inj {before' after' : List α} (hbefore : a ∉ before) (hbefore' : a ∉ before')
    (h : before ++ a :: after = before' ++ a :: after') : before = before' ∧ after = after' := by
  induction before generalizing before' with
  | nil =>
    cases before' with
    | nil => exact ⟨rfl, List.tail_eq_of_cons_eq h⟩
    | cons b =>
      have hhead : a = b := List.head_eq_of_cons_eq h
      exact absurd (hhead ▸ List.mem_cons_self) hbefore'
  | cons b _ ih =>
    cases before' with
    | nil =>
      have hhead : b = a := List.head_eq_of_cons_eq h
      exact absurd (hhead ▸ List.mem_cons_self) hbefore
    | cons =>
      obtain ⟨rfl, htail⟩ := List.cons.inj h
      obtain ⟨rfl, hafter⟩ := ih (fun hmem => hbefore (List.mem_cons_of_mem _ hmem))
        (fun hmem => hbefore' (List.mem_cons_of_mem _ hmem)) htail
      exact ⟨rfl, hafter⟩

section

universe v

variable {β : Type v}

theorem flatMap_inj {f : α → List β} (hne : ∀ c, P c → f c ≠ [])
    (hcut : ∀ c d rest rest', P c → P d → f c ++ rest = f d ++ rest' → c = d)
    {items items' : List α} (hP : ∀ c ∈ items, P c) (hP' : ∀ c ∈ items', P c)
    (h : items.flatMap f = items'.flatMap f) : items = items' := by
  induction items generalizing items' with
  | nil =>
    cases items' with
    | nil => rfl
    | cons d =>
      have hnil : f d = [] := (List.append_eq_nil_iff.mp h.symm).1
      exact absurd hnil (hne d (hP' d List.mem_cons_self))
  | cons c _ ih =>
    cases items' with
    | nil =>
      have hnil : f c = [] := (List.append_eq_nil_iff.mp h).1
      exact absurd hnil (hne c (hP c List.mem_cons_self))
    | cons d =>
      rw [List.flatMap_cons, List.flatMap_cons] at h
      obtain rfl := hcut c d _ _ (hP c List.mem_cons_self) (hP' d List.mem_cons_self) h
      rw [ih (fun e he => hP e (List.mem_cons_of_mem _ he))
        (fun e he => hP' e (List.mem_cons_of_mem _ he)) (List.append_cancel_left h)]

end

theorem intercalate_append_sep (hne : parts ≠ []) :
    [a].intercalate parts ++ [a] = parts.flatMap (· ++ [a]) := by
  induction parts with
  | nil => exact absurd rfl hne
  | cons _ rest ih =>
    cases rest with
    | nil => simp
    | cons =>
      rw [List.flatMap_cons, ← ih (List.cons_ne_nil _ _), List.intercalate_cons_cons]
      simp only [List.append_assoc]

theorem mem_intercalate {part : List α} (hpart : part ∈ parts)
    (hb : b ∈ part) : b ∈ [a].intercalate parts := by
  induction parts with
  | nil => exact absurd hpart List.not_mem_nil
  | cons _ rest ih =>
    cases rest with
    | nil =>
      rw [List.intercalate_singleton, ← List.mem_singleton.mp hpart]
      exact hb
    | cons =>
      rw [List.intercalate_cons_cons]
      rcases List.mem_cons.mp hpart with rfl | hlater
      · exact List.mem_append_left _ (List.mem_append_left _ hb)
      · exact List.mem_append_right _ (ih hlater)

theorem mem_of_mem_intercalate {separator : List α}
    (h : b ∈ separator.intercalate parts) : b ∈ separator ∨ ∃ part ∈ parts, b ∈ part := by
  induction parts with
  | nil => exact absurd h List.not_mem_nil
  | cons first rest ih =>
    cases rest with
    | nil =>
      rw [List.intercalate_singleton] at h
      exact Or.inr ⟨first, List.mem_cons_self, h⟩
    | cons =>
      rw [List.intercalate_cons_cons] at h
      rcases List.mem_append.mp h with hfirst | hlater
      · rcases List.mem_append.mp hfirst with hpart | hsep
        · exact Or.inr ⟨first, List.mem_cons_self, hpart⟩
        · exact Or.inl hsep
      · exact (ih hlater).imp_right fun ⟨part, hpart, hb⟩ =>
          ⟨part, List.mem_cons_of_mem _ hpart, hb⟩

theorem parts_inj {parts' : List (List α)} {rest rest' : List α}
    (hlength : parts.length = parts'.length) (ha : ∀ part ∈ parts, a ∉ part)
    (ha' : ∀ part ∈ parts', a ∉ part)
    (h : parts.flatMap (· ++ [a]) ++ rest = parts'.flatMap (· ++ [a]) ++ rest') :
    parts = parts' ∧ rest = rest' := by
  induction parts generalizing parts' with
  | nil =>
    cases parts' with
    | nil => exact ⟨rfl, h⟩
    | cons => cases hlength
  | cons part _ ih =>
    cases parts' with
    | nil => cases hlength
    | cons part' =>
      simp only [List.flatMap_cons, List.append_assoc, List.singleton_append] at h
      obtain ⟨rfl, hrest⟩ := split_first_inj (ha part List.mem_cons_self)
        (ha' part' List.mem_cons_self) h
      obtain ⟨rfl, hlast⟩ := ih (Nat.succ.inj hlength)
        (fun part hpart => ha part (List.mem_cons_of_mem _ hpart))
        (fun part hpart => ha' part (List.mem_cons_of_mem _ hpart)) hrest
      exact ⟨rfl, hlast⟩

end Fluxora.Lib.Split
