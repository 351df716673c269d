/-
# Computations that may fail

What a computation in `Except` that has succeeded says about its parts, so that a chain of checks
can be taken apart one check at a time.

A chain of links hands a value on from link to link, each of which may change it or end the chain.
-/

import Mathlib.Data.List.Basic

namespace Fluxora.Lib.Fallible

universe u v

variable {ε : Type u} {α β : Type v} {a c : α} {f : α → Except ε β}

theorem bind_eq_ok {x : Except ε α} {b : β} : (x >>= f) = .ok b ↔ ∃ a, x = .ok a ∧ f a = .ok b := by
  cases x with
  | error | ok => simp [bind, Except.bind]

/-- `if (condition) throw error` -/
def refuseIf (condition : Prop) [Decidable condition] (error : ε) : Except ε PUnit :=
  if condition then .error error else .ok ⟨⟩

theorem forM_eq_ok {check : α → Except ε PUnit} {items : List α} {u : PUnit} :
    items.forM check = .ok u ↔ ∀ item ∈ items, check item = .ok ⟨⟩ := by
  induction items with
  | nil => simp [pure, Except.pure]
  | cons item rest ih =>
    have hcons : (item :: rest).forM check = (check item >>= fun _ => rest.forM check) := rfl
    rw [hcons, bind_eq_ok, List.forall_mem_cons, ← ih]
    apply Iff.intro
    · rintro ⟨⟨⟩, hitem, hrest⟩
      exact ⟨hitem, hrest⟩
    · rintro ⟨hitem, hrest⟩
      exact ⟨⟨⟩, hitem, hrest⟩

theorem exists_of_mem_mapM {items : List α} {results : List β} (hmap : items.mapM f = .ok results)
    {b : β} (hb : b ∈ results) : ∃ a ∈ items, f a = .ok b := by
  induction items generalizing results with
  | nil =>
    rw [List.mapM_nil] at hmap
    cases hmap
    cases hb
  | cons item _ ih =>
    rw [List.mapM_cons, bind_eq_ok] at hmap
    obtain ⟨first, hfirst, hmap⟩ := hmap
    obtain ⟨others, hothers, hresults⟩ := bind_eq_ok.mp hmap
    cases hresults
    rcases List.mem_cons.mp hb with heq | hlater
    · rw [heq]
      exact ⟨item, List.mem_cons_self, hfirst⟩
    · obtain ⟨a, ha, hok⟩ := ih hothers hlater
      exact ⟨a, List.mem_cons_of_mem _ ha, hok⟩

/-! ## Chains -/

/-- Hand a value through the links, until one of them refuses it. -/
def through (links : List (α → Except ε α)) (a : α) : Except ε α :=
  links.foldlM (fun a link => link a) a

theorem through_cons (link : α → Except ε α) (rest : List (α → Except ε α)) (a : α) :
    through (link :: rest) a = link a >>= through rest := List.foldlM_cons ..

theorem through_cons_eq_ok {link : α → Except ε α} {rest : List (α → Except ε α)} :
    through (link :: rest) a = .ok c ↔ ∃ b, link a = .ok b ∧ through rest b = .ok c := by
  rw [through_cons, bind_eq_ok]

variable {links : List (α → Except ε α)}

theorem through_concat_eq_ok {last : α → Except ε α} :
    through (links ++ [last]) a = .ok c ↔ ∃ b, through links a = .ok b ∧ last b = .ok c := by
  rw [through, List.foldlM_append, bind_eq_ok]
  simp [through]

theorem through_invariant {P : α → Prop} (hkeep : ∀ link ∈ links, ∀ a b, P a → link a = .ok b → P b)
    (ha : P a) (hthrough : through links a = .ok c) : P c := by
  induction links generalizing a with
  | nil =>
    cases hthrough
    exact ha
  | cons link _ ih =>
    obtain ⟨b, hlink, hrest⟩ := through_cons_eq_ok.mp hthrough
    have hb : P b := hkeep link List.mem_cons_self a b ha hlink
    exact ih (fun l hl => hkeep l (List.mem_cons_of_mem _ hl)) hb hrest

end Fluxora.Lib.Fallible
