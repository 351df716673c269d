/-
# A map with several workers

Workers take the items of a list one after the other and put each result at the place of its item.
A worker takes the next item as soon as the one in its hand is done, so the items are done in any
order.
-/

import Fluxora.Lib.Transition
import Mathlib.Data.List.Basic
import Mathlib.Data.Nat.Basic

namespace Fluxora.Lib.ConcurrentMap

open Transition

universe u v

variable {α : Type u} {β : Type v} (work : α → β) (items : List α) (concurrency : ℕ)

/-- Where the workers stand. -/
structure Workers (β : Type v) where
  /-- The next item that is taken. -/
  nextIndex : ℕ
  /-- The results, with a hole for each item that is not done. -/
  results : List (Option β)
  /-- The item in the hand of each worker. One that has returned has none. -/
  inHand : List (Option ℕ)

/-- The workers have started, each with an item in its hand. -/
def start : Workers β where
  nextIndex := min concurrency items.length
  results := List.replicate items.length none
  inHand := (List.range (min concurrency items.length)).map some

/-- The item in the hand of a worker is done, and it takes the next one. -/
def complete (s : Workers β) (worker : ℕ) : Option (Workers β) :=
  s.inHand[worker]?.join.bind fun i =>
    items[i]?.map fun item =>
      let results := s.results.set i (some (work item))
      if s.nextIndex < items.length then
        { nextIndex := s.nextIndex + 1
          results
          inHand := s.inHand.set worker (some s.nextIndex) }
      else { s with results, inHand := s.inHand.set worker none }

/-- The results when the items are done by the workers in an order, if that brings every worker
to its end. -/
def mapWithConcurrency (order : List ℕ) : Option (List (Option β)) :=
  (run (complete work items) (start items concurrency) order).bind fun s =>
    if ∀ item ∈ s.inHand, item = none then some s.results else none

/-- Each item that was taken is in a hand or done. -/
structure Consistent (s : Workers β) : Prop where
  length_results : s.results.length = items.length
  nextIndex_le : s.nextIndex ≤ items.length
  taken : ∀ i, some i ∈ s.inHand → i < s.nextIndex
  done : ∀ i item, i < s.nextIndex → items[i]? = some item → some i ∉ s.inHand →
    s.results[i]? = some (some (work item))
  returned : none ∈ s.inHand → s.nextIndex = items.length
  hands : s.inHand.length = min concurrency items.length

variable {work items concurrency} {s : Workers β} {i : ℕ}

theorem consistent_start : Consistent work items concurrency (start items concurrency) where
  length_results := List.length_replicate
  nextIndex_le := min_le_right _ _
  taken := by
    intro i hi
    simpa [start] using hi
  done := by
    intro i item hi _ hhand
    exact absurd (List.mem_map_of_mem (List.mem_range.mpr hi)) hhand
  returned := by simp [start]
  hands := by simp [start]

variable {worker : ℕ}

theorem complete_eq_some_iff {s' : Workers β} :
    complete work items s worker = some s' ↔
      ∃ i item, s.inHand[worker]? = some (some i) ∧ items[i]? = some item ∧
        s' = if s.nextIndex < items.length then
          { nextIndex := s.nextIndex + 1
            results := s.results.set i (some (work item))
            inHand := s.inHand.set worker (some s.nextIndex) }
        else { s with
          results := s.results.set i (some (work item))
          inHand := s.inHand.set worker none } := by
  simp only [complete, Option.bind_eq_some_iff, Option.map_eq_some_iff, Option.join_eq_some_iff]
  apply Iff.intro
  · rintro ⟨i, hhand, item, hitem, rfl⟩
    exact ⟨i, item, hhand, hitem, rfl⟩
  · rintro ⟨i, item, hhand, hitem, rfl⟩
    exact ⟨i, hhand, item, hitem, rfl⟩

theorem mem_of_mem_set {hands : List (Option ℕ)} {next : Option ℕ}
    (h : some i ∈ hands.set worker next) : some i = next ∨ some i ∈ hands :=
  (List.mem_or_eq_of_mem_set h).symm

theorem mem_set_of_ne {hands : List (Option ℕ)} {j : ℕ} {next : Option ℕ}
    (hworker : hands[worker]? = some (some i)) (hne : j ≠ i) (hj : some j ∈ hands) :
    some j ∈ hands.set worker next := by
  obtain ⟨k, hk⟩ := List.mem_iff_getElem?.mp hj
  have hother : worker ≠ k := by
    rintro rfl
    rw [hworker] at hk
    cases hk
    exact hne rfl
  rw [← List.getElem?_set_ne hother] at hk
  exact List.mem_of_getElem? hk

theorem Consistent.done_set (h : Consistent work items concurrency s) {j : ℕ} {item other : α}
    {next : Option ℕ} (hhand : s.inHand[worker]? = some (some i)) (hitem : items[i]? = some item)
    (hj : j < s.nextIndex) (hother : items[j]? = some other)
    (hnot : some j ∉ s.inHand.set worker next) :
    (s.results.set i (some (work item)))[j]? = some (some (work other)) := by
  by_cases hij : i = j
  · subst hij
    rw [hitem] at hother
    cases hother
    apply List.getElem?_set_self
    rw [h.length_results]
    exact (List.getElem?_eq_some_iff.mp hitem).1
  · rw [List.getElem?_set_ne hij]
    exact h.done j other hj hother fun hmem => hnot (mem_set_of_ne hhand (Ne.symm hij) hmem)

theorem Consistent.next {s' : Workers β} (h : Consistent work items concurrency s)
    (hstep : complete work items s worker = some s') : Consistent work items concurrency s' := by
  obtain ⟨i, item, hhand, hitem, rfl⟩ := complete_eq_some_iff.mp hstep
  by_cases hnext : s.nextIndex < items.length
  · rw [if_pos hnext]
    exact {
      length_results := List.length_set.trans h.length_results
      nextIndex_le := hnext
      taken := by
        intro j hj
        rcases mem_of_mem_set hj with heq | hmem
        · cases heq
          exact Nat.lt_succ_self _
        · exact Nat.lt_succ_of_lt (h.taken j hmem)
      done := by
        intro j other hj hother hnot
        rcases Nat.lt_succ_iff_lt_or_eq.mp hj with hlt | rfl
        · exact h.done_set hhand hitem hlt hother hnot
        · have hworker := (List.getElem?_eq_some_iff.mp hhand).1
          exact absurd (List.mem_of_getElem? (List.getElem?_set_self hworker)) hnot
      returned := by
        intro hnone
        rcases List.mem_or_eq_of_mem_set hnone with hmem | heq
        · exact absurd (h.returned hmem) (Nat.ne_of_lt hnext)
        · cases heq
      hands := List.length_set.trans h.hands }
  · rw [if_neg hnext]
    exact {
      length_results := List.length_set.trans h.length_results
      nextIndex_le := h.nextIndex_le
      taken := by
        intro j hj
        rcases mem_of_mem_set hj with heq | hmem
        · cases heq
        · exact h.taken j hmem
      done := by
        intro j other hj hother hnot
        exact h.done_set hhand hitem hj hother hnot
      returned := fun _ => le_antisymm h.nextIndex_le (Nat.le_of_not_lt hnext)
      hands := List.length_set.trans h.hands }

theorem Consistent.results_eq (h : Consistent work items concurrency s)
    (hconcurrency : 1 ≤ concurrency) (hreturned : ∀ item ∈ s.inHand, item = none) :
    s.results = items.map fun item => some (work item) := by
  have hall : s.nextIndex = items.length := by
    cases hhands : s.inHand with
    | nil =>
      have hlength := h.hands
      rw [hhands, List.length_nil] at hlength
      have hle := h.nextIndex_le
      omega
    | cons first =>
      apply h.returned
      rw [hhands, hreturned first (by rw [hhands]; exact List.mem_cons_self)]
      exact List.mem_cons_self
  apply List.ext_getElem?
  intro i
  rw [List.getElem?_map]
  cases hitem : items[i]? with
  | none =>
    rw [List.getElem?_eq_none_iff] at hitem
    rw [Option.map_none, List.getElem?_eq_none_iff, h.length_results]
    exact hitem
  | some item =>
    rw [Option.map_some]
    apply h.done i item (hall ▸ (List.getElem?_eq_some_iff.mp hitem).1) hitem
    intro hmem
    cases hreturned _ hmem

theorem mapWithConcurrency_eq (hconcurrency : 1 ≤ concurrency) {order : List ℕ}
    {results : List (Option β)}
    (h : mapWithConcurrency work items concurrency order = some results) :
    results = items.map fun item => some (work item) := by
  obtain ⟨s, hrun, hs⟩ := Option.bind_eq_some_iff.mp h
  have hconsistent : Consistent work items concurrency s :=
    invariant_of_run (fun _ _ _ h hstep => h.next hstep) consistent_start hrun
  split at hs
  next hreturned =>
    cases hs
    exact hconsistent.results_eq hconcurrency hreturned
  next => cases hs

/-- How much is left to do. -/
def remaining (items : List α) (s : Workers β) : ℕ :=
  (items.length - s.nextIndex) + s.inHand.countP Option.isSome

theorem Consistent.exists_complete (h : Consistent work items concurrency s)
    (hi : some i ∈ s.inHand) :
    ∃ worker s', complete work items s worker = some s' ∧
      remaining items s' < remaining items s := by
  obtain ⟨worker, hhand⟩ := List.mem_iff_getElem?.mp hi
  have hlt : i < items.length := Nat.lt_of_lt_of_le (h.taken i hi) h.nextIndex_le
  obtain ⟨hworker, hget⟩ := List.getElem?_eq_some_iff.mp hhand
  refine ⟨worker, _, complete_eq_some_iff.mpr
    ⟨i, items[i], hhand, List.getElem?_eq_getElem hlt, rfl⟩, ?_⟩
  have hpos : 0 < s.inHand.countP Option.isSome := List.countP_pos_iff.mpr ⟨some i, hi, rfl⟩
  by_cases hnext : s.nextIndex < items.length
  · rw [if_pos hnext, remaining, remaining, List.countP_set hworker, hget]
    simp only [Option.isSome_some, if_true]
    omega
  · rw [if_neg hnext, remaining, remaining, List.countP_set hworker, hget]
    simp only [Option.isSome_some, Option.isSome_none, if_true, Bool.false_eq_true, if_false]
    omega

theorem exists_mapWithConcurrency (work : α → β) (items : List α) (concurrency : ℕ) :
    ∃ order results, mapWithConcurrency work items concurrency order = some results := by
  have hends : ∀ n (s : Workers β), Consistent work items concurrency s →
      remaining items s = n → ∃ order s', run (complete work items) s order = some s' ∧
        ∀ item ∈ s'.inHand, item = none := by
    intro n
    induction n using Nat.strong_induction_on with
    | _ _ ih =>
      intro s hs hn
      by_cases hreturned : ∀ item ∈ s.inHand, item = none
      · exact ⟨[], s, rfl, hreturned⟩
      · push Not at hreturned
        obtain ⟨item, hitem, hsome⟩ := hreturned
        obtain ⟨i, rfl⟩ := Option.ne_none_iff_exists'.mp hsome
        obtain ⟨worker, s', hstep, hless⟩ := hs.exists_complete hitem
        obtain ⟨order, last, hrun, hlast⟩ := ih _ (hn ▸ hless) s' (hs.next hstep) rfl
        exact ⟨worker :: order, last, (run_cons hstep order).trans hrun, hlast⟩
  obtain ⟨order, s, hrun, hs⟩ := hends _ (start items concurrency) consistent_start rfl
  exact ⟨order, s.results, by rw [mapWithConcurrency, hrun, Option.bind_some, if_pos hs]⟩

end Fluxora.Lib.ConcurrentMap
