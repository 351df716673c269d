/-
# Credit that accrues at a rate

Weights are spent at instants from a credit that grows at most at a rate and never passes a cap. A
log of what was spent is covered when, from every instant on, the weight spent and the credit left
stay under the cap and what accrued since.
-/

import Mathlib.Algebra.Order.Field.Basic
import Mathlib.Tactic.Linarith
import Mathlib.Tactic.Ring

namespace Fluxora.Lib.Credit

universe u

variable {𝕜 : Type u}

/-- One spending: its instant and its weight. -/
structure Spending (𝕜 : Type u) where
  time : 𝕜
  weight : 𝕜

/-- The weight of the spendings at the instants that a test picks. -/
def spent [AddMonoid 𝕜] (picked : 𝕜 → Bool) (log : List (Spending 𝕜)) : 𝕜 :=
  ((log.filter fun s => picked s.time).map (·.weight)).sum

section Sums

variable [AddMonoid 𝕜] {picked : 𝕜 → Bool} {s : Spending 𝕜}

@[simp] theorem spent_nil : spent picked ([] : List (Spending 𝕜)) = 0 := rfl

theorem spent_cons_of_picked (hpicked : picked s.time = true) (log : List (Spending 𝕜)) :
    spent picked (s :: log) = s.weight + spent picked log := by
  simp [spent, hpicked]

theorem spent_cons_of_not_picked (hpicked : picked s.time = false) (log : List (Spending 𝕜)) :
    spent picked (s :: log) = spent picked log := by
  simp [spent, hpicked]

theorem spent_eq_zero {log : List (Spending 𝕜)} (hnone : ∀ s ∈ log, picked s.time = false) :
    spent picked log = 0 := by
  induction log with
  | nil => rfl
  | cons s _ ih =>
    rw [spent_cons_of_not_picked (hnone s List.mem_cons_self)]
    exact ih fun s' hs' => hnone s' (List.mem_cons_of_mem _ hs')

end Sums

variable [Field 𝕜] [LinearOrder 𝕜]

/-- The weight spent from an instant on. -/
def spentSince (start : 𝕜) (log : List (Spending 𝕜)) : 𝕜 :=
  spent (fun time => decide (start ≤ time)) log

/-- The weight spent in an interval, both ends included. -/
def spentWithin (start stop : 𝕜) (log : List (Spending 𝕜)) : 𝕜 :=
  spent (fun time => decide (start ≤ time ∧ time ≤ stop)) log

variable [IsStrictOrderedRing 𝕜]

theorem spent_mono {picked picked' : 𝕜 → Bool} {log : List (Spending 𝕜)}
    (hweight : ∀ s ∈ log, 0 ≤ s.weight)
    (hwider : ∀ s ∈ log, picked s.time = true → picked' s.time = true) :
    spent picked log ≤ spent picked' log := by
  induction log with
  | nil => exact le_refl _
  | cons s log ih =>
    have hrest : spent picked log ≤ spent picked' log :=
      ih (fun s' hs' => hweight s' (List.mem_cons_of_mem _ hs'))
        (fun s' hs' => hwider s' (List.mem_cons_of_mem _ hs'))
    have hpos : 0 ≤ s.weight := hweight s List.mem_cons_self
    cases hfirst : picked s.time with
    | true =>
      rw [spent_cons_of_picked hfirst,
        spent_cons_of_picked (hwider s List.mem_cons_self hfirst)]
      linarith
    | false =>
      rw [spent_cons_of_not_picked hfirst]
      cases hfirst' : picked' s.time with
      | true =>
        rw [spent_cons_of_picked hfirst']
        linarith
      | false => rwa [spent_cons_of_not_picked hfirst']

/-- What was spent up to an instant is covered by a cap, a rate and the credit left. -/
structure Covered (cap rate now credit : 𝕜) (log : List (Spending 𝕜)) : Prop where
  credit_nonneg : 0 ≤ credit
  credit_le : credit ≤ cap
  weight_nonneg : ∀ s ∈ log, 0 ≤ s.weight
  time_le : ∀ s ∈ log, s.time ≤ now
  since_le : ∀ start, start ≤ now → spentSince start log + credit ≤ cap + rate * (now - start)
  within_le : ∀ start length, 0 ≤ length →
    spentWithin start (start + length) log ≤ cap + rate * length

variable {cap rate now credit : 𝕜} {log : List (Spending 𝕜)}

theorem Covered.start (hcap : 0 ≤ cap) (hrate : 0 ≤ rate) (now : 𝕜) :
    Covered cap rate now cap [] where
  credit_nonneg := hcap
  credit_le := le_refl _
  weight_nonneg := by simp
  time_le := by simp
  since_le start hstart := by
    have haccrued : 0 ≤ rate * (now - start) := mul_nonneg hrate (by linarith)
    simp only [spentSince, spent_nil]
    linarith
  within_le start length hlength := by
    have haccrued : 0 ≤ rate * length := mul_nonneg hrate hlength
    simp only [spentWithin, spent_nil]
    linarith

theorem Covered.advance (hcovered : Covered cap rate now credit log) {now' credit' : 𝕜}
    (hrate : 0 ≤ rate) (hnow : now ≤ now') (hnonneg : 0 ≤ credit') (hcap : credit' ≤ cap)
    (haccrued : credit' ≤ credit + rate * (now' - now)) :
    Covered cap rate now' credit' log where
  credit_nonneg := hnonneg
  credit_le := hcap
  weight_nonneg := hcovered.weight_nonneg
  time_le s hs := (hcovered.time_le s hs).trans hnow
  since_le start hstart := by
    by_cases hold : start ≤ now
    · have hsince : spentSince start log + credit ≤ cap + rate * (now - start) :=
        hcovered.since_le start hold
      have hsplit : rate * (now' - start) = rate * (now' - now) + rate * (now - start) := by ring
      linarith
    · -- nothing was spent after the last instant of the log
      have hzero : spentSince start log = 0 := by
        apply spent_eq_zero
        intro s hs
        have htime : s.time ≤ now := hcovered.time_le s hs
        exact decide_eq_false fun hle => hold (hle.trans htime)
      have hpos : 0 ≤ rate * (now' - start) := mul_nonneg hrate (by linarith)
      linarith
  within_le := hcovered.within_le

theorem Covered.spend (hcovered : Covered cap rate now credit log) (hrate : 0 ≤ rate)
    {weight : 𝕜} (hweight : 0 ≤ weight) (henough : weight ≤ credit) :
    Covered cap rate now (credit - weight) (⟨now, weight⟩ :: log) := by
  have hnonneg : ∀ s ∈ (⟨now, weight⟩ :: log : List (Spending 𝕜)), 0 ≤ s.weight := by
    intro s hs
    cases List.mem_cons.mp hs with
    | inl hnew => rwa [hnew]
    | inr hold => exact hcovered.weight_nonneg s hold
  have hsince : ∀ start, start ≤ now →
      spentSince start (⟨now, weight⟩ :: log) + (credit - weight) ≤
        cap + rate * (now - start) := by
    intro start hstart
    have hbefore : spentSince start log + credit ≤ cap + rate * (now - start) :=
      hcovered.since_le start hstart
    have hafter : spentSince start (⟨now, weight⟩ :: log) = weight + spentSince start log :=
      by
      rw [spentSince, spent_cons_of_picked, spentSince]
      exact decide_eq_true hstart
    linarith
  exact {
    credit_nonneg := by linarith
    credit_le := by linarith [hcovered.credit_le]
    weight_nonneg := hnonneg
    time_le := by
      intro s hs
      cases List.mem_cons.mp hs with
      | inl hnew => rw [hnew]
      | inr hold => exact hcovered.time_le s hold
    since_le := hsince
    within_le := by
      intro start length hlength
      by_cases hin : start ≤ now ∧ now ≤ start + length
      · -- the interval ends at or after the spending, so all since its start is in it
        have hle : spentWithin start (start + length) (⟨now, weight⟩ :: log) ≤
            spentSince start (⟨now, weight⟩ :: log) :=
          spent_mono hnonneg fun s _ hpicked => decide_eq_true (of_decide_eq_true hpicked).1
        have hbound := hsince start hin.1
        have hscale : rate * (now - start) ≤ rate * length :=
          mul_le_mul_of_nonneg_left (by linarith [hin.2]) hrate
        linarith
      · have hsame : spentWithin start (start + length) (⟨now, weight⟩ :: log) =
            spentWithin start (start + length) log :=
          by
          rw [spentWithin, spent_cons_of_not_picked, spentWithin]
          exact decide_eq_false hin
        rw [hsame]
        exact hcovered.within_le start length hlength }

end Fluxora.Lib.Credit
