/-
# Sliding windows

Events are counted in intervals of a length that are closed on the left and open on the right.

A sliding log keeps the times of the last events: those that have left the window are dropped from
its front when it is used.
-/

import Mathlib.Algebra.Order.Floor.Div
import Mathlib.Data.List.DropRight

namespace Fluxora.Lib.SlidingWindow

/-- The events in an interval of a length. -/
def within (start : ℤ) (length : ℕ) (times : List ℤ) : ℕ :=
  times.countP fun t => start ≤ t ∧ t < start + length

/-- The events that have not left the window. -/
def live (window : ℕ) (now : ℤ) (times : List ℤ) : List ℤ :=
  times.filter fun t => now - window < t

/-- Drop the events that have left the window from the front. -/
def prune (window : ℕ) (now : ℤ) (times : List ℤ) : List ℤ :=
  times.dropWhile fun t => t ≤ now - window

/-! ## Counting -/

variable (start : ℤ)

theorem within_append (length : ℕ) (first second : List ℤ) :
    within start length (first ++ second) =
      within start length first + within start length second :=
  List.countP_append

theorem within_zero (times : List ℤ) : within start 0 times = 0 := by
  rw [within, List.countP_eq_zero]
  intro t _ hin
  rw [decide_eq_true_eq] at hin
  omega

theorem within_add (first second : ℕ) (times : List ℤ) :
    within start (first + second) times =
      within start first times + within (start + first) second times := by
  induction times with
  | nil => rfl
  | cons _ _ ih =>
    simp only [within, List.countP_cons, decide_eq_true_eq] at ih ⊢
    rw [ih]
    push_cast
    split_ifs <;> omega

theorem within_mono {first second : ℕ} (hle : first ≤ second) (times : List ℤ) :
    within start first times ≤ within start second times := by
  obtain ⟨rest, rfl⟩ := Nat.exists_eq_add_of_le hle
  rw [within_add]
  exact Nat.le_add_right _ _

variable {bound : ℕ} {log : List ℤ} {window : ℕ} {times : List ℤ}

theorem within_mul_le (hbound : ∀ start, within start window times ≤ bound) (start : ℤ)
    (count : ℕ) :
    within start (count * window) times ≤ count * bound := by
  induction count with
  | zero =>
    rw [Nat.zero_mul, within_zero]
    exact Nat.zero_le _
  | succ _ ih =>
    rw [Nat.succ_mul, Nat.succ_mul, within_add]
    exact Nat.add_le_add ih (hbound _)

theorem within_le_mul_ceilDiv (hpos : 0 < window)
    (hbound : ∀ start, within start window times ≤ bound) (start : ℤ) (length : ℕ) :
    within start length times ≤ bound * (length ⌈/⌉ window) := by
  have hcover : length ≤ (length ⌈/⌉ window) * window := by
    have := (ceilDiv_le_iff_le_smul hpos).mp (le_refl (length ⌈/⌉ window))
    rwa [smul_eq_mul, Nat.mul_comm] at this
  calc
    within start length times ≤ within start ((length ⌈/⌉ window) * window) times :=
      within_mono start hcover times
    _ ≤ (length ⌈/⌉ window) * bound := within_mul_le hbound start _
    _ = bound * (length ⌈/⌉ window) := Nat.mul_comm _ _

theorem within_concat_le {t : ℤ} (hbound : ∀ start, within start window times ≤ bound)
    (hlive : (live window t (times ++ [t])).length ≤ bound) (start : ℤ) :
    within start window (times ++ [t]) ≤ bound := by
  by_cases hin : start ≤ t ∧ t < start + window
  · refine Nat.le_trans ?_ hlive
    rw [within, live, ← List.countP_eq_length_filter]
    apply List.countP_mono_left
    intro u _ hu
    rw [decide_eq_true_eq] at hu ⊢
    omega
  · rw [within_append]
    have hnone : within start window [t] = 0 := by
      rw [within, List.countP_cons_of_neg (by simpa using hin), List.countP_nil]
    rw [hnone]
    exact hbound start

/-! ## Sliding logs -/

theorem live_append (window : ℕ) (now : ℤ) (first second : List ℤ) :
    live window now (first ++ second) = live window now first ++ live window now second :=
  List.filter_append ..

theorem live_singleton (hpos : 0 < window) (now : ℤ) : live window now [now] = [now] := by
  rw [live, List.filter_cons_of_pos (by simpa using hpos), List.filter_nil]

variable {now : ℤ}

theorem live_sublist_live (window : ℕ) {later : ℤ} (hle : now ≤ later) (times : List ℤ) :
    (live window later times).Sublist (live window now times) := by
  apply List.monotone_filter_right
  intro t ht
  rw [decide_eq_true_eq] at ht ⊢
  omega

theorem live_live {later : ℤ} (hle : now ≤ later) (times : List ℤ) :
    live window later (live window now times) = live window later times := by
  rw [live, live, live, List.filter_filter]
  apply List.filter_congr
  intro t _
  rw [Bool.eq_iff_iff, Bool.and_eq_true, decide_eq_true_eq, decide_eq_true_eq]
  omega

theorem prune_eq_live (hsorted : log.Pairwise (· ≤ ·)) :
    prune window now log = live window now log := by
  induction log with
  | nil => rfl
  | cons t _ ih =>
    obtain ⟨hfirst, hrest⟩ := List.pairwise_cons.mp hsorted
    rw [prune, live]
    by_cases hold : t ≤ now - window
    · rw [List.dropWhile_cons_of_pos (by simpa using hold),
        List.filter_cons_of_neg (by simpa using hold)]
      exact ih hrest
    · rw [List.dropWhile_cons_of_neg (by simpa using hold), eq_comm, List.filter_eq_self]
      intro u hu
      rw [decide_eq_true_eq]
      rcases List.mem_cons.mp hu with rfl | hmem
      · omega
      · have := hfirst u hmem
        omega

theorem sublist_prune {kept : List ℤ} (hlive : ∀ t ∈ kept, now - window < t)
    (hkept : kept.Sublist log) : kept.Sublist (prune window now log) := by
  induction hkept with
  | slnil => exact List.Sublist.refl _
  | @cons _ _ t hrest ih =>
    rw [prune]
    by_cases hold : t ≤ now - window
    · rw [List.dropWhile_cons_of_pos (by simpa using hold)]
      exact ih hlive
    · rw [List.dropWhile_cons_of_neg (by simpa using hold)]
      exact hrest.cons t
  | @cons_cons _ _ t hrest =>
    have hnew : ¬ t ≤ now - window := by
      have := hlive t List.mem_cons_self
      omega
    rw [prune, List.dropWhile_cons_of_neg (by simpa using hnew)]
    exact hrest.cons_cons t

theorem live_sublist_prune {longer : ℕ} (hle : window ≤ longer)
    (hkept : (live window now times).Sublist log) :
    (live window now times).Sublist (prune longer now log) := by
  apply sublist_prune ?_ hkept
  intro t ht
  have hlive := (List.mem_filter.mp ht).2
  rw [decide_eq_true_eq] at hlive
  omega

@[simp]
theorem prune_prune (window : ℕ) (now : ℤ) (log : List ℤ) :
    prune window now (prune window now log) = prune window now log :=
  List.dropWhile_idempotent _ _

theorem prune_append_now (hpos : 0 < window) (now : ℤ) (log : List ℤ) :
    prune window now (log ++ [now]) = prune window now log ++ [now] := by
  have hstays : prune window now [now] = [now] := by
    rw [prune, List.dropWhile_cons_of_neg]
    rw [decide_eq_true_eq]
    omega
  rw [prune, List.dropWhile_append]
  split_ifs with hempty
  · rw [List.isEmpty_iff] at hempty
    rw [prune, hempty, List.nil_append]
    exact hstays
  · rfl

theorem prune_eq_nil (hold : ∀ t ∈ log, t ≤ now - window) : prune window now log = [] := by
  rw [prune, List.dropWhile_eq_nil_iff]
  intro t ht
  simpa using hold t ht

end Fluxora.Lib.SlidingWindow
