/-
# The loop over the batches, by legal holds alone

How often the loop goes round and what it counts depends on one thing about the candidates, oldest
first: which of them are under legal hold. A batch is the front of that list. When rows are
deleted the batch leaves its held rows behind, at the front; when they stay, because they are
redacted or because the run is dry, it leaves all of them.
-/

import Mathlib.Data.List.Count
import Mathlib.Order.Nat
import Fluxora.Lib.Loop

namespace Fluxora.Retention

open Lib.Loop

/-- The candidates that are left, `true` for a held one, and what has been counted. -/
structure FlagState where
  flags : List Bool
  purged : ℕ
  skipped : ℕ

structure FlagResult where
  purged : ℕ
  skipped : ℕ
  capReached : Bool
  deriving DecidableEq

section

variable (stays : Bool) (batchSize cap : ℕ)

def FlagState.next (s : FlagState) : FlagState where
  flags :=
    if stays then s.flags
    else (s.flags.take batchSize).filter id ++ s.flags.drop batchSize
  purged := s.purged + (s.flags.take batchSize).count false
  skipped := s.skipped + (s.flags.take batchSize).count true

def flagRound (s : FlagState) : FlagState ⊕ FlagResult :=
  if cap ≤ s.purged then .inr ⟨s.purged, s.skipped, true⟩
  else
    let next := s.next stays batchSize
    if s.flags.length < batchSize then .inr ⟨next.purged, next.skipped, false⟩ else .inl next

end

/-- The number of rows that are not held before the `n`-th held one. -/
def unheldBefore : ℕ → List Bool → ℕ
  | 0, _ => 0
  | _ + 1, [] => 0
  | n + 1, true :: rest => unheldBefore n rest
  | n + 1, false :: rest => unheldBefore (n + 1) rest + 1

theorem unheldBefore_append (front back : List Bool) {n : ℕ} (hfew : front.count true < n) :
    unheldBefore n (front ++ back) =
      unheldBefore n (front.filter id ++ back) + front.count false := by
  induction front generalizing n with
  | nil => rfl
  | cons flag _ ih =>
    obtain ⟨m, rfl⟩ : ∃ m, n = m + 1 := ⟨n - 1, by omega⟩
    cases flag with
    | true =>
      rw [List.count_cons_self] at hfew
      rw [List.cons_append, unheldBefore, ih (by omega), List.filter_cons_of_pos rfl,
        List.cons_append, unheldBefore, List.count_cons_of_ne (by decide)]
    | false =>
      rw [List.count_cons_of_ne (by decide)] at hfew
      rw [List.cons_append, unheldBefore, ih hfew, List.filter_cons_of_neg (by decide),
        List.count_cons_self, Nat.add_assoc]

theorem unheldBefore_eq_zero {flags : List Bool} {n : ℕ} (hheld : false ∉ flags.take n) :
    unheldBefore n flags = 0 := by
  induction flags generalizing n with
  | nil => cases n <;> rfl
  | cons flag _ ih =>
    cases n with
    | zero => rfl
    | succ =>
      cases flag with
      | true => exact ih fun hmem => hheld (List.mem_cons_of_mem _ hmem)
      | false => exact absurd List.mem_cons_self hheld

theorem filter_id_eq_self {flags : List Bool} (hheld : false ∉ flags) :
    flags.filter id = flags := by
  rw [List.filter_eq_self]
  intro flag hflag
  cases flag with
  | true => rfl
  | false => exact absurd hflag hheld

theorem count_true_add_count_false (flags : List Bool) :
    flags.count true + flags.count false = flags.length := by
  induction flags with
  | nil => rfl
  | cons flag =>
    cases flag with
    | true | false =>
      rw [List.count_cons_self, List.count_cons_of_ne (by decide), List.length_cons]
      omega

/-! ## Rounds -/

section

variable {stays : Bool} {batchSize cap : ℕ} {s s' : FlagState} {r : FlagResult}

theorem next_purged :
    (s.next stays batchSize).purged = s.purged + (s.flags.take batchSize).count false := rfl

theorem next_skipped :
    (s.next stays batchSize).skipped = s.skipped + (s.flags.take batchSize).count true := rfl

theorem next_flags_stays : (s.next true batchSize).flags = s.flags := rfl

theorem next_flags_deletes :
    (s.next false batchSize).flags =
      (s.flags.take batchSize).filter id ++ s.flags.drop batchSize := rfl

theorem flagRound_eq_inl (h : flagRound stays batchSize cap s = .inl s') :
    s.purged < cap ∧ batchSize ≤ s.flags.length ∧ s' = s.next stays batchSize := by
  unfold flagRound at h
  split_ifs at h with hcap hshort
  cases h
  exact ⟨not_le.mp hcap, not_lt.mp hshort, rfl⟩

theorem flagRound_full (hcap : s.purged < cap) (hfull : batchSize ≤ s.flags.length) :
    flagRound stays batchSize cap s = .inl (s.next stays batchSize) := by
  rw [flagRound, if_neg (not_le.mpr hcap), if_neg (not_lt.mpr hfull)]

theorem flagRound_short (hcap : s.purged < cap) (hshort : s.flags.length < batchSize) :
    flagRound stays batchSize cap s =
      .inr ⟨s.purged + s.flags.count false, s.skipped + s.flags.count true, false⟩ := by
  rw [flagRound, if_neg (not_le.mpr hcap), if_pos hshort, FlagState.next,
    List.take_of_length_le hshort.le]

theorem flagRound_capped (hcap : cap ≤ s.purged) :
    flagRound stays batchSize cap s = .inr ⟨s.purged, s.skipped, true⟩ := if_pos hcap

/-! ## Rows that stay -/

theorem exists_ends_stays_iff :
    (∃ r, Ends (flagRound true batchSize cap) s r) ↔
      cap ≤ s.purged ∨ s.flags.length < batchSize ∨ false ∈ s.flags.take batchSize := by
  apply Iff.intro
  · rintro ⟨r, hends⟩
    by_contra hstuck
    simp only [not_or, not_le, not_lt] at hstuck
    have hround : ∀ t : FlagState, t.purged < cap ∧ t.flags = s.flags →
        ∃ t', flagRound true batchSize cap t = .inl t' ∧ t'.purged < cap ∧ t'.flags = s.flags := by
      rintro t ⟨hcap, hflags⟩
      refine ⟨_, flagRound_full hcap (hflags ▸ hstuck.2.1), ?_, hflags⟩
      rw [next_purged, hflags, List.count_eq_zero.mpr hstuck.2.2]
      exact hcap
    exact not_ends_of_invariant hround ⟨hstuck.1, rfl⟩ r hends
  · rintro (hcap | hshort | hunheld)
    · exact ⟨_, .stop (flagRound_capped hcap)⟩
    · by_cases hcap : cap ≤ s.purged
      · exact ⟨_, .stop (flagRound_capped hcap)⟩
      · exact ⟨_, .stop (flagRound_short (not_le.mp hcap) hshort)⟩
    · -- every batch purges, so the cap is reached in the end
      have hless : ∀ t t' : FlagState, t.flags = s.flags →
          flagRound true batchSize cap t = .inl t' →
          t'.flags = s.flags ∧ cap - t'.purged < cap - t.purged := by
        intro t t' hflags hround
        obtain ⟨hcap, _, rfl⟩ := flagRound_eq_inl hround
        have hpurged : 0 < (t.flags.take batchSize).count false := by
          rw [hflags]
          exact List.count_pos_iff.mpr hunheld
        rw [next_purged, next_flags_stays]
        exact ⟨hflags, by omega⟩
      have hstart : s.flags = s.flags := rfl
      exact exists_ends_of_measure (fun t : FlagState => cap - t.purged) hless hstart

theorem length_lt_of_ends_stays (hends : Ends (flagRound true batchSize cap) s r)
    (hcapped : r.capReached = false) : s.flags.length < batchSize := by
  induction hends with
  | @stop _ _ left =>
    unfold flagRound at left
    split_ifs at left with hcap hshort
    · cases left
      cases hcapped
    · exact hshort
  | next round _ ih =>
    obtain ⟨_, _, rfl⟩ := flagRound_eq_inl round
    exact ih hcapped

theorem skipped_of_ends_stays (hends : Ends (flagRound true batchSize cap) s r)
    (hunheld : true ∉ s.flags.take batchSize) : r.skipped = s.skipped := by
  induction hends with
  | @stop s _ left =>
    unfold flagRound at left
    split_ifs at left
    · cases left
      rfl
    · cases left
      show s.skipped + (s.flags.take batchSize).count true = s.skipped
      rw [List.count_eq_zero.mpr hunheld, Nat.add_zero]
  | @next _ _ _ round _ ih =>
    obtain ⟨_, _, rfl⟩ := flagRound_eq_inl round
    rw [ih hunheld, next_skipped, List.count_eq_zero.mpr hunheld, Nat.add_zero]

/-! ## Rows that are deleted -/

theorem count_true_next : (s.next false batchSize).flags.count true = s.flags.count true := by
  have hfilter : ((s.flags.take batchSize).filter id).count true =
      (s.flags.take batchSize).count true := by
    rw [List.count_filter rfl]
  rw [next_flags_deletes, List.count_append, hfilter, ← List.count_append, List.take_append_drop]

theorem count_false_next (s : FlagState) (batchSize : ℕ) :
    (s.next false batchSize).flags.count false + (s.flags.take batchSize).count false =
      s.flags.count false := by
  have hfilter : ((s.flags.take batchSize).filter id).count false = 0 := by
    rw [List.count_eq_zero]
    intro hmem
    cases (List.mem_filter.mp hmem).2
  have hsplit : s.flags.count false =
      (s.flags.take batchSize).count false + (s.flags.drop batchSize).count false := by
    rw [← List.count_append, List.take_append_drop]
  rw [next_flags_deletes, List.count_append, hfilter]
  omega

theorem purged_add_unheldBefore_next (hfull : batchSize ≤ s.flags.length) :
    (s.next false batchSize).purged + unheldBefore batchSize (s.next false batchSize).flags =
      s.purged + unheldBefore batchSize s.flags := by
  rw [next_purged, next_flags_deletes]
  by_cases hunheld : false ∈ s.flags.take batchSize
  · have hfew : (s.flags.take batchSize).count true < batchSize := by
      have hsum := count_true_add_count_false (s.flags.take batchSize)
      rw [List.length_take_of_le hfull] at hsum
      have hpos := List.count_pos_iff.mpr hunheld
      omega
    have hsplit := unheldBefore_append (s.flags.take batchSize) (s.flags.drop batchSize) hfew
    rw [List.take_append_drop] at hsplit
    omega
  · rw [filter_id_eq_self hunheld, List.take_append_drop, List.count_eq_zero.mpr hunheld]
    rfl

theorem exists_ends_deletes_iff :
    (∃ r, Ends (flagRound false batchSize cap) s r) ↔
      s.flags.count true < batchSize ∨ cap ≤ s.purged + unheldBefore batchSize s.flags := by
  apply Iff.intro
  · rintro ⟨r, hends⟩
    by_contra hstuck
    simp only [not_or, not_lt, not_le] at hstuck
    have hround : ∀ t : FlagState,
        batchSize ≤ t.flags.count true ∧ t.purged + unheldBefore batchSize t.flags < cap →
        ∃ t', flagRound false batchSize cap t = .inl t' ∧ batchSize ≤ t'.flags.count true ∧
          t'.purged + unheldBefore batchSize t'.flags < cap := by
      rintro t ⟨hheld, hcap⟩
      have hfull : batchSize ≤ t.flags.length := hheld.trans List.count_le_length
      refine ⟨_, flagRound_full (by omega) hfull, ?_, ?_⟩
      · rw [count_true_next]
        exact hheld
      · rw [purged_add_unheldBefore_next hfull]
        exact hcap
    exact not_ends_of_invariant hround hstuck r hends
  · -- a full batch purges something, and the rows that can be purged become fewer
    have hless : ∀ t t' : FlagState,
        (t.flags.count true < batchSize ∨ cap ≤ t.purged + unheldBefore batchSize t.flags) →
        flagRound false batchSize cap t = .inl t' →
        (t'.flags.count true < batchSize ∨ cap ≤ t'.purged + unheldBefore batchSize t'.flags) ∧
          t'.flags.count false < t.flags.count false := by
      intro t t' hinv hround
      obtain ⟨hcap, hfull, rfl⟩ := flagRound_eq_inl hround
      have hpurged : false ∈ t.flags.take batchSize := by
        by_contra hheld
        rcases hinv with hfew | henough
        · have hsum := count_true_add_count_false (t.flags.take batchSize)
          have hle : (t.flags.take batchSize).count true ≤ t.flags.count true :=
            (List.take_sublist _ _).count_le _
          rw [List.length_take_of_le hfull, List.count_eq_zero.mpr hheld] at hsum
          omega
        · rw [unheldBefore_eq_zero hheld] at henough
          omega
      rw [count_true_next, purged_add_unheldBefore_next hfull]
      have hpos := List.count_pos_iff.mpr hpurged
      have hsum := count_false_next t batchSize
      exact ⟨hinv, by omega⟩
    exact exists_ends_of_measure (fun t : FlagState => t.flags.count false) hless

/-! ## What is counted -/

theorem counts_of_ends_deletes (hends : Ends (flagRound false batchSize cap) s r)
    (hcapped : r.capReached = false) :
    r.purged = s.purged + s.flags.count false ∧ s.skipped + s.flags.count true ≤ r.skipped := by
  induction hends with
  | @stop s _ left =>
    by_cases hcap : cap ≤ s.purged
    · rw [flagRound_capped hcap] at left
      cases left
      cases hcapped
    · by_cases hshort : s.flags.length < batchSize
      · rw [flagRound_short (not_le.mp hcap) hshort] at left
        cases left
        exact ⟨rfl, le_rfl⟩
      · rw [flagRound_full (not_le.mp hcap) (not_lt.mp hshort)] at left
        cases left
  | @next s _ _ round _ ih =>
    obtain ⟨_, _, rfl⟩ := flagRound_eq_inl round
    obtain ⟨hpurged, hskipped⟩ := ih hcapped
    have hfalse := count_false_next s batchSize
    rw [count_true_next] at hskipped
    apply And.intro
    · rw [hpurged, next_purged]
      omega
    · rw [next_skipped] at hskipped
      omega

theorem purged_lt_of_ends {flags : List Bool} (hfull : batchSize ≤ flags.length)
    (hfree : true ∉ flags) {dry : FlagResult} {t : FlagState}
    (hends : Ends (flagRound false batchSize cap) s r) (hcapped : r.capReached = false)
    (hunheld : true ∉ s.flags) (ht : t.flags = flags ∧ t.purged = s.purged)
    (hdry : Ends (flagRound true batchSize cap) t dry) : r.purged < dry.purged := by
  have hbatch : (flags.take batchSize).count false = batchSize := by
    have hsum := count_true_add_count_false (flags.take batchSize)
    rw [List.count_eq_zero.mpr fun hmem => hfree (List.mem_of_mem_take hmem),
      List.length_take_of_le hfull] at hsum
    omega
  -- a dry run never counts less than what it has counted already
  have hgrows : ∀ {t : FlagState} {dry : FlagResult},
      Ends (flagRound true batchSize cap) t dry → t.purged ≤ dry.purged := by
    intro t dry hdry
    induction hdry with
    | @stop _ _ left =>
      unfold flagRound at left
      split_ifs at left
      · cases left
        exact le_rfl
      · cases left
        exact Nat.le_add_right _ _
    | next round _ ih =>
      obtain ⟨_, _, rfl⟩ := flagRound_eq_inl round
      exact le_trans (Nat.le_add_right _ _) ih
  induction hends generalizing t with
  | @stop s _ left =>
    obtain ⟨hflags, hpurged⟩ := ht
    by_cases hcap : cap ≤ s.purged
    · rw [flagRound_capped hcap] at left
      cases left
      cases hcapped
    · have hcap' : t.purged < cap := by omega
      rw [ends_inl_iff (flagRound_full hcap' (hflags ▸ hfull))] at hdry
      have hmore := hgrows hdry
      rw [next_purged, hflags, hbatch, hpurged] at hmore
      by_cases hshort : s.flags.length < batchSize
      · rw [flagRound_short (not_le.mp hcap) hshort] at left
        cases left
        have hle : s.flags.count false ≤ s.flags.length := List.count_le_length
        show s.purged + s.flags.count false < dry.purged
        omega
      · rw [flagRound_full (not_le.mp hcap) (not_lt.mp hshort)] at left
        cases left
  | @next s _ _ round _ ih =>
    obtain ⟨hflags, hpurged⟩ := ht
    obtain ⟨hcap, hlong, rfl⟩ := flagRound_eq_inl round
    rw [ends_inl_iff (flagRound_full (hpurged ▸ hcap) (hflags ▸ hfull))] at hdry
    have hsame : (s.flags.take batchSize).count false = batchSize := by
      have hsum := count_true_add_count_false (s.flags.take batchSize)
      rw [List.count_eq_zero.mpr fun hmem => hunheld (List.mem_of_mem_take hmem),
        List.length_take_of_le hlong] at hsum
      omega
    have hunheld' : true ∉ (s.next false batchSize).flags := by
      rw [← List.count_eq_zero, count_true_next, List.count_eq_zero]
      exact hunheld
    apply ih hcapped hunheld' _ hdry
    rw [next_purged, next_purged, hflags, hbatch, hsame, hpurged]
    exact ⟨hflags, rfl⟩

theorem length_lt_of_same_counts {flags : List Bool} {dry : FlagResult}
    (hends : Ends (flagRound false batchSize cap) ⟨flags, 0, 0⟩ r) (hcapped : r.capReached = false)
    (hskipped : r.skipped = flags.count true)
    (hdry : Ends (flagRound true batchSize cap) ⟨flags, 0, 0⟩ dry)
    (hsame : dry.purged = r.purged ∧ dry.skipped = r.skipped) : flags.length < batchSize := by
  by_contra hlong
  have hfull := not_lt.mp hlong
  have hcap : 0 < cap := by
    by_contra hzero
    have hleft : flagRound false batchSize cap ⟨flags, 0, 0⟩ = .inr ⟨0, 0, true⟩ :=
      flagRound_capped (not_lt.mp hzero)
    cases (ends_inr_iff hleft).mp hends
    cases hcapped
  -- the held rows of the first batch are counted again by the second
  have hrest := hends
  rw [ends_inl_iff (flagRound_full hcap hfull)] at hrest
  have hmore := (counts_of_ends_deletes hrest hcapped).2
  rw [count_true_next, next_skipped] at hmore
  dsimp only at hmore
  have hfirst : true ∉ flags.take batchSize := by
    rw [← List.count_eq_zero]
    omega
  -- the dry loop has seen the first batch only
  have hnone := skipped_of_ends_stays hdry hfirst
  dsimp only at hnone
  have hfree : true ∉ flags := by
    rw [← List.count_eq_zero]
    omega
  have hless := purged_lt_of_ends hfull hfree hends hcapped hfree ⟨rfl, rfl⟩ hdry
  omega

end

end Fluxora.Retention
