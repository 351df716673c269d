/-
# Loops that may not end

The body of a loop leads to the next state or leaves the loop with a result. Whether a loop ends
is a matter of its states, so the loop is a relation between the state it is entered in and the
result it is left with; `iterate` runs it for a number of rounds.
-/

import Mathlib.Data.Nat.Notation

namespace Fluxora.Lib.Loop

universe u v

variable {σ : Type u} {ρ : Type v}

/-- The loop, entered in a state, is left with a result. -/
inductive Ends (body : σ → σ ⊕ ρ) : σ → ρ → Prop
  | stop {s : σ} {r : ρ} (left : body s = .inr r) : Ends body s r
  | next {s s' : σ} {r : ρ} (round : body s = .inl s') (rest : Ends body s' r) : Ends body s r

variable {body : σ → σ ⊕ ρ}

theorem ends_inr_iff {s : σ} {r r' : ρ} (left : body s = .inr r') : Ends body s r ↔ r = r' := by
  apply Iff.intro
  · intro h
    cases h with
    | stop left' =>
      cases left.symm.trans left'
      rfl
    | next round => cases left.symm.trans round
  · rintro rfl
    exact .stop left

theorem ends_inl_iff {s s' : σ} {r : ρ} (round : body s = .inl s') :
    Ends body s r ↔ Ends body s' r := by
  apply Iff.intro
  · intro h
    cases h with
    | stop left => cases round.symm.trans left
    | next round' rest =>
      cases round.symm.trans round'
      exact rest
  · exact .next round

theorem Ends.unique {s : σ} {r r' : ρ} (h : Ends body s r) (h' : Ends body s r') : r = r' := by
  induction h with
  | stop left => exact ((ends_inr_iff left).mp h').symm
  | next round _ ih => exact ih ((ends_inl_iff round).mp h')

theorem Ends.of_invariant {Inv : σ → Prop} {Post : ρ → Prop}
    (hround : ∀ s s', Inv s → body s = .inl s' → Inv s')
    (hleft : ∀ s r, Inv s → body s = .inr r → Post r) {s : σ} {r : ρ} (hs : Inv s)
    (h : Ends body s r) : Post r := by
  induction h with
  | stop left => exact hleft _ _ hs left
  | next round _ ih => exact ih (hround _ _ hs round)

theorem exists_ends_of_measure {Inv : σ → Prop} (measure : σ → ℕ)
    (hround : ∀ s s', Inv s → body s = .inl s' → Inv s' ∧ measure s' < measure s) {s : σ}
    (hs : Inv s) : ∃ r, Ends body s r := by
  induction hn : measure s using Nat.strongRecOn generalizing s with
  | ind _ ih =>
    cases hbody : body s with
    | inr r => exact ⟨r, .stop hbody⟩
    | inl s' =>
      obtain ⟨hs', hless⟩ := hround s s' hs hbody
      obtain ⟨r, hrest⟩ := ih (measure s') (hn ▸ hless) hs' rfl
      exact ⟨r, .next hbody hrest⟩

theorem not_ends_of_invariant {Inv : σ → Prop}
    (hround : ∀ s, Inv s → ∃ s', body s = .inl s' ∧ Inv s') {s : σ} (hs : Inv s) (r : ρ) :
    ¬ Ends body s r := by
  intro h
  induction h with
  | stop left =>
    obtain ⟨s', hnext, _⟩ := hround _ hs
    cases left.symm.trans hnext
  | next round _ ih =>
    obtain ⟨s', hnext, hs'⟩ := hround _ hs
    cases round.symm.trans hnext
    exact ih hs'

/-! ## Simulation -/

section

universe u' v'

variable {σ' : Type u'} {ρ' : Type v'} {body' : σ' → σ' ⊕ ρ'} {Inv : σ → Prop} {f : σ → σ'}
  {g : ρ → ρ'}

theorem Ends.map (hround : ∀ s, Inv s → body' (f s) = (body s).map f g)
    (hkept : ∀ s s', Inv s → body s = .inl s' → Inv s') {s : σ} {r : ρ} (hs : Inv s)
    (h : Ends body s r) : Ends body' (f s) (g r) := by
  induction h with
  | stop left =>
    apply Ends.stop
    rw [hround _ hs, left]
    rfl
  | next round _ ih =>
    refine Ends.next ?_ (ih (hkept _ _ hs round))
    rw [hround _ hs, round]
    rfl

theorem Ends.of_map (hround : ∀ s, Inv s → body' (f s) = (body s).map f g)
    (hkept : ∀ s s', Inv s → body s = .inl s' → Inv s') {t : σ'} {r' : ρ'}
    (h : Ends body' t r') {s : σ} (hs : Inv s) (ht : f s = t) :
    ∃ r, Ends body s r ∧ g r = r' := by
  induction h generalizing s with
  | stop left =>
    rw [← ht, hround s hs] at left
    cases hbody : body s with
    | inl =>
      rw [hbody] at left
      cases left
    | inr r =>
      rw [hbody] at left
      cases left
      exact ⟨r, .stop hbody, rfl⟩
  | next round _ ih =>
    rw [← ht, hround s hs] at round
    cases hbody : body s with
    | inl s' =>
      rw [hbody] at round
      cases round
      obtain ⟨r, hrest, hr⟩ := ih (hkept s s' hs hbody) rfl
      exact ⟨r, .next hbody hrest, hr⟩
    | inr =>
      rw [hbody] at round
      cases round

end

end Fluxora.Lib.Loop
