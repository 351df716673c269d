/-
# Numbers in order

A frontier that follows numbers as they get done, and numbers that are handed out in the order
of terms.
-/

import Mathlib.Data.List.Perm.Subperm
import Mathlib.Data.List.Nodup
import Mathlib.Order.Lattice

/-! ## The contiguous frontier

Things that are numbered get done in any order. The frontier moves past a number as soon as
that number is done, and so everything behind it is done.
-/

namespace Fluxora.Lib.Frontier

variable {done : ℤ → Bool}

/-- Move on while the next number is done. The fuel need not exceed how many are done. -/
def advance (done : ℤ → Bool) : ℕ → ℤ → ℤ
  | 0, k => k
  | fuel + 1, k => if done (k + 1) then advance done fuel (k + 1) else k

theorem le_advance (fuel : ℕ) (k : ℤ) : k ≤ advance done fuel k := by
  induction fuel generalizing k with
  | zero => exact le_rfl
  | succ _ ih =>
    rw [advance]
    split_ifs
    · have hnext := ih (k + 1)
      omega
    · exact le_rfl

theorem done_of_le_advance {fuel : ℕ} {k j : ℤ} (hbehind : k < j)
    (hpassed : j ≤ advance done fuel k) : done j = true := by
  induction fuel generalizing k with
  | zero => exact absurd hpassed (not_le.mpr hbehind)
  | succ _ ih =>
    rw [advance] at hpassed
    split_ifs at hpassed with hdone
    · rcases Int.lt_or_eq_of_le (Int.add_one_le_of_lt hbehind) with hlater | rfl
      · exact ih hlater hpassed
      · exact hdone
    · exact absurd hpassed (not_le.mpr hbehind)

theorem done_of_fuel_lt {fuel : ℕ} {k : ℤ} (hmore : done (advance done fuel k + 1) = true) :
    ∀ n : ℕ, n ≤ fuel → done (k + 1 + n) = true := by
  induction fuel generalizing k with
  | zero =>
    intro n hn
    rw [Nat.le_zero.mp hn, Int.natCast_zero, Int.add_zero]
    exact hmore
  | succ _ ih =>
    rw [advance] at hmore
    split_ifs at hmore with hdone
    · intro n hn
      cases n with
      | zero =>
        rw [Int.natCast_zero, Int.add_zero]
        exact hdone
      | succ n =>
        have hshift : k + 1 + ((n + 1 : ℕ) : ℤ) = k + 1 + 1 + n := by omega
        rw [hshift]
        exact ih hmore n (Nat.le_of_succ_le_succ hn)
    · exact absurd hmore hdone

theorem advance_stops {numbers : List ℤ} (hall : ∀ j, done j = true → j ∈ numbers) (k : ℤ) :
    done (advance done numbers.length k + 1) = false := by
  rw [Bool.eq_false_iff]
  intro hmore
  have hdone := done_of_fuel_lt hmore
  let row : List ℤ := (List.range (numbers.length + 1)).map fun n : ℕ => k + 1 + n
  have hnodup : row.Nodup := by
    refine List.Nodup.map (fun m n heq => ?_) List.nodup_range
    omega
  have hsub : row ⊆ numbers := by
    intro j hj
    obtain ⟨n, hn, rfl⟩ := List.mem_map.mp hj
    exact hall _ (hdone n (Nat.lt_succ_iff.mp (List.mem_range.mp hn)))
  have hlength := (hnodup.subperm hsub).length_le
  rw [List.length_map, List.length_range] at hlength
  exact absurd hlength (Nat.not_succ_le_self _)

end Fluxora.Lib.Frontier

/-! ## Fencing tokens from a counter

Terms of any linear order are handed tokens from one counter: a term draws a new token, or
reads the counter as it stands. Tokens are in the order of the terms exactly when the terms are
served in their order and the counter is read only for the term it was last handed to.
-/

namespace Fluxora.Lib

universe u

structure FencingCounter (Term : Type u) where
  value : ℕ := 0
  /-- The tokens handed out, the last one first. -/
  issued : List (Term × ℕ) := []

namespace FencingCounter

variable {Term : Type u} (c : FencingCounter Term) (g : Term)

def draw : FencingCounter Term := ⟨c.value + 1, (g, c.value + 1) :: c.issued⟩

def reread : FencingCounter Term := ⟨c.value, (g, c.value) :: c.issued⟩

/-- The last token handed out is the value of the counter, and none is larger. -/
structure Sound : Prop where
  le_value : ∀ p ∈ c.issued, p.2 ≤ c.value
  last : ∀ p ∈ c.issued.head?, p.2 = c.value

variable {c g}

theorem Sound.init (value : ℕ) : (⟨value, []⟩ : FencingCounter Term).Sound :=
  ⟨fun _ h => absurd h List.not_mem_nil, nofun⟩

theorem Sound.draw (h : c.Sound) : (c.draw g).Sound := by
  refine ⟨fun p hp => ?_, fun p hp => ?_⟩
  · rcases List.mem_cons.mp hp with rfl | hp
    · exact Nat.le_refl _
    · exact Nat.le_succ_of_le (h.le_value p hp)
  · cases hp
    rfl

theorem Sound.reread (h : c.Sound) : (c.reread g).Sound := by
  refine ⟨fun p hp => ?_, fun p hp => ?_⟩
  · rcases List.mem_cons.mp hp with rfl | hp
    · exact Nat.le_refl _
    · exact h.le_value p hp
  · cases hp
    rfl

variable [LinearOrder Term]

/-- A later term has the larger token. -/
def Ordered (c : FencingCounter Term) : Prop :=
  ∀ p ∈ c.issued, ∀ q ∈ c.issued, p.1 < q.1 → p.2 < q.2

omit [LinearOrder Term] in
theorem mem_issued_of_head {p : Term × ℕ} (h : p ∈ c.issued.head?) : p ∈ c.issued :=
  List.mem_of_mem_head? h

theorem ordered_init (value : ℕ) : (⟨value, []⟩ : FencingCounter Term).Ordered :=
  fun _ h => absurd h List.not_mem_nil

theorem ordered_cons_iff {value token : ℕ} :
    (⟨value, (g, token) :: c.issued⟩ : FencingCounter Term).Ordered ↔
      c.Ordered ∧ ∀ p ∈ c.issued, (g < p.1 → token < p.2) ∧ (p.1 < g → p.2 < token) := by
  apply Iff.intro
  · intro h
    refine ⟨fun p hp q hq => ?_, fun p hp => ⟨?_, ?_⟩⟩
    · exact h p (List.mem_cons_of_mem _ hp) q (List.mem_cons_of_mem _ hq)
    · exact h _ List.mem_cons_self p (List.mem_cons_of_mem _ hp)
    · exact h p (List.mem_cons_of_mem _ hp) _ List.mem_cons_self
  · rintro ⟨hold, hnew⟩ p hp q hq hlt
    rcases List.mem_cons.mp hp with rfl | hp <;> rcases List.mem_cons.mp hq with rfl | hq
    · exact absurd hlt (lt_irrefl _)
    · exact (hnew q hq).1 hlt
    · exact (hnew p hp).2 hlt
    · exact hold p hp q hq hlt

theorem ordered_draw_iff (h : c.Sound) :
    (c.draw g).Ordered ↔ c.Ordered ∧ ∀ p ∈ c.issued, p.1 ≤ g := by
  rw [draw, ordered_cons_iff]
  refine and_congr_right fun _ => forall₂_congr fun p hp => ?_
  have hle : p.2 ≤ c.value := h.le_value p hp
  apply Iff.intro
  · rintro ⟨hlater, -⟩
    refine not_lt.mp fun hlt => ?_
    have hsmall : c.value + 1 < p.2 := hlater hlt
    omega
  · intro hterm
    exact ⟨fun hlt => absurd hterm (not_le.mpr hlt), fun _ => Nat.lt_succ_of_le hle⟩

theorem ordered_reread_iff (h : c.Sound) :
    (c.reread g).Ordered ↔ c.Ordered ∧ ∀ p ∈ c.issued.head?, p.1 = g := by
  rw [reread, ordered_cons_iff]
  refine and_congr_right fun hordered => ?_
  apply Iff.intro
  · intro hnew p hlast
    have hsame : p.2 = c.value := h.last p hlast
    obtain ⟨hlater, hearlier⟩ := hnew p (mem_issued_of_head hlast)
    rcases lt_trichotomy p.1 g with hlt | heq | hgt
    · exact absurd (hearlier hlt) (hsame ▸ Nat.lt_irrefl _)
    · exact heq
    · exact absurd (hlater hgt) (hsame ▸ Nat.lt_irrefl _)
  · intro hlast p hp
    obtain ⟨l, hl⟩ : ∃ l, l ∈ c.issued.head? :=
      Option.isSome_iff_exists.mp (List.isSome_head?.mpr (List.ne_nil_of_mem hp))
    have hvalue : l.2 = c.value := h.last l hl
    rw [← hlast l hl, ← hvalue]
    exact ⟨hordered l (mem_issued_of_head hl) p hp, hordered p hp l (mem_issued_of_head hl)⟩

end FencingCounter

end Fluxora.Lib
