/-
# Assignments with numbered parameters

A statement is generated together with the list of its parameters. Each assignment names a column
and the number of the parameter it takes, counted from one, and the generator keeps that number in
a counter of its own. Parameters for other parts of the statement are appended afterwards.
-/

import Mathlib.Data.Nat.Notation

namespace Fluxora.Lib.Placeholders

universe u

variable {κ ν ρ : Type u}

/-- The value of `$n`. -/
def parameter (values : List ν) (n : ℕ) : Option ν :=
  if n = 0 then none else values[n - 1]?

/-- The assignments generated so far, their parameters and the next number. -/
structure Builder (κ ν : Type u) where
  clauses : List (κ × ℕ)
  values : List ν
  idx : ℕ

def Builder.start : Builder κ ν := ⟨[], [], 1⟩

/-- Generate an assignment for a field that is present. -/
def Builder.assign (b : Builder κ ν) (field : κ × Option ν) : Builder κ ν :=
  match field.2 with
  | none => b
  | some value => ⟨b.clauses ++ [(field.1, b.idx)], b.values ++ [value], b.idx + 1⟩

def Builder.collect (fields : List (κ × Option ν)) : Builder κ ν :=
  fields.foldl Builder.assign .start

/-! ## Meaning -/

variable (put : κ → ν → ρ → Option ρ)

/-- Carry out one assignment. -/
def applyClause (values : List ν) (row : ρ) (clause : κ × ℕ) : Option ρ :=
  (parameter values clause.2).bind fun value => put clause.1 value row

/-- Carry out the assignments on a row. -/
def applyClauses (values : List ν) (clauses : List (κ × ℕ)) (row : ρ) : Option ρ :=
  clauses.foldlM (applyClause put values) row

/-- Put a field that is present. -/
def putField (row : ρ) (field : κ × Option ν) : Option ρ :=
  match field.2 with
  | none => some row
  | some value => put field.1 value row

variable {put}

theorem parameter_length_succ (values : List ν) (value : ν) (extra : List ν) :
    parameter (values ++ value :: extra) (values.length + 1) = some value := by
  simp [parameter]

/-- The counter is one ahead of the parameters. -/
def Builder.WellNumbered (b : Builder κ ν) : Prop := b.idx = b.values.length + 1

variable {b : Builder κ ν}

theorem Builder.WellNumbered.assign (h : b.WellNumbered) (field : κ × Option ν) :
    (b.assign field).WellNumbered := by
  obtain ⟨column, present⟩ := field
  cases present with
  | none => exact h
  | some =>
    have hidx : b.idx = b.values.length + 1 := h
    simp [Builder.WellNumbered, Builder.assign, hidx]

theorem Builder.wellNumbered_collect (fields : List (κ × Option ν)) :
    (Builder.collect fields).WellNumbered := by
  have hgeneral : ∀ (rest : List (κ × Option ν)) (b : Builder κ ν), b.WellNumbered →
      (rest.foldl Builder.assign b).WellNumbered := by
    intro rest
    induction rest with
    | nil => exact fun b h => h
    | cons field _ ih => exact fun b h => ih _ (h.assign field)
  exact hgeneral fields .start rfl

/-- The assignments of a builder do `f` to a row, whatever is appended to the
parameters. -/
def Builder.Means (put : κ → ν → ρ → Option ρ) (b : Builder κ ν) (f : ρ → Option ρ) : Prop :=
  ∀ extra row, applyClauses put (b.values ++ extra) b.clauses row = f row

theorem Builder.Means.assign {f : ρ → Option ρ} (h : b.Means put f) (hnumbered : b.WellNumbered)
    (field : κ × Option ν) :
    (b.assign field).Means put fun row => (f row).bind (putField put · field) := by
  intro extra row
  obtain ⟨column, present⟩ := field
  cases present with
  | none =>
    have hsame : (f row).bind (putField put · (column, none)) = f row := by
      cases f row <;> rfl
    exact (h extra row).trans hsame.symm
  | some value =>
    have hearlier := h (value :: extra) row
    have hlast : parameter (b.values ++ value :: extra) b.idx = some value := by
      rw [show b.idx = b.values.length + 1 from hnumbered]
      exact parameter_length_succ b.values value extra
    simp only [Builder.assign, applyClauses, List.append_assoc, List.foldlM_append,
      List.singleton_append]
    unfold applyClauses at hearlier
    rw [hearlier]
    cases f row with
    | none => rfl
    | some => simp [applyClause, hlast, putField]

theorem Builder.means_collect (put : κ → ν → ρ → Option ρ) (fields : List (κ × Option ν)) :
    (Builder.collect fields).Means put fun row => fields.foldlM (putField put) row := by
  -- the induction goes through for every builder that is well numbered
  have hgeneral : ∀ (rest : List (κ × Option ν)) (b : Builder κ ν) (f : ρ → Option ρ),
      b.WellNumbered → b.Means put f →
      (rest.foldl Builder.assign b).Means put fun row =>
        (f row).bind fun next => rest.foldlM (putField put) next := by
    intro rest
    induction rest with
    | nil =>
      intro b f _ hmeans extra row
      have hsame : ((f row).bind fun next => [].foldlM (putField put) next) = f row := by
        cases f row <;> rfl
      exact (hmeans extra row).trans hsame.symm
    | cons field _ ih =>
      intro b f hnumbered hmeans extra row
      have hnext := ih _ _ (hnumbered.assign field) (hmeans.assign hnumbered field) extra row
      rw [List.foldl_cons, hnext]
      exact Option.bind_assoc _ _ _
  have hnothing : (Builder.start : Builder κ ν).Means put some := fun extra row => rfl
  exact hgeneral fields .start some rfl hnothing

end Fluxora.Lib.Placeholders
