/-
# Programs over a store whose statements may fail

A program issues statements against a store, one after the other. Each statement is answered,
fails before it has any effect, or takes effect and loses its answer; the last two look the same
to the program. What the statements of a run do is given in advance, as a list of outcomes, so
that a theorem about all lists is a theorem about all failure patterns.

`Ensures` is the postcondition of a program from a given session.
-/

import Mathlib.Data.Nat.Notation

namespace Fluxora.Lib.Statements

/-- What happens to one statement. -/
inductive Outcome
  | answered
  /-- The statement has no effect and an error is raised. -/
  | failed (message : String)
  /-- The statement has its effect and an error is raised all the same. -/
  | lost (message : String)

/-- The store with the outcomes to come, the number of statements issued and whether
any row was written. Statements past the end of the list are answered. -/
structure Session (σ : Type) where
  store : σ
  outcomes : List Outcome
  issued : ℕ
  written : Bool

/-- A new session over a store. -/
def Session.start {σ : Type} (store : σ) (outcomes : List Outcome) : Session σ where
  store := store
  outcomes := outcomes
  issued := 0
  written := false

def Program (σ α : Type) : Type := Session σ → Except String α × Session σ

section

variable {σ α β : Type}

/-- The session after a statement without effect. -/
def Session.issue (s : Session σ) : Session σ :=
  { s with outcomes := s.outcomes.tail, issued := s.issued + 1 }

/-- The session after a statement that wrote. -/
def Session.write (s : Session σ) (store : σ) : Session σ :=
  { s.issue with store := store, written := true }

instance : Monad (Program σ) where
  pure a := fun s => (.ok a, s)
  bind m f := fun s =>
    match m s with
    | (.ok a, s') => f a s'
    | (.error e, s') => (.error e, s')

/-- Raise an error. -/
def fail (message : String) : Program σ α := fun s => (.error message, s)

/-- A statement that only reads. -/
def query (read : σ → α) : Program σ α := fun s =>
  match s.outcomes with
  | .failed message :: _ => (.error message, s.issue)
  | .lost message :: _ => (.error message, s.issue)
  | _ => (.ok (read s.store), s.issue)

/-- A statement that writes a row and returns it, writes none, or violates a
constraint. -/
def execute (effect : σ → Except String (Option (α × σ))) : Program σ (Option α) := fun s =>
  match s.outcomes with
  | .failed message :: _ => (.error message, s.issue)
  | .lost message :: _ =>
    match effect s.store with
    | .ok (some (_, store)) => (.error message, s.write store)
    | _ => (.error message, s.issue)
  | _ =>
    match effect s.store with
    | .ok (some (row, store)) => (.ok (some row), s.write store)
    | .ok none => (.ok none, s.issue)
    | .error message => (.error message, s.issue)

/-! ## Postconditions -/

/-- The program, run from a session, ends in a result and a session with `Q`. -/
def Ensures (m : Program σ α) (s : Session σ) (Q : Except String α → Session σ → Prop) : Prop :=
  Q (m s).1 (m s).2

variable {s : Session σ} {Q : Except String β → Session σ → Prop}

theorem Ensures.pure {b : β} (h : Q (.ok b) s) : Ensures (pure b : Program σ β) s Q := h

theorem Ensures.fail {message : String} (h : Q (.error message) s) :
    Ensures (fail message : Program σ β) s Q := h

theorem Ensures.imp {m : Program σ β} {P : Except String β → Session σ → Prop}
    (h : Ensures m s P) (himp : ∀ r s', P r s' → Q r s') : Ensures m s Q := himp _ _ h

theorem Ensures.bind {m : Program σ α} {f : α → Program σ β}
    {P : Except String α → Session σ → Prop} (hfirst : Ensures m s P)
    (hok : ∀ a s', P (.ok a) s' → Ensures (f a) s' Q)
    (herror : ∀ message s', P (.error message) s' → Q (.error message) s') :
    Ensures (m >>= f) s Q := by
  unfold Ensures at hfirst
  cases hrun : m s with
  | mk result s' =>
    rw [hrun] at hfirst
    simp only [Ensures, Bind.bind, hrun]
    cases result with
    | ok a => exact hok a s' hfirst
    | error message => exact herror message s' hfirst

theorem Ensures.query_bind {read : σ → α} {f : α → Program σ β}
    (hok : Ensures (f (read s.store)) s.issue Q)
    (herror : ∀ message, Q (.error message) s.issue) : Ensures (query read >>= f) s Q := by
  cases houtcomes : s.outcomes with
  | nil =>
    simp only [Ensures, Bind.bind, query, houtcomes]
    exact hok
  | cons outcome =>
    simp only [Ensures, Bind.bind, query, houtcomes]
    cases outcome with
    | answered => exact hok
    | failed message | lost message => exact herror message

theorem execute_cases (effect : σ → Except String (Option (α × σ))) (s : Session σ) :
    (∃ row store, effect s.store = .ok (some (row, store)) ∧
      (execute effect s = (.ok (some row), s.write store) ∨
        ∃ message, execute effect s = (.error message, s.write store))) ∨
    (effect s.store = .ok none ∧ execute effect s = (.ok none, s.issue)) ∨
    ∃ message, execute effect s = (.error message, s.issue) := by
  unfold execute
  split
  · exact Or.inr (Or.inr ⟨_, rfl⟩)
  · cases heffect : effect s.store with
    | error => exact Or.inr (Or.inr ⟨_, rfl⟩)
    | ok result =>
      cases result with
      | none => exact Or.inr (Or.inr ⟨_, rfl⟩)
      | some written => exact Or.inl ⟨written.1, written.2, rfl, Or.inr ⟨_, rfl⟩⟩
  · cases heffect : effect s.store with
    | error e => exact Or.inr (Or.inr ⟨e, rfl⟩)
    | ok result =>
      cases result with
      | none => exact Or.inr (Or.inl ⟨rfl, rfl⟩)
      | some written => exact Or.inl ⟨written.1, written.2, rfl, Or.inl rfl⟩

/-- A statement writes, and then the program goes on or the answer is lost; or it
writes nothing, and the program goes on or the statement has failed. -/
theorem Ensures.execute_bind {effect : σ → Except String (Option (α × σ))}
    {f : Option α → Program σ β}
    (hrow : ∀ row store, effect s.store = .ok (some (row, store)) →
      Ensures (f (some row)) (s.write store) Q)
    (hlost : ∀ row store message, effect s.store = .ok (some (row, store)) →
      Q (.error message) (s.write store))
    (hnone : effect s.store = .ok none → Ensures (f none) s.issue Q)
    (herror : ∀ message, Q (.error message) s.issue) :
    Ensures (execute effect >>= f) s Q := by
  rcases execute_cases effect s with hwrote | hnothing | hfailed
  · obtain ⟨row, store, heffect, hanswer | ⟨message, hanswer⟩⟩ := hwrote
    · simp only [Ensures, Bind.bind, hanswer]
      exact hrow row store heffect
    · simp only [Ensures, Bind.bind, hanswer]
      exact hlost row store message heffect
  · simp only [Ensures, Bind.bind, hnothing.2]
    exact hnone hnothing.1
  · obtain ⟨message, hanswer⟩ := hfailed
    simp only [Ensures, Bind.bind, hanswer]
    exact herror message

/-! ## Sessions without failures -/

/-- Every statement to come is answered. -/
def Session.Healthy (s : Session σ) : Prop := s.outcomes = []

theorem Session.Healthy.issue (h : s.Healthy) : s.issue.Healthy := congrArg List.tail h

theorem query_bind_healthy (h : s.Healthy) (read : σ → α) (f : α → Program σ β) :
    (query read >>= f) s = f (read s.store) s.issue := by
  unfold Session.Healthy at h
  simp only [Bind.bind, query, h]

theorem execute_bind_healthy (h : s.Healthy) (effect : σ → Except String (Option (α × σ)))
    (f : Option α → Program σ β) :
    (execute effect >>= f) s =
      match effect s.store with
      | .ok (some (row, store)) => f (some row) (s.write store)
      | .ok none => f none s.issue
      | .error message => (.error message, s.issue) := by
  unfold Session.Healthy at h
  simp only [Bind.bind, execute, h]
  cases effect s.store with
  | error => rfl
  | ok result =>
    cases result with
    | none | some => rfl

end

end Fluxora.Lib.Statements
