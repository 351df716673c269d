/-
# Suspended consumers

Each topic of the dead-letter queue has a row with the number of its failed replays in a row and a
flag. A failure sets the flag from the number it has just written; a success starts the number
anew and leaves the flag; resuming clears both.
-/

import Fluxora.Lib.JsText

namespace Fluxora.Dlq

open Lib.JsText

/-! ## Statements -/

/-- `DLQ_SUSPENSION_THRESHOLD`, by default 5. -/
def getSuspensionThreshold (raw : Option (List Char)) : ℕ :=
  match raw.bind parseInt with
  | some n => if n > 0 then n.toNat else 5
  | none => 5

structure ConsumerSuspension where
  consecutiveFailures : ℤ
  suspended : Bool
  suspendedAt : Option ℤ
  resumedAt : Option ℤ
  updatedAt : ℤ
  deriving DecidableEq

/-- `dlq_consumer_suspension` -/
abbrev SuspensionTable := String → Option ConsumerSuspension

/-- The row of a topic after one more failure. -/
def afterFailure (threshold : ℕ) (now : ℤ) : Option ConsumerSuspension → ConsumerSuspension
  | none => ⟨1, 1 ≥ threshold, if 1 ≥ threshold then some now else none, none, now⟩
  | some row =>
    let failures := max 0 row.consecutiveFailures + 1
    { row with
      consecutiveFailures := failures
      suspended := failures ≥ threshold
      suspendedAt :=
        if row.suspended = false ∧ failures ≥ threshold then some now else row.suspendedAt
      updatedAt := now }

/-- The row of a topic after a success. -/
def afterSuccess (now : ℤ) : Option ConsumerSuspension → ConsumerSuspension
  | none => ⟨0, false, none, none, now⟩
  | some row => { row with consecutiveFailures := 0, updatedAt := now }

def recordReplayFailure (threshold : ℕ) (topic : String) (now : ℤ) (table : SuspensionTable) :
    SuspensionTable :=
  Function.update table topic (some (afterFailure threshold now (table topic)))

def recordReplaySuccess (topic : String) (now : ℤ) (table : SuspensionTable) :
    SuspensionTable :=
  Function.update table topic (some (afterSuccess now (table topic)))

def resumeConsumer (topic : String) (now : ℤ) (table : SuspensionTable) : SuspensionTable :=
  Function.update table topic ((table topic).map fun row =>
    { row with
      suspended := false
      consecutiveFailures := 0
      resumedAt := some now
      updatedAt := now })

inductive SuspensionStatement
  | failure (topic : String) (now : ℤ)
  | success (topic : String) (now : ℤ)
  | resume (topic : String) (now : ℤ)
  deriving DecidableEq

namespace SuspensionStatement

def topic : SuspensionStatement → String
  | .failure topic _ => topic
  | .success topic _ => topic
  | .resume topic _ => topic

def isFailure : SuspensionStatement → Bool
  | .failure _ _ => true
  | _ => false

def isResume : SuspensionStatement → Bool
  | .resume _ _ => true
  | _ => false

end SuspensionStatement

def execute (threshold : ℕ) (table : SuspensionTable) : SuspensionStatement → SuspensionTable
  | .failure topic now => recordReplayFailure threshold topic now table
  | .success topic now => recordReplaySuccess topic now table
  | .resume topic now => resumeConsumer topic now table

/-- The table after the statements of a history, from an empty one. -/
def tableAfter (threshold : ℕ) (history : List SuspensionStatement) : SuspensionTable :=
  history.foldl (execute threshold) fun _ => none

/-- The topic is suspended after a history. -/
def IsSuspended (threshold : ℕ) (topic : String) (history : List SuspensionStatement) : Prop :=
  ∃ row, tableAfter threshold history topic = some row ∧ row.suspended = true

/-! ## What the flag is for -/

/-- The failures of a topic since its last success or resumption. -/
def failuresSince (topic : String) (history : List SuspensionStatement) : ℕ :=
  ((history.filter fun s => s.topic = topic).reverse.takeWhile fun s => s.isFailure).length

/-- At every statement of a history, the topic becomes suspended exactly when its failures
reach the threshold, and a suspended topic stays so unless it is resumed. -/
structure Sticky (threshold : ℕ) (topic : String) (history : List SuspensionStatement) :
    Prop where
  becomes : ∀ before s after, history = before ++ s :: after →
    ¬ IsSuspended threshold topic before →
      (IsSuspended threshold topic (before ++ [s]) ↔
        s.topic = topic ∧ s.isFailure = true ∧
          failuresSince topic (before ++ [s]) = threshold)
  stays : ∀ before s after, history = before ++ s :: after →
    IsSuspended threshold topic before → ¬ (s.topic = topic ∧ s.isResume = true) →
      IsSuspended threshold topic (before ++ [s])

theorem getSuspensionThreshold_pos (raw : Option (List Char)) :
    0 < getSuspensionThreshold raw := by
  rw [getSuspensionThreshold]
  split
  · split_ifs with hpos
    · omega
    · decide
  · decide

/-! ## The row of a topic -/

variable {threshold : ℕ} {topic : String} {history : List SuspensionStatement}
  (s : SuspensionStatement)

theorem tableAfter_concat :
    tableAfter threshold (history ++ [s]) = execute threshold (tableAfter threshold history) s :=
  List.foldl_concat ..

variable {table : SuspensionTable}

theorem execute_of_ne {s : SuspensionStatement} (hne : s.topic ≠ topic) :
    execute threshold table s topic = table topic := by
  cases s with
  | failure | success | resume => exact Function.update_of_ne hne.symm ..

theorem failuresSince_concat :
    failuresSince topic (history ++ [s]) =
      if s.topic = topic then (if s.isFailure then failuresSince topic history + 1 else 0)
      else failuresSince topic history := by
  rw [failuresSince, List.filter_append, List.reverse_append]
  split_ifs with htopic hfailure
  · rw [List.filter_cons_of_pos (by simpa using htopic), List.filter_nil, List.reverse_singleton,
      List.singleton_append, List.takeWhile_cons_of_pos hfailure, List.length_cons]
    rfl
  · rw [List.filter_cons_of_pos (by simpa using htopic), List.filter_nil, List.reverse_singleton,
      List.singleton_append, List.takeWhile_cons_of_neg hfailure, List.length_nil]
  · rw [List.filter_cons_of_neg (by simpa using htopic), List.filter_nil, List.reverse_nil,
      List.nil_append]
    rfl

/-- The number in the row is that of the failures, and without the flag it is below the
threshold. -/
def Agrees (threshold failures : ℕ) : Option ConsumerSuspension → Prop
  | none => failures = 0
  | some row =>
    row.consecutiveFailures = failures ∧ (row.suspended = false → failures < threshold)

variable (now : ℤ)

theorem afterFailure_agrees {failures : ℕ} {row : Option ConsumerSuspension}
    (hrow : Agrees threshold failures row) :
    (afterFailure threshold now row).consecutiveFailures = failures + 1 ∧
      ((afterFailure threshold now row).suspended = true ↔ threshold ≤ failures + 1) := by
  cases row with
  | none =>
    have hzero : failures = 0 := hrow
    subst hzero
    exact ⟨rfl, decide_eq_true_iff⟩
  | some row =>
    have hcount := hrow.1
    have hwritten : max 0 row.consecutiveFailures + 1 = failures + 1 := by omega
    refine ⟨hwritten, ?_⟩
    change decide (max 0 row.consecutiveFailures + 1 ≥ (threshold : ℤ)) = true ↔ _
    rw [decide_eq_true_iff, hwritten]
    omega

theorem agrees_execute (hpos : 0 < threshold) {failures : ℕ} (s : SuspensionStatement)
    (hrow : Agrees threshold failures (table s.topic)) :
    Agrees threshold (if s.isFailure then failures + 1 else 0)
      (execute threshold table s s.topic) := by
  cases s with
  | failure topic now =>
    change Agrees threshold failures (table topic) at hrow
    obtain ⟨hcount, hflag⟩ := afterFailure_agrees now hrow
    have hwritten : execute threshold table (.failure topic now) topic =
        some (afterFailure threshold now (table topic)) := Function.update_self ..
    change Agrees threshold (failures + 1) (execute threshold table (.failure topic now) topic)
    rw [hwritten]
    refine ⟨by exact_mod_cast hcount, ?_⟩
    intro hclear
    by_contra hreached
    have hset := hflag.mpr (Nat.le_of_not_lt hreached)
    rw [hclear] at hset
    cases hset
  | success topic now =>
    have hwritten : execute threshold table (.success topic now) topic =
        some (afterSuccess now (table topic)) := Function.update_self ..
    change Agrees threshold 0 (execute threshold table (.success topic now) topic)
    rw [hwritten]
    cases table topic with
    | none | some => exact ⟨rfl, fun _ => hpos⟩
  | resume topic now =>
    have hwritten : execute threshold table (.resume topic now) topic =
        (table topic).map fun row =>
          { row with
            suspended := false
            consecutiveFailures := 0
            resumedAt := some now
            updatedAt := now } := Function.update_self ..
    change Agrees threshold 0 (execute threshold table (.resume topic now) topic)
    rw [hwritten]
    cases table topic with
    | none => exact rfl
    | some => exact ⟨rfl, fun _ => hpos⟩

theorem agrees_tableAfter (hpos : 0 < threshold) (topic : String)
    (history : List SuspensionStatement) :
    Agrees threshold (failuresSince topic history) (tableAfter threshold history topic) := by
  induction history using List.reverseRecOn with
  | nil => rfl
  | append_singleton _ s ih =>
    rw [tableAfter_concat, failuresSince_concat]
    by_cases htopic : s.topic = topic
    · rw [if_pos htopic]
      subst htopic
      exact agrees_execute hpos s ih
    · rw [if_neg htopic, execute_of_ne htopic]
      exact ih

/-! ## The flag of a topic -/

theorem failuresSince_lt (hpos : 0 < threshold)
    (hclear : ¬ IsSuspended threshold topic history) :
    failuresSince topic history < threshold := by
  have hagrees := agrees_tableAfter hpos topic history
  cases hrow : tableAfter threshold history topic with
  | none =>
    rw [hrow] at hagrees
    have hzero : failuresSince topic history = 0 := hagrees
    rw [hzero]
    exact hpos
  | some row =>
    rw [hrow] at hagrees
    apply hagrees.2
    cases hflag : row.suspended with
    | false => rfl
    | true => exact absurd ⟨row, hrow, hflag⟩ hclear

theorem isSuspended_concat_of_ne {s : SuspensionStatement} (hne : s.topic ≠ topic) :
    IsSuspended threshold topic (history ++ [s]) ↔ IsSuspended threshold topic history := by
  rw [IsSuspended, tableAfter_concat, execute_of_ne hne]
  rfl

theorem isSuspended_concat_failure (hpos : 0 < threshold) (now : ℤ) :
    IsSuspended threshold topic (history ++ [.failure topic now]) ↔
      threshold ≤ failuresSince topic history + 1 := by
  have hflag := (afterFailure_agrees now (agrees_tableAfter hpos topic history)).2
  have hwritten : execute threshold (tableAfter threshold history) (.failure topic now) topic =
      some (afterFailure threshold now (tableAfter threshold history topic)) :=
    Function.update_self ..
  rw [IsSuspended, tableAfter_concat, hwritten, ← hflag]
  apply Iff.intro
  · rintro ⟨row, hrow, hset⟩
    cases hrow
    exact hset
  · intro hset
    exact ⟨_, rfl, hset⟩

theorem isSuspended_concat_success :
    IsSuspended threshold topic (history ++ [.success topic now]) ↔
      IsSuspended threshold topic history := by
  have hwritten : execute threshold (tableAfter threshold history) (.success topic now) topic =
      some (afterSuccess now (tableAfter threshold history topic)) := Function.update_self ..
  rw [IsSuspended, tableAfter_concat, hwritten, IsSuspended]
  cases tableAfter threshold history topic with
  | none =>
    apply Iff.intro
    · rintro ⟨row, hrow, hset⟩
      cases hrow
      cases hset
    · rintro ⟨row, hrow, hset⟩
      cases hrow
  | some row =>
    apply Iff.intro
    · rintro ⟨written, hrow, hset⟩
      cases hrow
      exact ⟨row, rfl, hset⟩
    · rintro ⟨old, hrow, hset⟩
      cases hrow
      exact ⟨_, rfl, hset⟩

theorem not_isSuspended_concat_resume :
    ¬ IsSuspended threshold topic (history ++ [.resume topic now]) := by
  have hwritten : execute threshold (tableAfter threshold history) (.resume topic now) topic =
      (tableAfter threshold history topic).map fun row =>
        { row with
          suspended := false
          consecutiveFailures := 0
          resumedAt := some now
          updatedAt := now } := Function.update_self ..
  rw [IsSuspended, tableAfter_concat, hwritten]
  rintro ⟨row, hrow, hset⟩
  cases hold : tableAfter threshold history topic with
  | none =>
    rw [hold] at hrow
    cases hrow
  | some =>
    rw [hold] at hrow
    cases hrow
    cases hset

/-- A failure is the only statement that makes a topic suspended, when it is the one that
brings the failures to the threshold. -/
theorem becomes_iff (hpos : 0 < threshold) (hclear : ¬ IsSuspended threshold topic history)
    (s : SuspensionStatement) :
    IsSuspended threshold topic (history ++ [s]) ↔
      s.topic = topic ∧ s.isFailure = true ∧
        failuresSince topic (history ++ [s]) = threshold := by
  have hlt := failuresSince_lt hpos hclear
  rw [failuresSince_concat]
  by_cases htopic : s.topic = topic
  · rw [if_pos htopic]
    cases s with
    | failure other now =>
      obtain rfl : other = topic := htopic
      rw [isSuspended_concat_failure hpos,
        if_pos (show (SuspensionStatement.failure other now).isFailure = true from rfl)]
      apply Iff.intro
      · intro hreached
        exact ⟨rfl, rfl, by omega⟩
      · rintro ⟨-, -, hreached⟩
        exact hreached.ge
    | success other =>
      obtain rfl : other = topic := htopic
      rw [isSuspended_concat_success]
      apply Iff.intro
      · exact fun hset => absurd hset hclear
      · rintro ⟨-, hfailure, -⟩
        cases hfailure
    | resume other now =>
      obtain rfl : other = topic := htopic
      apply Iff.intro
      · exact fun hset => absurd hset (not_isSuspended_concat_resume now)
      · rintro ⟨-, hfailure, -⟩
        cases hfailure
  · rw [isSuspended_concat_of_ne htopic]
    apply Iff.intro
    · exact fun hset => absurd hset hclear
    · rintro ⟨hsame, -⟩
      exact absurd hsame htopic

/-- Suspension is sticky exactly in the histories in which no failure is recorded for a
suspended topic while its failures stay below the threshold. -/
theorem sticky_iff (raw : Option (List Char)) (topic : String)
    (history : List SuspensionStatement) :
    Sticky (getSuspensionThreshold raw) topic history ↔
      ∀ before now after, history = before ++ .failure topic now :: after →
        IsSuspended (getSuspensionThreshold raw) topic before →
          getSuspensionThreshold raw ≤ failuresSince topic before + 1 := by
  have hpos := getSuspensionThreshold_pos raw
  apply Iff.intro
  · intro hsticky before now after hhistory hsuspended
    have hstays := hsticky.stays before _ after hhistory hsuspended (fun h => nomatch h.2)
    exact (isSuspended_concat_failure hpos now).mp hstays
  · intro hfailures
    refine ⟨fun before s after _ hclear => becomes_iff hpos hclear s, ?_⟩
    intro before s after hhistory hsuspended hresumed
    by_cases htopic : s.topic = topic
    · cases s with
      | failure other now =>
        obtain rfl : other = topic := htopic
        rw [isSuspended_concat_failure hpos]
        exact hfailures before now after hhistory hsuspended
      | success other now =>
        obtain rfl : other = topic := htopic
        exact (isSuspended_concat_success now).mpr hsuspended
      | resume => exact absurd ⟨htopic, rfl⟩ hresumed
    · exact (isSuspended_concat_of_ne htopic).mpr hsuspended

/-- Five failures suspend a topic; a success and a failure after it lift the suspension. -/
theorem sticky_fails :
    ¬ ∀ (raw : Option (List Char)) (topic : String) (history : List SuspensionStatement),
      Sticky (getSuspensionThreshold raw) topic history := by
  intro hsticky
  have hfive : IsSuspended (getSuspensionThreshold none) "t"
      (List.replicate 5 (.failure "t" 0) ++ [.success "t" 1]) :=
    ⟨_, rfl, rfl⟩
  have hstays := (hsticky none "t" (List.replicate 5 (.failure "t" 0) ++
    [.success "t" 1, .failure "t" 2])).stays
      (List.replicate 5 (.failure "t" 0) ++ [.success "t" 1]) (.failure "t" 2) [] rfl hfive
      (fun h => nomatch h.2)
  obtain ⟨row, hrow, hset⟩ := hstays
  have hlifted : tableAfter (getSuspensionThreshold none) (List.replicate 5 (.failure "t" 0) ++
      [.success "t" 1] ++ [.failure "t" 2]) "t" =
        some ⟨1, false, some 0, none, 2⟩ := rfl
  rw [hlifted, Option.some.injEq] at hrow
  rw [← hrow] at hset
  cases hset

end Fluxora.Dlq
