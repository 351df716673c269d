/-
# Backfill with several workers

Workers take batches from a list, one position after another, and hand each to the handler. A
worker waits between its steps: for live indexing to catch up, for the handler, for the callback
that stores a checkpoint, and before a retry. The checkpoint passes an index when a batch of that
index is done.

The positions are those of the sorted indices, but the data at a position is that of the list as
it was given.
-/

import Fluxora.Lib.Numbering
import Fluxora.Lib.Transition
import Mathlib.Data.List.Sort

namespace Fluxora.Indexer

open Lib Lib.Transition

universe u

/-! ## The scheduler -/

structure BackfillBatch (T : Type u) where
  index : ℤ
  data : T

structure BackfillOptions (T : Type u) where
  batches : List (BackfillBatch T)
  concurrency : ℤ
  initialCheckpoint : ℤ := -1
  retryLimit : ℕ := 3
  /-- The callback is given. -/
  onCheckpoint : Bool := false
  /-- The abort signal is given. -/
  signal : Bool := false

namespace BackfillOptions

variable {T : Type u} (o : BackfillOptions T)

def indices : List ℤ := (o.batches.map (·.index)).insertionSort (· ≤ ·)

/-- What the handler is called with at each position. -/
def arguments : List (ℤ × T) := o.indices.zip (o.batches.map (·.data))

def workerCount : ℕ := (max 1 (min o.concurrency o.batches.length)).toNat

end BackfillOptions

inductive BatchStatus
  | pending
  | done
  | failed
  deriving DecidableEq

/-- Where a worker stands. -/
inductive WorkerProgress
  /-- Before the condition of its loop. -/
  | looping
  /-- Live indexing may have to catch up first. -/
  | waiting
  | handling (pos attempt : ℕ)
  /-- The checkpoint is being stored. -/
  | committing (pos attempt : ℕ)
  /-- Before the next attempt. -/
  | delaying (pos attempt : ℕ)
  | returned
  deriving DecidableEq

structure Backfill (T : Type u) where
  status : ℤ → Option BatchStatus
  checkpoint : ℤ
  next : ℕ := 0
  error : Option String := none
  aborted : Bool := false
  /-- A worker ended with an error outside its batches. -/
  crashed : Bool := false
  workers : List WorkerProgress
  /-- The calls of the handler. -/
  calls : List (ℤ × T) := []
  /-- Those that were resolved. -/
  completed : List (ℤ × T) := []
  /-- The checkpoints that the callback was given. -/
  emitted : List ℤ := []
  result : Option ℤ := none

inductive BackfillStep
  | enter (w : ℕ)
  | claim (w : ℕ)
  /-- Waiting for live indexing throws. -/
  | crash (w : ℕ)
  | succeed (w : ℕ)
  | reject (w : ℕ) (error : String)
  /-- The callback resolves. -/
  | acknowledge (w : ℕ)
  | refuse (w : ℕ) (error : String)
  | wake (w : ℕ)
  | abort
  | finish
  deriving DecidableEq

namespace Backfill

variable {T : Type u} (o : BackfillOptions T) (s : Backfill T)

def init : Backfill T where
  status i := if i ∈ o.batches.map (·.index) then some .pending else none
  checkpoint := o.initialCheckpoint
  workers := List.replicate o.workerCount .looping

def put (w : ℕ) (progress : WorkerProgress) : Backfill T :=
  { s with workers := s.workers.set w progress }

/-- No worker takes another batch. -/
def stopped : Bool := s.error.isSome || s.aborted

def callHandler (w pos attempt : ℕ) (argument : ℤ × T) : Backfill T :=
  { s.put w (.handling pos attempt) with calls := s.calls ++ [argument] }

/-- The next position is taken, if there is one. -/
def claim (w : ℕ) : Backfill T :=
  let taken := { s with next := s.next + 1 }
  match o.arguments[s.next]? with
  | none => taken.put w .returned
  | some argument =>
    if 1 ≤ o.retryLimit then taken.callHandler w s.next 1 argument else taken.put w .looping

/-- The batch is done and the checkpoint moves on. The callback gets the checkpoint whenever
there is one past the first. -/
def commit (w pos attempt : ℕ) (argument : ℤ × T) : Backfill T :=
  let status := Function.update s.status argument.1 (some .done)
  let checkpoint :=
    Frontier.advance (fun i => status i = some .done) o.batches.length s.checkpoint
  let committed := { s with status, checkpoint, completed := s.completed ++ [argument] }
  if o.onCheckpoint ∧ o.initialCheckpoint < checkpoint then
    { committed.put w (.committing pos attempt) with emitted := s.emitted ++ [checkpoint] }
  else committed.put w .looping

/-- The handler or the callback failed. The last attempt stops all workers. -/
def caught (w pos attempt : ℕ) (argument : ℤ × T) (error : String) : Backfill T :=
  if attempt = o.retryLimit then
    { s.put w .looping with
      error := some error
      status := Function.update s.status argument.1 (some .failed) }
  else s.put w (.delaying pos attempt)

def step : BackfillStep → Option (Backfill T)
  | .enter w =>
    match s.workers[w]? with
    | some .looping => some (s.put w (if s.stopped then .returned else .waiting))
    | _ => none
  | .claim w =>
    match s.workers[w]? with
    | some .waiting => some (if s.stopped then s.put w .returned else s.claim o w)
    | _ => none
  | .crash w =>
    match s.workers[w]? with
    | some .waiting => some { s.put w .returned with crashed := true }
    | _ => none
  | .succeed w =>
    match s.workers[w]? with
    | some (.handling pos attempt) => o.arguments[pos]?.map (s.commit o w pos attempt)
    | _ => none
  | .reject w error =>
    match s.workers[w]? with
    | some (.handling pos attempt) =>
      o.arguments[pos]?.map (s.caught o w pos attempt · error)
    | _ => none
  | .acknowledge w =>
    match s.workers[w]? with
    | some (.committing _ _) => some (s.put w .looping)
    | _ => none
  | .refuse w error =>
    match s.workers[w]? with
    | some (.committing pos attempt) =>
      o.arguments[pos]?.map (s.caught o w pos attempt · error)
    | _ => none
  | .wake w =>
    match s.workers[w]? with
    | some (.delaying pos attempt) =>
      if s.aborted then some (s.put w .returned)
      else o.arguments[pos]?.map (s.callHandler w pos (attempt + 1))
    | _ => none
  | .abort => if o.signal then some { s with aborted := true } else none
  | .finish =>
    if s.workers.all (· = .returned) ∧ s.error = none ∧ s.crashed = false ∧ s.result = none then
      some { s with result := some s.checkpoint }
    else none

end Backfill

/-! ## The rule and its condition -/

section

variable {T : Type u} (o : BackfillOptions T) (s : Backfill T)

/-- Every batch after the initial checkpoint up to an index was handled. -/
def Backfill.CompletedUpTo (k : ℤ) : Prop :=
  ∀ batch ∈ o.batches, o.initialCheckpoint < batch.index → batch.index ≤ k →
    (batch.index, batch.data) ∈ s.completed

structure Backfill.Safe : Prop where
  /-- The handler gets the data of the batch whose index it gets. -/
  paired : ∀ call ∈ s.calls, ∃ batch ∈ o.batches, call = (batch.index, batch.data)
  nondecreasing : s.emitted.Pairwise (· ≤ ·)
  emitted : ∀ k ∈ s.emitted, s.CompletedUpTo o k
  returned : ∀ k ∈ s.result, s.CompletedUpTo o k

/-- The checkpoint can come past an index. -/
def BackfillOptions.Contiguous (i : ℤ) : Prop :=
  o.initialCheckpoint < i ∧ ∀ j, o.initialCheckpoint < j → j ≤ i → j ∈ o.indices

/-- The data at each position is that of a batch with the index at that position, and no two
batches have an index that the checkpoint can come past. -/
structure BackfillOptions.InOrder : Prop where
  aligned : ∀ argument ∈ o.arguments, ∃ batch ∈ o.batches, argument = (batch.index, batch.data)
  distinct : ∀ batch ∈ o.batches, ∀ batch' ∈ o.batches, batch.index = batch'.index →
    o.Contiguous batch.index → batch = batch'

end

theorem BackfillOptions.InOrder.congr {T : Type u} {o o' : BackfillOptions T} (h : o.InOrder)
    (hbatches : o'.batches = o.batches)
    (hinitial : o'.initialCheckpoint = o.initialCheckpoint) : o'.InOrder := by
  cases o
  cases o'
  dsimp only at hbatches hinitial
  subst hbatches hinitial
  exact ⟨h.aligned, h.distinct⟩

/-! ## What every step keeps -/

namespace Backfill

variable {T : Type u} {o : BackfillOptions T} {s s' : Backfill T} {w pos attempt : ℕ}
  {argument : ℤ × T}

/-- What is done was handled, and the checkpoint has passed only what is done. -/
structure Sound (o : BackfillOptions T) (s : Backfill T) : Prop where
  done : ∀ i, s.status i = some .done → ∃ argument ∈ s.completed, argument.1 = i
  calls : ∀ argument ∈ s.calls, argument ∈ o.arguments
  completed : ∀ argument ∈ s.completed, argument ∈ o.arguments
  passed : ∀ j, o.initialCheckpoint < j → j ≤ s.checkpoint →
    ∃ argument ∈ s.completed, argument.1 = j
  emitted : ∀ k ∈ s.emitted, k ≤ s.checkpoint
  nondecreasing : s.emitted.Pairwise (· ≤ ·)
  result : ∀ k ∈ s.result, k ≤ s.checkpoint

theorem Sound.init : (init o).Sound o where
  done i h := by
    rw [Backfill.init] at h
    dsimp only at h
    split_ifs at h
    cases h
  calls _ h := absurd h List.not_mem_nil
  completed _ h := absurd h List.not_mem_nil
  passed _ hbehind hpassed := absurd hpassed (not_le.mpr hbehind)
  emitted _ h := absurd h List.not_mem_nil
  nondecreasing := List.Pairwise.nil
  result _ h := nomatch h

theorem Sound.put (h : s.Sound o) (progress : WorkerProgress) : (s.put w progress).Sound o :=
  ⟨h.done, h.calls, h.completed, h.passed, h.emitted, h.nondecreasing, h.result⟩

theorem Sound.callHandler (h : s.Sound o) (hargument : argument ∈ o.arguments) :
    (s.callHandler w pos attempt argument).Sound o := by
  refine ⟨h.done, fun call hcall => ?_, h.completed, h.passed, h.emitted, h.nondecreasing,
    h.result⟩
  rcases List.mem_append.mp hcall with hold | hnew
  · exact h.calls call hold
  · rw [List.mem_singleton.mp hnew]
    exact hargument

theorem Sound.claim (h : s.Sound o) : (s.claim o w).Sound o := by
  have htaken : Sound o { s with next := s.next + 1 } :=
    ⟨h.done, h.calls, h.completed, h.passed, h.emitted, h.nondecreasing, h.result⟩
  rw [Backfill.claim]
  cases hargument : o.arguments[s.next]? with
  | none => exact htaken.put .returned
  | some =>
    dsimp only
    split_ifs
    · exact htaken.callHandler (List.mem_of_getElem? hargument)
    · exact htaken.put .looping

theorem Sound.caught (h : s.Sound o) (error : String) :
    (s.caught o w pos attempt argument error).Sound o := by
  rw [Backfill.caught]
  split_ifs
  · refine ⟨fun i hi => ?_, h.calls, h.completed, h.passed, h.emitted, h.nondecreasing, h.result⟩
    dsimp only at hi
    by_cases hself : i = argument.1
    · rw [hself, Function.update_self] at hi
      cases hi
    · rw [Function.update_of_ne hself] at hi
      exact h.done i hi
  · exact h.put _

theorem Sound.commit (h : s.Sound o) (hargument : argument ∈ o.arguments) :
    (s.commit o w pos attempt argument).Sound o := by
  let status := Function.update s.status argument.1 (some BatchStatus.done)
  let checkpoint :=
    Frontier.advance (fun i => status i = some .done) o.batches.length s.checkpoint
  have hforward : s.checkpoint ≤ checkpoint := Frontier.le_advance _ _
  have hdone : ∀ i, status i = some .done →
      ∃ argument' ∈ s.completed ++ [argument], argument'.1 = i := by
    intro i hi
    by_cases hself : i = argument.1
    · exact ⟨argument, List.mem_append_right _ (List.mem_singleton_self _), hself.symm⟩
    · rw [show status i = s.status i from Function.update_of_ne hself _ _] at hi
      obtain ⟨argument', hmem, hindex⟩ := h.done i hi
      exact ⟨argument', List.mem_append_left _ hmem, hindex⟩
  have hcommitted : Sound o { s with
      status := status
      checkpoint := checkpoint
      completed := s.completed ++ [argument] } := by
    refine ⟨hdone, h.calls, fun argument' hmem => ?_, fun j hbehind hpassed => ?_,
      fun k hk => (h.emitted k hk).trans hforward, h.nondecreasing,
      fun k hk => (h.result k hk).trans hforward⟩
    · rcases List.mem_append.mp hmem with hold | hnew
      · exact h.completed argument' hold
      · rw [List.mem_singleton.mp hnew]
        exact hargument
    · by_cases hold : j ≤ s.checkpoint
      · obtain ⟨argument', hmem, hindex⟩ := h.passed j hbehind hold
        exact ⟨argument', List.mem_append_left _ hmem, hindex⟩
      · exact hdone j (of_decide_eq_true (Frontier.done_of_le_advance (not_le.mp hold) hpassed))
  rw [Backfill.commit]
  dsimp only
  split_ifs
  · refine ⟨hcommitted.done, hcommitted.calls, hcommitted.completed, hcommitted.passed,
      fun k hk => ?_, ?_, hcommitted.result⟩
    · rcases List.mem_append.mp hk with hold | hnew
      · exact hcommitted.emitted k hold
      · exact (List.mem_singleton.mp hnew).le
    · refine List.pairwise_append.mpr ⟨h.nondecreasing, List.pairwise_singleton _ _, ?_⟩
      intro k hk last hlast
      rw [List.mem_singleton.mp hlast]
      exact hcommitted.emitted k hk
  · exact hcommitted.put .looping

theorem commit_status :
    (s.commit o w pos attempt argument).status =
      Function.update s.status argument.1 (some .done) := by
  rw [Backfill.commit]
  dsimp only
  split_ifs <;> rfl

theorem commit_checkpoint :
    (s.commit o w pos attempt argument).checkpoint =
      Frontier.advance (fun i => (s.commit o w pos attempt argument).status i = some .done)
        o.batches.length s.checkpoint := by
  rw [commit_status, Backfill.commit]
  dsimp only
  split_ifs <;> rfl

theorem fst_mem_indices (hargument : argument ∈ o.arguments) : argument.1 ∈ o.indices :=
  (List.of_mem_zip hargument).1

theorem length_indices : o.indices.length = o.batches.length := by
  rw [BackfillOptions.indices, List.length_insertionSort, List.length_map]

theorem Sound.commit_stops (h : s.Sound o) (hargument : argument ∈ o.arguments) :
    (s.commit o w pos attempt argument).status
      ((s.commit o w pos attempt argument).checkpoint + 1) ≠ some .done := by
  have hcommit : Sound o (s.commit o w pos attempt argument) := h.commit hargument
  let isDone : ℤ → Bool := fun i => (s.commit o w pos attempt argument).status i = some .done
  have hstops : isDone (Frontier.advance isDone o.indices.length s.checkpoint + 1) = false := by
    refine Frontier.advance_stops (fun j hj => ?_) s.checkpoint
    obtain ⟨argument', hmem, rfl⟩ := hcommit.done j (of_decide_eq_true hj)
    exact fst_mem_indices (hcommit.completed argument' hmem)
  rw [length_indices] at hstops
  rw [commit_checkpoint]
  exact of_decide_eq_false hstops

theorem Sound.step (h : s.Sound o) {label : BackfillStep} (hstep : s.step o label = some s') :
    s'.Sound o := by
  cases label with
  | enter =>
    rw [Backfill.step] at hstep
    split at hstep
    · cases hstep
      exact h.put _
    · cases hstep
  | claim =>
    rw [Backfill.step] at hstep
    split at hstep
    · cases hstep
      split_ifs
      · exact h.put _
      · exact h.claim
    · cases hstep
  | crash w =>
    rw [Backfill.step] at hstep
    split at hstep
    · cases hstep
      have hput := h.put (w := w) .returned
      exact ⟨hput.done, hput.calls, hput.completed, hput.passed, hput.emitted,
        hput.nondecreasing, hput.result⟩
    · cases hstep
  | succeed =>
    rw [Backfill.step] at hstep
    split at hstep
    · obtain ⟨argument, hargument, rfl⟩ := Option.map_eq_some_iff.mp hstep
      exact h.commit (List.mem_of_getElem? hargument)
    · cases hstep
  | reject _ error =>
    rw [Backfill.step] at hstep
    split at hstep
    · obtain ⟨argument, -, rfl⟩ := Option.map_eq_some_iff.mp hstep
      exact h.caught error
    · cases hstep
  | acknowledge =>
    rw [Backfill.step] at hstep
    split at hstep
    · cases hstep
      exact h.put _
    · cases hstep
  | refuse _ error =>
    rw [Backfill.step] at hstep
    split at hstep
    · obtain ⟨argument, -, rfl⟩ := Option.map_eq_some_iff.mp hstep
      exact h.caught error
    · cases hstep
  | wake =>
    rw [Backfill.step] at hstep
    split at hstep
    · split_ifs at hstep
      · cases hstep
        exact h.put _
      · obtain ⟨argument, hargument, rfl⟩ := Option.map_eq_some_iff.mp hstep
        exact h.callHandler (List.mem_of_getElem? hargument)
    · cases hstep
  | abort =>
    rw [Backfill.step] at hstep
    split_ifs at hstep
    cases hstep
    exact ⟨h.done, h.calls, h.completed, h.passed, h.emitted, h.nondecreasing, h.result⟩
  | finish =>
    rw [Backfill.step] at hstep
    split_ifs at hstep
    cases hstep
    refine ⟨h.done, h.calls, h.completed, h.passed, h.emitted, h.nondecreasing, fun k hk => ?_⟩
    cases hk
    exact le_rfl

/-! ## Runs -/

theorem Sound.completedUpTo (h : s.Sound o) (hordered : o.InOrder) {k : ℤ}
    (hk : k ≤ s.checkpoint) : s.CompletedUpTo o k := by
  intro batch hbatch hbehind hpassed
  have hreached : ∀ j, o.initialCheckpoint < j → j ≤ batch.index →
      ∃ argument ∈ s.completed, argument.1 = j :=
    fun j hj hle => h.passed j hj (hle.trans (hpassed.trans hk))
  have hcontiguous : o.Contiguous batch.index := by
    refine ⟨hbehind, fun j hj hle => ?_⟩
    obtain ⟨argument, hmem, rfl⟩ := hreached j hj hle
    exact fst_mem_indices (h.completed argument hmem)
  obtain ⟨argument, hmem, hindex⟩ := hreached batch.index hbehind le_rfl
  obtain ⟨batch', hbatch', rfl⟩ := hordered.aligned argument (h.completed argument hmem)
  obtain rfl := hordered.distinct batch hbatch batch' hbatch' hindex.symm hcontiguous
  exact hmem

theorem Sound.safe (h : s.Sound o) (hordered : o.InOrder) : s.Safe o where
  paired call hcall := hordered.aligned call (h.calls call hcall)
  nondecreasing := h.nondecreasing
  emitted k hk := h.completedUpTo hordered (h.emitted k hk)
  returned k hk := h.completedUpTo hordered (h.result k hk)

theorem sound_of_reaches
    (hrun : Reaches (fun s label => Backfill.step o s label) (fun _ _ => True) (init o) s) :
    s.Sound o :=
  hrun.invariant (fun _ _ _ h _ hstep => h.step hstep) Sound.init

/-! ## A single worker -/

variable (o) in
/-- The same batches for one worker, with one attempt, no callback and an abort signal. -/
def oneWorker : BackfillOptions T :=
  { batches := o.batches, initialCheckpoint := o.initialCheckpoint, concurrency := 1,
    retryLimit := 1, signal := true }

variable (o) in
/-- The first batches have been handled, one after another. -/
structure Rounds (n : ℕ) (s : Backfill T) : Prop where
  next : s.next = n
  workers : s.workers = [.looping]
  going : s.stopped = false
  crashed : s.crashed = false
  result : s.result = none
  calls : s.calls = o.arguments.take n
  completed : s.completed = o.arguments.take n
  done : ∀ argument ∈ o.arguments.take n, s.status argument.1 = some .done
  behind : o.initialCheckpoint ≤ s.checkpoint
  front : n ≠ 0 → s.status (s.checkpoint + 1) ≠ some .done

theorem workerCount_oneWorker : (oneWorker o).workerCount = 1 := by
  rw [BackfillOptions.workerCount, oneWorker]
  dsimp only
  omega

theorem Rounds.init : Rounds o 0 (init (oneWorker o)) where
  next := rfl
  workers := by rw [Backfill.init, workerCount_oneWorker]; rfl
  going := rfl
  crashed := rfl
  result := rfl
  calls := List.take_zero.symm
  completed := List.take_zero.symm
  done _ h := absurd h List.not_mem_nil
  behind := le_rfl
  front h := absurd rfl h

theorem Rounds.round {n : ℕ} (h : Rounds o n s) (hsound : s.Sound (oneWorker o))
    (hn : n < o.arguments.length) :
    ∃ s', run (fun s label => Backfill.step (oneWorker o) s label) s
      [.enter 0, .claim 0, .succeed 0] = some s' ∧ Rounds o (n + 1) s' := by
  have hargument : (oneWorker o).arguments[n]? = some o.arguments[n] :=
    List.getElem?_eq_getElem hn
  have hmem : o.arguments[n] ∈ (oneWorker o).arguments := List.getElem_mem hn
  have htake : o.arguments.take (n + 1) = o.arguments.take n ++ [o.arguments[n]] :=
    (List.take_append_getElem hn).symm
  let waiting := s.put 0 .waiting
  let handling := { waiting with next := n + 1 }.callHandler 0 n 1 o.arguments[n]
  have henter : s.step (oneWorker o) (.enter 0) = some waiting := by
    rw [Backfill.step, h.workers]
    simp only [List.getElem?_cons_zero, h.going]
    rfl
  have hclaim : waiting.step (oneWorker o) (.claim 0) = some handling := by
    have hworkers : waiting.workers = [.waiting] := by
      change s.workers.set 0 .waiting = _
      rw [h.workers]
      rfl
    have hgoing : waiting.stopped = false := h.going
    rw [Backfill.step, hworkers]
    simp only [List.getElem?_cons_zero, hgoing]
    rw [Backfill.claim, show waiting.next = n from h.next, hargument]
    rfl
  have hsucceed : handling.step (oneWorker o) (.succeed 0) =
      some (handling.commit (oneWorker o) 0 n 1 o.arguments[n]) := by
    have hworkers : handling.workers = [.handling n 1] := by
      change (s.workers.set 0 .waiting).set 0 (.handling n 1) = _
      rw [h.workers]
      rfl
    rw [Backfill.step, hworkers]
    simp only [List.getElem?_cons_zero, hargument]
    rfl
  have hhandling : handling.Sound (oneWorker o) := by
    have hnext : Sound (oneWorker o) { waiting with next := n + 1 } := by
      have hput := hsound.put (w := 0) .waiting
      exact ⟨hput.done, hput.calls, hput.completed, hput.passed, hput.emitted,
        hput.nondecreasing, hput.result⟩
    exact hnext.callHandler hmem
  refine ⟨handling.commit (oneWorker o) 0 n 1 o.arguments[n], ?_, ?_⟩
  · rw [run_cons henter, run_cons hclaim, run_cons hsucceed]
    rfl
  · refine ⟨rfl, ?_, h.going, h.crashed, h.result, ?_, ?_, fun argument hargument' => ?_, ?_,
      fun _ => hhandling.commit_stops hmem⟩
    · change ((s.workers.set 0 .waiting).set 0 (.handling n 1)).set 0 .looping = _
      rw [h.workers]
      rfl
    · change s.calls ++ [o.arguments[n]] = _
      rw [h.calls, htake]
    · change s.completed ++ [o.arguments[n]] = _
      rw [h.completed, htake]
    · rw [commit_status]
      by_cases hself : argument.1 = o.arguments[n].1
      · rw [hself, Function.update_self]
      · rw [Function.update_of_ne hself]
        rw [htake] at hargument'
        rcases List.mem_append.mp hargument' with hold | hnew
        · exact h.done argument hold
        · exact absurd (congrArg Prod.fst (List.mem_singleton.mp hnew)) hself
    · rw [commit_checkpoint]
      exact h.behind.trans (Frontier.le_advance _ _)

theorem exists_rounds {n : ℕ} (hn : n ≤ o.arguments.length) :
    ∃ s, Reaches (fun s label => Backfill.step (oneWorker o) s label) (fun _ _ => True)
      (Backfill.init (oneWorker o)) s ∧ Rounds o n s := by
  induction n with
  | zero => exact ⟨_, Reaches.refl _, .init⟩
  | succ _ ih =>
    obtain ⟨s, hrun, hrounds⟩ := ih (Nat.le_of_succ_le hn)
    obtain ⟨s', hround, hnext⟩ := hrounds.round (sound_of_reaches hrun) hn
    have hreaches : Reaches (fun s label => Backfill.step (oneWorker o) s label)
        (fun _ _ => True) s s' :=
      Reaches.of_run (fun _ label (_ : label ∈ [.enter 0, .claim 0, .succeed 0]) => trivial)
        hround
    exact ⟨s', hrun.trans hreaches, hnext⟩

theorem Rounds.abort {n : ℕ} (h : Rounds o n s) :
    ∃ s', Reaches (fun s label => Backfill.step (oneWorker o) s label) (fun _ _ => True) s s' ∧
      s'.result = some s.checkpoint ∧ s'.completed = s.completed := by
  have herror : s.error = none := by
    have hgoing := h.going
    rw [Backfill.stopped, Bool.or_eq_false_iff] at hgoing
    exact Option.isNone_iff_eq_none.mp (by rw [← Option.not_isSome, hgoing.1]; rfl)
  let aborted := { s with aborted := true }
  let ended := aborted.put 0 .returned
  have habort : s.step (oneWorker o) .abort = some aborted := rfl
  have henter : aborted.step (oneWorker o) (.enter 0) = some ended := by
    have hstopped : aborted.stopped = true := Bool.or_true _
    rw [Backfill.step, show aborted.workers = [.looping] from h.workers]
    simp only [List.getElem?_cons_zero, hstopped]
    rfl
  have hfinish : ended.step (oneWorker o) .finish =
      some { ended with result := some s.checkpoint } := by
    have hworkers : ended.workers = [.returned] := by
      change s.workers.set 0 .returned = _
      rw [h.workers]
      rfl
    rw [Backfill.step, hworkers, if_pos ⟨rfl, herror, h.crashed, h.result⟩]
    rfl
  refine ⟨_, ((((Reaches.refl s).tail trivial habort).tail trivial henter).tail trivial hfinish),
    rfl, rfl⟩

theorem map_fst_take (n : ℕ) : (o.arguments.take n).map Prod.fst = o.indices.take n := by
  have hlength : o.indices.length ≤ (o.batches.map (·.data)).length := by
    rw [length_indices, List.length_map]
  rw [List.map_take, BackfillOptions.arguments, List.map_fst_zip hlength]

theorem mem_take_of_le {i j : ℤ} {front back : List ℤ} (hi : o.indices = front ++ i :: back)
    (hj : j ∈ o.indices) (hle : j ≤ i) : j ∈ front ++ [i] := by
  have hsorted : o.indices.Pairwise (· ≤ ·) := List.pairwise_insertionSort _ _
  rw [hi] at hj hsorted
  rcases List.mem_append.mp hj with hfront | hrest
  · exact List.mem_append_left _ hfront
  · rcases List.mem_cons.mp hrest with rfl | hback
    · exact List.mem_append_right _ (List.mem_singleton_self _)
    · have hge := (List.pairwise_cons.mp (List.pairwise_append.mp hsorted).2.1).1 j hback
      rw [le_antisymm hle hge]
      exact List.mem_append_right _ (List.mem_singleton_self _)

theorem Rounds.le_checkpoint {i : ℤ} {front back : List ℤ} (hi : o.indices = front ++ i :: back)
    (hcontiguous : o.Contiguous i) (h : Rounds o (front.length + 1) s) : i ≤ s.checkpoint := by
  by_contra hahead
  have hnext : s.checkpoint + 1 ≤ i := Int.add_one_le_of_lt (not_le.mp hahead)
  have hmem := mem_take_of_le hi
    (hcontiguous.2 (s.checkpoint + 1) (Int.lt_add_one_of_le h.behind) hnext) hnext
  have htake : (o.arguments.take (front.length + 1)).map Prod.fst = front ++ [i] := by
    rw [map_fst_take, hi, ← List.singleton_append, ← List.append_assoc,
      show front.length + 1 = (front ++ [i]).length by rw [List.length_append]; rfl,
      List.take_left]
  rw [← htake] at hmem
  obtain ⟨argument, hargument, hindex⟩ := List.mem_map.mp hmem
  exact h.front (Nat.succ_ne_zero _) (hindex ▸ h.done argument hargument)

theorem eq_of_mem_take {i : ℤ} {front back : List ℤ} (hi : o.indices = front ++ i :: back)
    (hnew : i ∉ front) {argument argument' : ℤ × T} (hindex : argument.1 = i)
    (hindex' : argument'.1 = i) (hmem : argument ∈ o.arguments.take (front.length + 1))
    (hmem' : argument' ∈ o.arguments.take (front.length + 1)) : argument = argument' := by
  have hfront : (o.arguments.take front.length).map Prod.fst = front := by
    rw [map_fst_take, hi, List.take_left]
  have hlast : ∀ a ∈ o.arguments.take (front.length + 1), a.1 = i →
      o.arguments[front.length]? = some a := by
    intro a ha hai
    rw [List.take_add_one, List.mem_append] at ha
    rcases ha with hold | hat
    · refine absurd ?_ hnew
      rw [← hfront, ← hai]
      exact List.mem_map_of_mem hold
    · exact Option.mem_toList.mp hat
  exact Option.some.inj ((hlast argument hmem hindex).symm.trans (hlast argument' hmem' hindex'))

theorem inOrder_of_safe (hsafe : ∀ o' : BackfillOptions T, o'.batches = o.batches →
    o'.initialCheckpoint = o.initialCheckpoint → ∀ s : Backfill T,
      Reaches (fun s label => Backfill.step o' s label) (fun _ _ => True) (Backfill.init o') s →
        s.Safe o') : o.InOrder := by
  refine ⟨fun argument hmem => ?_, fun batch hbatch batch' hbatch' hsame hcontiguous => ?_⟩
  · obtain ⟨n, hn, rfl⟩ := List.mem_iff_getElem.mp hmem
    obtain ⟨s, hrun, hrounds⟩ := exists_rounds hn
    refine (hsafe (oneWorker o) rfl rfl s hrun).paired _ ?_
    rw [hrounds.calls, List.take_succ_eq_append_getElem hn]
    exact List.mem_append_right _ (List.mem_singleton_self _)
  · obtain ⟨front, back, hi, hnew⟩ := List.eq_append_cons_of_mem
      (hcontiguous.2 batch.index hcontiguous.1 le_rfl)
    have hlength : front.length + 1 ≤ o.arguments.length := by
      have hindices := congrArg List.length hi
      rw [List.length_append, List.length_cons, length_indices] at hindices
      rw [BackfillOptions.arguments, List.length_zip, length_indices, List.length_map, min_self]
      omega
    obtain ⟨s, hrun, hrounds⟩ := exists_rounds hlength
    obtain ⟨s', hrest, hresult, hcompleted⟩ := hrounds.abort
    have hpassed := hrounds.le_checkpoint hi hcontiguous
    have hdone := (hsafe (oneWorker o) rfl rfl s' (hrun.trans hrest)).returned _ hresult
    rw [CompletedUpTo, hcompleted, hrounds.completed] at hdone
    have hpair := eq_of_mem_take hi hnew rfl hsame.symm
      (hdone batch hbatch hcontiguous.1 hpassed)
      (hdone batch' hbatch' (hsame ▸ hcontiguous.1) (hsame ▸ hpassed))
    obtain ⟨index, data⟩ := batch
    obtain ⟨index', data'⟩ := batch'
    cases hpair
    rfl

/-- The batches of a list are handled safely under every schedule, with every number of workers
and of attempts, exactly when they are in order: each batch gets its own data, and the
checkpoints that are emitted or returned have only what was handled behind them. -/
theorem safe_iff_inOrder (o : BackfillOptions T) :
    (∀ o' : BackfillOptions T, o'.batches = o.batches →
      o'.initialCheckpoint = o.initialCheckpoint → ∀ s : Backfill T,
        Reaches (fun s label => Backfill.step o' s label) (fun _ _ => True) (Backfill.init o') s →
          s.Safe o') ↔ o.InOrder := by
  apply Iff.intro
  · exact inOrder_of_safe
  · intro hordered o' hbatches hinitial s hrun
    exact (sound_of_reaches hrun).safe (hordered.congr hbatches hinitial)

/-- Whatever the order of the batches and whatever fails, the checkpoint has an index behind it only
when a call of the handler for it was resolved, and what is emitted never decreases. -/
theorem checkpoint_handled (o : BackfillOptions T) (labels : List BackfillStep) :
    EveryStep (fun s label => Backfill.step o s label) (fun _ _ s' =>
      (∀ j, o.initialCheckpoint < j → j ≤ s'.checkpoint →
        ∃ argument ∈ s'.completed, argument.1 = j) ∧
      s'.emitted.Pairwise (· ≤ ·) ∧ (∀ k ∈ s'.emitted, k ≤ s'.checkpoint) ∧
      (∀ k ∈ s'.result, k ≤ s'.checkpoint) ∧ ∀ argument ∈ s'.calls, argument ∈ o.arguments)
      (Backfill.init o) labels := by
  refine everyStep_of_invariant (Backfill.Sound o) (fun s label s' hsound hstep => ?_) labels .init
  have h := hsound.step hstep
  exact ⟨⟨h.passed, h.nondecreasing, h.emitted, h.result, h.calls⟩, h⟩

/-! ### A list that is not in order -/

def reversed : BackfillOptions String where
  batches := [⟨1, "second"⟩, ⟨0, "first"⟩]
  concurrency := 1

/-- The handler gets the first index with the data of the second batch. -/
theorem reversed_mispaired : ∃ s : Backfill String,
    Reaches (fun s label => Backfill.step reversed s label) (fun _ _ => True) (init reversed) s ∧
      (0, "second") ∈ s.calls ∧ ¬ s.Safe reversed := by
  obtain ⟨s, hrun, hcalls⟩ : ∃ s, run (fun s label => Backfill.step reversed s label)
      (init reversed) [.enter 0, .claim 0] = some s ∧ s.calls = [(0, "second")] := ⟨_, rfl, rfl⟩
  have hcall : (0, "second") ∈ s.calls := hcalls ▸ List.mem_singleton_self _
  refine ⟨s, Reaches.of_run (fun _ _ _ => trivial) hrun, hcall, fun hsafe => ?_⟩
  obtain ⟨batch, hbatch, heq⟩ := hsafe.paired _ hcall
  rcases List.mem_cons.mp hbatch with rfl | hbatch
  · cases heq
  · rw [List.mem_singleton.mp hbatch] at heq
    exact absurd (congrArg Prod.snd heq) (by decide)

end Backfill

end Fluxora.Indexer
