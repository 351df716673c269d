/-
# Ordered backfill

The ledgers of a range are cut into batches, and the batches are processed in waves of bounded
size. The checkpoint is the end of the batches that succeeded without a failed one before them.
-/

import Mathlib.Data.List.TakeWhile
import Mathlib.Data.Rat.Floor

namespace Fluxora.Indexer.OrderedBackfill

/-! ## Batches -/

structure BackfillBatch where
  fromLedger : ℤ
  toLedger : ℤ
  index : ℕ
  deriving DecidableEq

namespace BackfillBatch

variable (batch : BackfillBatch)

def Contains (ledger : ℤ) : Prop := batch.fromLedger ≤ ledger ∧ ledger ≤ batch.toLedger

instance (ledger : ℤ) : Decidable (batch.Contains ledger) := inferInstanceAs (Decidable (_ ∧ _))

end BackfillBatch

/-- The options as they are given. -/
structure BackfillOptions where
  concurrency : Option ℚ := none
  batchSize : Option ℚ := none
  maxRetries : Option ℚ := none

/-- `Math.max(least, Math.floor(given ?? default))` -/
def wholeOption (least : ℕ) (given : Option ℚ) (default : ℕ) : ℕ :=
  (max (least : ℤ) ⌊given.getD default⌋).toNat

theorem le_wholeOption (least : ℕ) (given : Option ℚ) (default : ℕ) :
    least ≤ wholeOption least given default := by
  have hmax : (least : ℤ) ≤ max (least : ℤ) ⌊given.getD default⌋ := le_max_left _ _
  rw [wholeOption]
  omega

/-- The options of a scheduler. -/
structure Options where
  concurrency : ℕ
  batchSize : ℕ
  maxRetries : ℕ
  one_le_concurrency : 1 ≤ concurrency
  one_le_batchSize : 1 ≤ batchSize

def BackfillOptions.toOptions (options : BackfillOptions) : Options where
  concurrency := wholeOption 1 options.concurrency 4
  batchSize := wholeOption 1 options.batchSize 100
  maxRetries := wholeOption 0 options.maxRetries 2
  one_le_concurrency := le_wholeOption 1 _ _
  one_le_batchSize := le_wholeOption 1 _ _

variable (o : Options)

/-- The loop of `buildBatches` from a first ledger and index on. -/
def batchesFrom (toLedger start : ℤ) (index : ℕ) : List BackfillBatch :=
  if start ≤ toLedger then
    let finish := min toLedger (start + o.batchSize - 1)
    { fromLedger := start, toLedger := finish, index } ::
      batchesFrom toLedger (finish + 1) (index + 1)
  else []
termination_by (toLedger + 1 - start).toNat
decreasing_by
  have hsize := o.one_le_batchSize
  omega

def buildBatches (fromLedger toLedger : ℤ) : List BackfillBatch :=
  batchesFrom o toLedger fromLedger 0

/-! ## One batch -/

/-- What one call of the processor ends with, for each batch and attempt. -/
abbrev BackfillBatchProcessor : Type := BackfillBatch → ℕ → Except String Unit

structure BatchError where
  message : String
  attempts : ℕ
  errors : List String
  deriving DecidableEq

variable (processBatch : BackfillBatchProcessor)

/-- The attempts from one on, with how many there are left. -/
def attemptsFrom (batch : BackfillBatch) : ℕ → ℕ → List String → Except BatchError Unit
  | 0, _, errors =>
    .error
      { message := s!"Batch {batch.index} failed after {o.maxRetries + 1} attempts"
        attempts := o.maxRetries + 1
        errors }
  | left + 1, attempt, errors =>
    match processBatch batch attempt with
    | .ok () => .ok ()
    | .error message =>
      attemptsFrom batch left (attempt + 1) (errors ++ [s!"attempt {attempt}: {message}"])

def processWithRetries (batch : BackfillBatch) : Except BatchError Unit :=
  attemptsFrom o processBatch batch (o.maxRetries + 1) 1 []

/-- One of the attempts that a batch has succeeds. -/
def Succeeds (batch : BackfillBatch) : Prop :=
  ∃ attempt ∈ List.range' 1 (o.maxRetries + 1), (processBatch batch attempt).isOk

instance : DecidablePred (Succeeds o processBatch) := fun _ =>
  inferInstanceAs (Decidable (∃ attempt ∈ List.range' 1 (o.maxRetries + 1), _))

/-! ## The waves -/

structure BackfillFailure where
  batchIndex : ℕ
  fromLedger : ℤ
  toLedger : ℤ
  attempts : ℕ
  errors : List String
  deriving DecidableEq

structure BackfillResult where
  ok : Bool
  lastCheckpointLedger : Option ℤ
  failures : List BackfillFailure
  processedBatches : ℕ
  deriving DecidableEq

/-- The variables of `run`. -/
structure Progress where
  failures : List BackfillFailure := []
  checkpointLedger : Option ℤ := none
  processedBatches : ℕ := 0
  /-- The values that the callback was called with. -/
  passed : List (Option ℤ) := []
  deriving DecidableEq

def failureOf (batchIndex : ℕ) (batch : BackfillBatch) (reason : BatchError) :
    BackfillFailure where
  batchIndex
  fromLedger := batch.fromLedger
  toLedger := batch.toLedger
  attempts := reason.attempts
  errors := if reason.errors = [] then ["Error: " ++ reason.message] else reason.errors

/-- The results of a wave from one of its positions on, up to the first that is rejected. The
position of that one is returned. -/
def collect (start : ℕ) :
    ℕ → List (BackfillBatch × Except BatchError Unit) → Progress → Option ℕ × Progress
  | _, [], p => (none, p)
  | i, (batch, .error reason) :: _, p =>
    (some i, { p with failures := p.failures ++ [failureOf (start + i) batch reason] })
  | i, (batch, .ok ()) :: rest, p =>
    collect start (i + 1) rest
      { p with
        checkpointLedger := some batch.toLedger
        processedBatches := p.processedBatches + 1 }

/-- What a call of the callback ends with, for each position of the call. -/
abbrev OnCheckpoint : Type := ℕ → Option ℤ → Except String Unit

inductive RunError
  /-- `Invalid ledger range [fromLedger, toLedger]` -/
  | invalidLedgerRange (fromLedger toLedger : ℚ)
  /-- `Backfill cannot advance past live cursor (liveCursor)` -/
  | pastLiveCursor (liveCursor : ℚ)
  /-- The callback rejects. -/
  | onCheckpoint (error : String)
  deriving DecidableEq

variable (onCheckpoint : OnCheckpoint)

/-- A wave of batches with what they end with. -/
def withResults (wave : List BackfillBatch) : List (BackfillBatch × Except BatchError Unit) :=
  wave.map fun batch => (batch, processWithRetries o processBatch batch)

def waves (batches : List BackfillBatch) (start : ℕ) (p : Progress) :
    Progress × Except RunError Unit :=
  if start < batches.length then
    let wave := (batches.drop start).take o.concurrency
    match collect start 0 (withResults o processBatch wave) p with
    | (some _, settled) => (settled, .ok ())
    | (none, settled) =>
      let called := { settled with passed := settled.passed ++ [settled.checkpointLedger] }
      match onCheckpoint settled.passed.length settled.checkpointLedger with
      | .error error => (called, .error (.onCheckpoint error))
      | .ok () => waves batches (start + o.concurrency) called
  else (p, .ok ())
termination_by batches.length - start
decreasing_by
  have hconcurrency := o.one_le_concurrency
  omega

/-- The values that the callback gets, and what the run ends with. -/
def run (fromLedger toLedger liveCursor : ℚ) :
    List (Option ℤ) × Except RunError BackfillResult :=
  if ¬fromLedger.isInt ∨ ¬toLedger.isInt ∨ toLedger < fromLedger then
    ([], .error (.invalidLedgerRange fromLedger toLedger))
  else if liveCursor < toLedger then ([], .error (.pastLiveCursor liveCursor))
  else
    let ended := waves o processBatch onCheckpoint (buildBatches o fromLedger.num toLedger.num) 0 {}
    (ended.1.passed, ended.2.map fun _ =>
      { ok := ended.1.failures.isEmpty
        lastCheckpointLedger := ended.1.checkpointLedger
        failures := ended.1.failures
        processedBatches := ended.1.processedBatches })

/-! ## The batches cut the range -/

variable {o processBatch onCheckpoint}

/-- Each batch is a part of the range, and each ledger of the range is in the batch at exactly
one position. -/
structure Partitions (batches : List BackfillBatch) (fromLedger toLedger : ℤ) : Prop where
  inside : ∀ batch ∈ batches,
    fromLedger ≤ batch.fromLedger ∧ batch.fromLedger ≤ batch.toLedger ∧ batch.toLedger ≤ toLedger
  once : ∀ ledger, fromLedger ≤ ledger → ledger ≤ toLedger →
    ∃! i : ℕ, ∃ batch : BackfillBatch, batches[i]? = some batch ∧ batch.Contains ledger

theorem getElem?_batchesFrom (toLedger start : ℤ) (index i : ℕ) :
    (batchesFrom o toLedger start index)[i]? =
      if start + i * o.batchSize ≤ toLedger then
        some
          { fromLedger := start + i * o.batchSize
            toLedger := min toLedger (start + i * o.batchSize + o.batchSize - 1)
            index := index + i }
      else none := by
  have hsize := o.one_le_batchSize
  induction i generalizing start index with
  | zero =>
    rw [batchesFrom]
    by_cases hstart : start ≤ toLedger <;> simp [hstart]
  | succ i ih =>
    rw [batchesFrom]
    by_cases hstart : start ≤ toLedger
    · rw [if_pos hstart, List.getElem?_cons_succ, ih]
      have hmul : ((i + 1 : ℕ) : ℤ) * o.batchSize = i * o.batchSize + o.batchSize := by
        push_cast
        ring
      have hnonneg : (0 : ℤ) ≤ i * o.batchSize := by positivity
      rw [hmul]
      by_cases hfits : start + o.batchSize - 1 ≤ toLedger
      · have hshift : start + o.batchSize - 1 + 1 + i * o.batchSize =
            start + (i * o.batchSize + o.batchSize) := by ring
        rw [min_eq_right hfits, hshift, Nat.add_assoc, Nat.add_comm 1 i]
      · rw [min_eq_left (by omega), if_neg (by omega), if_neg (by omega)]
    · have hnonneg : (0 : ℤ) ≤ ((i + 1 : ℕ) : ℤ) * o.batchSize := by positivity
      rw [if_neg hstart, if_neg (by omega)]
      rfl

theorem getElem?_buildBatches (fromLedger toLedger : ℤ) (i : ℕ) :
    (buildBatches o fromLedger toLedger)[i]? =
      if fromLedger + i * o.batchSize ≤ toLedger then
        some
          { fromLedger := fromLedger + i * o.batchSize
            toLedger := min toLedger (fromLedger + i * o.batchSize + o.batchSize - 1)
            index := i }
      else none := by
  rw [buildBatches, getElem?_batchesFrom, Nat.zero_add]

/-- A ledger of the range is in the batch at a position if its distance from the first ledger,
in whole batches, is that position. -/
theorem contains_iff {fromLedger toLedger ledger : ℤ} (hto : ledger ≤ toLedger) (i : ℕ) :
    (∃ batch, (buildBatches o fromLedger toLedger)[i]? = some batch ∧ batch.Contains ledger) ↔
      (ledger - fromLedger) / o.batchSize = i := by
  have hsize : (0 : ℤ) < o.batchSize := by exact_mod_cast o.one_le_batchSize
  have hquotient := Int.ediv_eq_iff_of_pos hsize (x := ledger - fromLedger) (y := i)
  rw [getElem?_buildBatches]
  by_cases hstart : fromLedger + i * o.batchSize ≤ toLedger
  · simp only [if_pos hstart, Option.some.injEq, exists_eq_left', BackfillBatch.Contains]
    rw [hquotient]
    omega
  · simp only [if_neg hstart, reduceCtorEq, false_and, exists_false, false_iff]
    rw [hquotient]
    omega

theorem partitions_buildBatches (fromLedger toLedger : ℤ) :
    Partitions (buildBatches o fromLedger toLedger) fromLedger toLedger := by
  have hsize : (0 : ℤ) < o.batchSize := by exact_mod_cast o.one_le_batchSize
  apply Partitions.mk
  · intro batch hbatch
    obtain ⟨i, hi⟩ := List.mem_iff_getElem?.mp hbatch
    rw [getElem?_buildBatches] at hi
    split at hi
    next hstart =>
      cases hi
      have hnonneg : (0 : ℤ) ≤ i * o.batchSize := by positivity
      dsimp only
      omega
    next => cases hi
  · intro ledger hfrom hto
    have hquotient : 0 ≤ (ledger - fromLedger) / o.batchSize :=
      Int.ediv_nonneg (by omega) hsize.le
    refine ⟨((ledger - fromLedger) / o.batchSize).toNat, ?_, ?_⟩
    · exact (contains_iff hto _).mpr (Int.toNat_of_nonneg hquotient).symm
    · intro i hi
      rw [(contains_iff hto i).mp hi, Int.toNat_natCast]

/-! ## The attempts of a batch -/

theorem attemptsFrom_isOk_iff (batch : BackfillBatch) (left attempt : ℕ) (errors : List String) :
    attemptsFrom o processBatch batch left attempt errors = .ok () ↔
      ∃ a ∈ List.range' attempt left, (processBatch batch a).isOk := by
  induction left generalizing attempt errors with
  | zero => simp [attemptsFrom]
  | succ _ ih =>
    rw [attemptsFrom, List.range'_succ]
    cases hcall : processBatch batch attempt with
    | ok => simp [hcall, Except.isOk, Except.toBool]
    | error => simp [ih, hcall, Except.isOk, Except.toBool]

variable (o processBatch) in
theorem processWithRetries_eq_ok_iff (batch : BackfillBatch) :
    processWithRetries o processBatch batch = .ok () ↔ Succeeds o processBatch batch :=
  attemptsFrom_isOk_iff batch _ _ _

/-! ## One wave -/

variable (o processBatch) in
/-- The batches in front of the first one that fails. -/
def succeeded (batches : List BackfillBatch) : List BackfillBatch :=
  batches.takeWhile fun batch => Succeeds o processBatch batch

/-- The last ledger of the batches. -/
def reached (batches : List BackfillBatch) : Option ℤ := batches.getLast?.map (·.toLedger)

theorem reached_append (batches more : List BackfillBatch) :
    reached (batches ++ more) = (reached more).or (reached batches) := by
  rw [reached, List.getLast?_append, Option.map_or]
  rfl

theorem succeeded_eq_self_iff (batches : List BackfillBatch) :
    succeeded o processBatch batches = batches ↔
      ∀ batch ∈ batches, Succeeds o processBatch batch := by
  rw [succeeded, List.takeWhile_eq_self_iff]
  simp only [decide_eq_true_eq]

variable (o processBatch) in
theorem collect_withResults (wave : List BackfillBatch) (start i : ℕ) (p : Progress) :
    let ended := collect start i (withResults o processBatch wave) p
    (ended.1 = none ↔ succeeded o processBatch wave = wave) ∧
      ended.2.checkpointLedger =
        (reached (succeeded o processBatch wave)).or p.checkpointLedger ∧
      ended.2.passed = p.passed := by
  induction wave generalizing i p with
  | nil => simp [withResults, collect, succeeded, reached]
  | cons batch wave ih =>
    have hiff := processWithRetries_eq_ok_iff o processBatch batch
    cases hresult : processWithRetries o processBatch batch with
    | error =>
      have hfails : ¬Succeeds o processBatch batch := by
        rw [← hiff, hresult]
        exact nofun
      simp [withResults, collect, succeeded, reached, hresult, hfails]
    | ok =>
      have hsucceeds : Succeeds o processBatch batch := hiff.mp hresult
      have hcons : succeeded o processBatch (batch :: wave) =
          [batch] ++ succeeded o processBatch wave := by
        simp [succeeded, hsucceeds]
      rw [hcons, reached_append]
      obtain ⟨hnone, hcheckpoint, hpassed⟩ := ih (i + 1)
        { p with
          checkpointLedger := some batch.toLedger
          processedBatches := p.processedBatches + 1 }
      simp only [withResults, List.map_cons, hresult, collect] at hnone hcheckpoint hpassed ⊢
      refine ⟨hnone.trans (by simp), ?_, hpassed⟩
      rw [hcheckpoint, Option.or_assoc]
      rfl

/-! ## All waves -/

variable (o processBatch) in
/-- What holds where a wave starts. -/
structure AtWave (batches : List BackfillBatch) (start : ℕ) (p : Progress) : Prop where
  dvd : o.concurrency ∣ start
  succeeds : ∀ batch ∈ batches.take start, Succeeds o processBatch batch
  checkpoint : p.checkpointLedger = reached (batches.take start)
  passed : p.passed.getLast?.join = p.checkpointLedger

variable (o processBatch) in
/-- What holds after the last wave. The callback got the checkpoint of the start of a wave. -/
structure AtEnd (batches : List BackfillBatch) (p : Progress) : Prop where
  checkpoint : p.checkpointLedger = reached (succeeded o processBatch batches)
  passed : succeeded o processBatch batches = batches ∧
      p.passed.getLast?.join = p.checkpointLedger ∨
    succeeded o processBatch batches ≠ batches ∧
    ∃ start, o.concurrency ∣ start ∧ start ≤ (succeeded o processBatch batches).length ∧
      (succeeded o processBatch batches).length < start + o.concurrency ∧
      p.passed.getLast?.join = reached (batches.take start)

variable {batches : List BackfillBatch} {start : ℕ} {p : Progress}

theorem AtWave.zero (batches : List BackfillBatch) : AtWave o processBatch batches 0 {} where
  dvd := dvd_zero _
  succeeds := nofun
  checkpoint := rfl
  passed := rfl

variable {settled : Progress}

theorem AtWave.next (h : AtWave o processBatch batches start p)
    (hwave : succeeded o processBatch ((batches.drop start).take o.concurrency) = (batches.drop
      start).take o.concurrency)
    (hcheckpoint : settled.checkpointLedger = (reached ((batches.drop start).take o.concurrency)).or
      p.checkpointLedger) :
    AtWave o processBatch batches (start + o.concurrency)
      { settled with passed := settled.passed ++ [settled.checkpointLedger] } where
  dvd := Dvd.dvd.add h.dvd (dvd_refl _)
  succeeds := by
    intro batch hbatch
    rw [List.take_add, List.mem_append] at hbatch
    rcases hbatch with hbefore | hin
    · exact h.succeeds batch hbefore
    · exact (succeeded_eq_self_iff _).mp hwave batch hin
  checkpoint := by
    rw [List.take_add, reached_append, ← h.checkpoint]
    exact hcheckpoint
  passed := by simp

theorem AtWave.succeeded_eq (h : AtWave o processBatch batches start p) :
    succeeded o processBatch batches =
      batches.take start ++ succeeded o processBatch (batches.drop start) := by
  have hsplit : succeeded o processBatch (batches.take start ++ batches.drop start) =
      batches.take start ++ succeeded o processBatch (batches.drop start) :=
    List.takeWhile_append_of_pos fun batch hbatch => decide_eq_true (h.succeeds batch hbatch)
  rwa [List.take_append_drop] at hsplit

theorem succeeded_take {rest : List BackfillBatch} {size : ℕ}
    (hwave : succeeded o processBatch (rest.take size) ≠ rest.take size) :
    succeeded o processBatch rest = succeeded o processBatch (rest.take size) := by
  have hlength : (succeeded o processBatch (rest.take size)).length ≠ (rest.take size).length :=
    fun hlength => hwave ((List.takeWhile_prefix _).eq_of_length hlength)
  have hsplit : succeeded o processBatch (rest.take size ++ rest.drop size) =
      succeeded o processBatch (rest.take size) :=
    List.takeWhile_append.trans (if_neg hlength)
  rwa [List.take_append_drop] at hsplit

theorem AtWave.stop (h : AtWave o processBatch batches start p) (hstart : start < batches.length)
    (hwave : succeeded o processBatch ((batches.drop start).take o.concurrency) ≠ (batches.drop
      start).take o.concurrency)
    (hcheckpoint : settled.checkpointLedger = (reached (succeeded o processBatch ((batches.drop
      start).take o.concurrency))).or p.checkpointLedger) (hpassed : settled.passed = p.passed) :
    AtEnd o processBatch batches settled := by
  have hsucceeded := h.succeeded_eq
  rw [succeeded_take hwave] at hsucceeded
  have hshort : (succeeded o processBatch ((batches.drop start).take o.concurrency)).length <
      o.concurrency := by
    have hprefix := List.takeWhile_prefix (l := (batches.drop start).take o.concurrency)
      (fun batch => decide (Succeeds o processBatch batch))
    have hne := mt hprefix.eq_of_length hwave
    have hle := hprefix.length_le
    have htake := List.length_take_le o.concurrency (batches.drop start)
    rw [succeeded]
    omega
  have hlength : (succeeded o processBatch batches).length = start +
      (succeeded o processBatch ((batches.drop start).take o.concurrency)).length := by
    rw [hsucceeded, List.length_append, List.length_take_of_le hstart.le]
  apply AtEnd.mk
  · rw [hsucceeded, reached_append, ← h.checkpoint]
    exact hcheckpoint
  · have hfails : succeeded o processBatch batches ≠ batches := by
      intro hall
      apply hwave
      rw [succeeded_eq_self_iff] at hall ⊢
      exact fun batch hbatch => hall batch (List.mem_of_mem_drop (List.mem_of_mem_take hbatch))
    refine Or.inr ⟨hfails, start, h.dvd, by omega, by omega, ?_⟩
    rw [hpassed, h.passed, h.checkpoint]

theorem AtWave.finish (h : AtWave o processBatch batches start p)
    (hstart : ¬start < batches.length) : AtEnd o processBatch batches p := by
  have htake : batches.take start = batches := List.take_of_length_le (Nat.le_of_not_lt hstart)
  have hall : succeeded o processBatch batches = batches :=
    (succeeded_eq_self_iff batches).mpr (htake ▸ h.succeeds)
  apply AtEnd.mk
  · rw [hall, h.checkpoint, htake]
  · exact Or.inl ⟨hall, h.passed⟩

theorem atEnd_waves (h : AtWave o processBatch batches start p) {ended : Progress}
    (hwaves : waves o processBatch onCheckpoint batches start p = (ended, .ok ())) :
    AtEnd o processBatch batches ended := by
  induction hleft : batches.length - start using Nat.strong_induction_on generalizing start p with
  | _ _ ih =>
    rw [waves] at hwaves
    by_cases hstart : start < batches.length
    · rw [if_pos hstart] at hwaves
      obtain ⟨hnone, hcheckpoint, hpassed⟩ := collect_withResults o processBatch
        ((batches.drop start).take o.concurrency) start 0 p
      dsimp only at hwaves
      generalize collect start 0 _ p = collected at hwaves hnone hcheckpoint hpassed
      obtain ⟨failed, settled⟩ := collected
      cases failed with
      | some i =>
        cases hwaves
        have hfailed := mt hnone.mpr (Option.some_ne_none i)
        exact h.stop hstart hfailed hcheckpoint hpassed
      | none =>
        have hall := hnone.mp rfl
        rw [hall] at hcheckpoint
        cases hcall : onCheckpoint settled.passed.length settled.checkpointLedger with
        | error => simp [hcall] at hwaves
        | ok =>
          simp only [hcall] at hwaves
          have hconcurrency := o.one_le_concurrency
          exact ih _ (by omega) (h.next hall hcheckpoint) hwaves rfl
    · rw [if_neg hstart] at hwaves
      cases hwaves
      exact h.finish hstart

theorem waves_isOk (hcallback : ∀ call ledger, onCheckpoint call ledger = .ok ())
    (batches : List BackfillBatch) (start : ℕ) (p : Progress) :
    (waves o processBatch onCheckpoint batches start p).2 = .ok () := by
  induction hleft : batches.length - start using Nat.strong_induction_on generalizing start p with
  | _ _ ih =>
    rw [waves]
    by_cases hstart : start < batches.length
    · rw [if_pos hstart]
      dsimp only
      generalize collect start 0 _ p = collected
      obtain ⟨failed, settled⟩ := collected
      cases failed with
      | some => rfl
      | none =>
        have hconcurrency := o.one_le_concurrency
        simp only [hcallback]
        exact ih _ (by omega) _ _ rfl
    · rw [if_neg hstart]

/-! ## The checkpoint and the callback -/

theorem toLedger_lt_of_lt {fromLedger toLedger : ℤ} {i j : ℕ} (hij : i < j)
    {first second : BackfillBatch}
    (hfirst : (buildBatches o fromLedger toLedger)[i]? = some first)
    (hsecond : (buildBatches o fromLedger toLedger)[j]? = some second) :
    first.toLedger < second.toLedger := by
  have hsize := o.one_le_batchSize
  have hstep : ((i + 1 : ℕ) : ℤ) * o.batchSize ≤ j * o.batchSize :=
    Int.mul_le_mul_of_nonneg_right (by exact_mod_cast hij) (by positivity)
  rw [getElem?_buildBatches] at hfirst hsecond
  split at hfirst
  next =>
    split at hsecond
    next =>
      cases hfirst
      cases hsecond
      push_cast [add_mul] at hstep
      dsimp only
      omega
    next => cases hsecond
  next => cases hfirst

theorem reached_take {k : ℕ} (hk : k + 1 ≤ batches.length) :
    ∃ batch, batches[k]? = some batch ∧ reached (batches.take (k + 1)) = some batch.toLedger := by
  refine ⟨batches[k], List.getElem?_eq_getElem hk, ?_⟩
  rw [reached, List.getLast?_take, if_neg (Nat.succ_ne_zero k), Nat.add_sub_cancel,
    List.getElem?_eq_getElem hk]
  rfl

theorem reached_take_ne {fromLedger toLedger : ℤ} {m k : ℕ} (hmk : m < k)
    (hk : k ≤ (buildBatches o fromLedger toLedger).length) :
    reached ((buildBatches o fromLedger toLedger).take m) ≠
      reached ((buildBatches o fromLedger toLedger).take k) := by
  obtain ⟨k, rfl⟩ := Nat.exists_eq_succ_of_ne_zero (Nat.ne_zero_of_lt hmk)
  obtain ⟨last, hlast, hreached⟩ := reached_take hk
  rw [hreached]
  cases m with
  | zero => exact nofun
  | succ =>
    obtain ⟨first, hfirst, hreached'⟩ := reached_take (Nat.le_of_lt (hmk.trans_le hk))
    rw [hreached']
    have hlt := toLedger_lt_of_lt (by omega) hfirst hlast
    intro heq
    have hends := Option.some.inj heq
    omega

theorem passed_iff_of_atEnd {fromLedger toLedger : ℤ}
    (h : AtEnd o processBatch (buildBatches o fromLedger toLedger) p) :
    p.passed.getLast?.join = p.checkpointLedger ↔
      succeeded o processBatch (buildBatches o fromLedger toLedger) =
          buildBatches o fromLedger toLedger ∨
        o.concurrency ∣
          (succeeded o processBatch (buildBatches o fromLedger toLedger)).length := by
  have hprefix : succeeded o processBatch (buildBatches o fromLedger toLedger) <+:
      buildBatches o fromLedger toLedger := List.takeWhile_prefix _
  rcases h.passed with ⟨hall, hpassed⟩ | ⟨hfails, start, hdvd, hle, hlt, hpassed⟩
  · exact iff_of_true hpassed (Or.inl hall)
  · have htake := List.prefix_iff_eq_take.mp hprefix
    have hcheckpoint := h.checkpoint
    rw [htake] at hcheckpoint
    rw [hpassed, hcheckpoint]
    rcases hle.eq_or_lt with heq | hbefore
    · rw [← heq]
      exact iff_of_true rfl (Or.inr hdvd)
    · have hne := reached_take_ne hbefore hprefix.length_le
      apply iff_of_false hne
      rintro (hall | hdvd')
      · exact hfails hall
      · have hdifference := Nat.le_of_dvd (Nat.sub_pos_of_lt hbefore) (Nat.dvd_sub hdvd' hdvd)
        omega

theorem AtEnd.passed_of_none (h : AtEnd o processBatch batches p)
    (hnone : p.checkpointLedger = none) : p.passed.getLast?.join = none := by
  rcases h.passed with ⟨-, hpassed⟩ | ⟨-, start, -, hle, -, hpassed⟩
  · rw [hpassed, hnone]
  · have hempty : succeeded o processBatch batches = [] := by
      rw [h.checkpoint, reached, Option.map_eq_none_iff] at hnone
      exact List.getLast?_eq_none_iff.mp hnone
    rw [hempty, List.length_nil, Nat.le_zero] at hle
    rw [hpassed, hle]
    rfl

theorem run_eq {fromLedger toLedger : ℤ} {liveCursor : ℚ} (hrange : fromLedger ≤ toLedger)
    (hlive : toLedger ≤ liveCursor) :
    run o processBatch onCheckpoint fromLedger toLedger liveCursor =
      let ended := waves o processBatch onCheckpoint (buildBatches o fromLedger toLedger) 0 {}
      (ended.1.passed, ended.2.map fun _ =>
        { ok := ended.1.failures.isEmpty
          lastCheckpointLedger := ended.1.checkpointLedger
          failures := ended.1.failures
          processedBatches := ended.1.processedBatches }) := by
  have hrange' : ¬(toLedger : ℚ) < fromLedger := by exact_mod_cast hrange.not_gt
  have hinvalid : ¬(¬(fromLedger : ℚ).isInt ∨ ¬(toLedger : ℚ).isInt ∨
      (toLedger : ℚ) < fromLedger) := by simp [hrange, Rat.isInt]
  rw [run, if_neg hinvalid, if_neg hlive.not_gt, Rat.num_intCast, Rat.num_intCast]

/-- For every range the batches cut it, the checkpoint is the end of the batches in front of the
first one that fails, and the callback got that checkpoint last if and only if no batch fails
or the first one that fails is the first of its wave. -/
theorem run_checkpoint (o : Options) (processBatch : BackfillBatchProcessor)
    (onCheckpoint : OnCheckpoint) (fromLedger toLedger : ℤ) (liveCursor : ℚ)
    (hrange : fromLedger ≤ toLedger) (hlive : toLedger ≤ liveCursor) :
    let batches := buildBatches o fromLedger toLedger
    let done := batches.takeWhile fun batch => Succeeds o processBatch batch
    let ended := run o processBatch onCheckpoint fromLedger toLedger liveCursor
    Partitions batches fromLedger toLedger ∧
      ((∀ call ledger, onCheckpoint call ledger = .ok ()) → ended.2.isOk) ∧
      ∀ result, ended.2 = .ok result →
        result.lastCheckpointLedger = done.getLast?.map (·.toLedger) ∧
        ((∀ ledger, result.lastCheckpointLedger = some ledger →
            ended.1.getLast? = some (some ledger)) ↔
          done = batches ∨ o.concurrency ∣ done.length) := by
  rw [run_eq hrange hlive]
  refine ⟨partitions_buildBatches fromLedger toLedger, ?_, ?_⟩
  · intro hcallback
    dsimp only
    rw [waves_isOk hcallback]
    rfl
  · intro result hresult
    dsimp only at hresult ⊢
    cases hwaves : waves o processBatch onCheckpoint (buildBatches o fromLedger toLedger) 0 {} with
    | mk ended outcome =>
      rw [hwaves] at hresult
      cases outcome with
      | error => cases hresult
      | ok =>
        cases hresult
        have hend := atEnd_waves (AtWave.zero _) hwaves
        refine ⟨hend.checkpoint, Iff.trans ?_ (passed_iff_of_atEnd hend)⟩
        dsimp only
        cases hcheckpoint : ended.checkpointLedger with
        | none => exact iff_of_true nofun (hend.passed_of_none hcheckpoint)
        | some => simp [Option.join_eq_some_iff]

/-- Waves of two batches of ten ledgers. -/
def pairs : Options where
  concurrency := 2
  batchSize := 10
  maxRetries := 0
  one_le_concurrency := by decide
  one_le_batchSize := by decide

/-- The processor that fails at one batch. -/
def failsAt (index : ℕ) : BackfillBatchProcessor := fun batch _ =>
  if batch.index = index then .error "timeout" else .ok ()

/-- A wave without a failure, then one that fails at its first batch. -/
theorem run_checkpoint_first_of_wave :
    let ended := run pairs (failsAt 2) (fun _ _ => .ok ()) (0 : ℤ) (39 : ℤ) 100
    ended.2.isOk ∧ ∀ result, ended.2 = .ok result →
      ∀ ledger, result.lastCheckpointLedger = some ledger →
        ended.1.getLast? = some (some ledger) := by
  have hspec := run_checkpoint pairs (failsAt 2) (fun _ _ => .ok ()) 0 39 100 (by decide)
    (by norm_num)
  refine ⟨hspec.2.1 fun _ _ => rfl, fun result hresult => ?_⟩
  apply ((hspec.2.2 result hresult).2).mpr
  have hbatches : buildBatches pairs 0 39 = [⟨0, 9, 0⟩, ⟨10, 19, 1⟩, ⟨20, 29, 2⟩, ⟨30, 39, 3⟩] := by
    simp [buildBatches, batchesFrom, pairs]
  rw [hbatches]
  decide

/-- The second batch of the only wave fails. The checkpoint is the end of the first one, and the
callback is not called. -/
theorem run_checkpoint_not_passed :
    let ended := run pairs (failsAt 1) (fun _ _ => .ok ()) (0 : ℤ) (19 : ℤ) 100
    ended.1 = [] ∧ ended.2 = .ok
      { ok := false
        lastCheckpointLedger := some 9
        failures := [{
          batchIndex := 1
          fromLedger := 10
          toLedger := 19
          attempts := 1
          errors := ["attempt 1: timeout"] }]
        processedBatches := 1 } := by
  have hbatches : buildBatches pairs 0 19 = [⟨0, 9, 0⟩, ⟨10, 19, 1⟩] := by
    simp [buildBatches, batchesFrom, pairs]
  rw [run_eq (by decide) (by norm_num), hbatches, waves]
  decide

end Fluxora.Indexer.OrderedBackfill
