/-
# Integrity of a replayed range

The ledgers between the first and the last one with an event are checked for gaps and for events
that are stored twice. The check goes through the range in chunks, several at a time, and each
chunk is tried again when one of its queries fails.
-/

import Fluxora.Lib.ConcurrentMap
import Fluxora.Lib.StableSort
import Mathlib.Data.List.Dedup
import Mathlib.Data.String.Basic

namespace Fluxora.Indexer.ReplayIntegrity

open Lib

/-! ## The queries -/

/-- A row of `contract_events`, as far as the check reads it. -/
structure ContractEvent where
  contractId : String
  eventId : String
  ledger : ℤ
  deriving DecidableEq

structure Duplicate where
  eventId : String
  ledger : ℤ
  count : ℕ
  deriving DecidableEq

/-- An order of texts: of the database, and that of `localeCompare`. -/
structure Collation where
  le : String → String → Bool
  total : ∀ a b, le a b ∨ le b a
  trans : ∀ a b c, le a b → le b c → le a c

namespace Collation

variable (collation : Collation)

/-- `ORDER BY ledger, event_id` -/
def Before (first second : Duplicate) : Prop :=
  first.ledger < second.ledger ∨
    first.ledger = second.ledger ∧ collation.le first.eventId second.eventId

instance : DecidableRel collation.Before := fun _ _ => inferInstanceAs (Decidable (_ ∨ _))

instance : Std.Total collation.Before where
  total first second := by
    rcases lt_trichotomy first.ledger second.ledger with hlt | heq | hgt
    · exact .inl (.inl hlt)
    · exact (collation.total first.eventId second.eventId).imp (fun h => .inr ⟨heq, h⟩)
        fun h => .inr ⟨heq.symm, h⟩
    · exact .inr (.inl hgt)

instance : IsTrans Duplicate collation.Before where
  trans := by
    rintro first second third (hlt | ⟨heq, hle⟩) (hlt' | ⟨heq', hle'⟩)
    · exact .inl (hlt.trans hlt')
    · exact .inl (heq' ▸ hlt)
    · exact .inl (heq.symm ▸ hlt')
    · exact .inr ⟨heq.trans heq', collation.trans _ _ _ hle hle'⟩

end Collation

/-- `generate_series` -/
def generateSeries (fromLedger toLedger : ℤ) : List ℤ :=
  (List.range (toLedger + 1 - fromLedger).toNat).map fun i : ℕ => fromLedger + i

variable (table : List ContractEvent) (contractId : String)

/-- The rows of a contract in a range of ledgers. -/
def rowsBetween (fromLedger toLedger : ℤ) : List ContractEvent :=
  table.filter fun row =>
    row.contractId = contractId ∧ fromLedger ≤ row.ledger ∧ row.ledger ≤ toLedger

/-- `GAP_QUERY` -/
def gapQuery (fromLedger toLedger : ℤ) : List ℤ :=
  let actual := (rowsBetween table contractId fromLedger toLedger).map (·.ledger)
  (generateSeries fromLedger toLedger).filter (· ∉ actual)

/-- `DUPLICATE_QUERY` -/
def duplicateQuery (collation : Collation) (fromLedger toLedger : ℤ) : List Duplicate :=
  let keys := (rowsBetween table contractId fromLedger toLedger).map fun row =>
    (row.eventId, row.ledger)
  let groups := keys.dedup.map fun key => Duplicate.mk key.1 key.2 (keys.count key)
  (groups.filter fun group => 1 < group.count).insertionSort collation.Before

/-- `RANGE_QUERY` -/
def rangeQuery (fromLedger toLedger : ℤ) : Option (ℤ × ℤ) :=
  let ledgers := (rowsBetween table contractId fromLedger toLedger).map (·.ledger)
  ledgers.min?.bind fun least => ledgers.max?.map fun greatest => (least, greatest)

/-! ## The check -/

/-- `INTEGRITY_CHUNK_SIZE`, `MAX_CONCURRENT_CHECKS` and `INTEGRITY_RETRY_BUDGET`. -/
structure Limits where
  chunkSize : ℕ
  concurrency : ℕ
  retryBudget : ℕ
  one_le_chunkSize : 1 ≤ chunkSize
  one_le_concurrency : 1 ≤ concurrency

def integrityLimits : Limits where
  chunkSize := 10000
  concurrency := 4
  retryBudget := 3
  one_le_chunkSize := by decide
  one_le_concurrency := by decide

/-- The texts of the errors that queries end with: the range query, and those of a chunk, by its
first ledger and the attempt. -/
structure Failures where
  range : Option String := none
  gap : ℤ → ℕ → Option String := fun _ _ => none
  duplicate : ℤ → ℕ → Option String := fun _ _ => none

namespace Failures

variable (failures : Failures)

/-- The error of an attempt. The duplicates are not asked for after the gaps have failed. -/
def attempt (start : ℤ) (n : ℕ) : Option String :=
  (failures.gap start n).or (failures.duplicate start n)

end Failures

structure ChunkResult where
  gaps : List ℤ
  duplicates : List Duplicate
  error : Option String
  deriving DecidableEq

/-- The text of an error counts as true unless it is empty. -/
def truthy (error : Option String) : Bool := error.any (· ≠ "")

structure ReplayIntegrityCheckResult where
  hasIssues : Bool
  gaps : List ℤ
  duplicates : List Duplicate
  fromLedger : ℤ
  toLedger : ℤ
  contractId : String
  error : Option String
  deriving DecidableEq

variable (database locale : Collation) (limits : Limits) (failures : Failures)

def runIntegrityChunk (fromLedger toLedger : ℤ) (attempt : ℕ) : ChunkResult :=
  match failures.gap fromLedger attempt with
  | some error => { gaps := [], duplicates := [], error }
  | none =>
    match failures.duplicate fromLedger attempt with
    | some error => { gaps := [], duplicates := [], error }
    | none =>
      { gaps := gapQuery table contractId fromLedger toLedger
        duplicates := duplicateQuery table contractId database fromLedger toLedger
        error := none }

/-- The attempts of a chunk from one on, with how many there are left. -/
def attemptsFrom (fromLedger toLedger : ℤ) : ℕ → ℕ → Option String → ChunkResult
  | 0, _, lastError => { gaps := [], duplicates := [], error := lastError }
  | left + 1, attempt, _ =>
    let r := runIntegrityChunk table contractId database failures fromLedger toLedger attempt
    if truthy r.error then attemptsFrom fromLedger toLedger left (attempt + 1) r.error else r

def checkChunk (maxLedger start : ℤ) : ChunkResult :=
  attemptsFrom table contractId database failures start
    (min (start + limits.chunkSize - 1) maxLedger) limits.retryBudget 0 (some "unknown")

def chunkStarts (maxLedger start : ℤ) : List ℤ :=
  if start ≤ maxLedger then start :: chunkStarts maxLedger (start + limits.chunkSize) else []
termination_by (maxLedger + 1 - start).toNat
decreasing_by
  have hsize := limits.one_le_chunkSize
  omega

/-- The sorts of the results. -/
def sortGaps (gaps : List ℤ) : List ℤ := gaps.insertionSort (· ≤ ·)

def sortDuplicates (duplicates : List Duplicate) : List Duplicate :=
  duplicates.insertionSort locale.Before

/-- The results of the chunks are put together. -/
def combine (minLedger maxLedger : ℤ) (chunkResults : List ChunkResult) :
    ReplayIntegrityCheckResult :=
  let firstError := (chunkResults.find? (·.error.isSome)).bind (·.error)
  let answered := chunkResults.filter fun chunk => !truthy chunk.error
  let gaps := sortGaps (answered.flatMap (·.gaps))
  let duplicates := sortDuplicates locale (answered.flatMap (·.duplicates))
  { hasIssues := 0 < gaps.length || 0 < duplicates.length
    gaps
    duplicates
    fromLedger := minLedger
    toLedger := maxLedger
    contractId
    error := firstError }

/-- The check, when the workers are done with their chunks in an order. With one worker or more
there is no hole in the results. -/
def checkReplayIntegrity (fromLedger toLedger : ℤ) (order : List ℕ) :
    Option ReplayIntegrityCheckResult :=
  let effectiveFrom := min fromLedger toLedger
  let effectiveTo := max fromLedger toLedger
  let empty : ReplayIntegrityCheckResult :=
    { hasIssues := false
      gaps := []
      duplicates := []
      fromLedger := effectiveFrom
      toLedger := effectiveTo
      contractId
      error := none }
  match failures.range with
  | some error => some { empty with error }
  | none =>
    match rangeQuery table contractId effectiveFrom effectiveTo with
    | none => some empty
    | some (minLedger, maxLedger) =>
      (ConcurrentMap.mapWithConcurrency
        (checkChunk table contractId database limits failures maxLedger)
        (chunkStarts limits maxLedger minLedger) limits.concurrency order).map fun results =>
          combine contractId locale minLedger maxLedger (results.filterMap id)

/-! ## A query of a range is that of its parts -/

section Parts

variable {table contractId database} {a b c : ℤ}

theorem generateSeries_append (hab : a ≤ b + 1) (hbc : b ≤ c) :
    generateSeries a c = generateSeries a b ++ generateSeries (b + 1) c := by
  have hcount : (c + 1 - a).toNat = (b + 1 - a).toNat + (c + 1 - (b + 1)).toNat := by omega
  have hshift : a + ((b + 1 - a).toNat : ℤ) = b + 1 := by omega
  rw [generateSeries, hcount, List.range_add, List.map_append, List.map_map]
  congr 1
  apply List.map_congr_left
  intro i _
  rw [Function.comp_apply, Int.natCast_add, ← Int.add_assoc, hshift]

theorem mem_generateSeries {ledger : ℤ} :
    ledger ∈ generateSeries a b ↔ a ≤ ledger ∧ ledger ≤ b := by
  rw [generateSeries, List.mem_map]
  apply Iff.intro
  · rintro ⟨i, hi, rfl⟩
    rw [List.mem_range] at hi
    omega
  · intro ⟨hfrom, hto⟩
    exact ⟨(ledger - a).toNat, List.mem_range.mpr (by omega), by omega⟩

theorem pairwise_generateSeries : (generateSeries a b).Pairwise (· < ·) := by
  apply List.Pairwise.map _ _ List.pairwise_lt_range
  intro i j hij
  omega

variable (table contractId) in
/-- The contract has an event in a ledger. -/
def HasEvent (ledger : ℤ) : Prop :=
  ∃ row ∈ table, row.contractId = contractId ∧ row.ledger = ledger

instance : DecidablePred (HasEvent table contractId) := fun _ =>
  inferInstanceAs (Decidable (∃ row ∈ table, _))

theorem mem_ledgers_iff {ledger : ℤ} (hfrom : a ≤ ledger) (hto : ledger ≤ b) :
    ledger ∈ (rowsBetween table contractId a b).map (·.ledger) ↔
      HasEvent table contractId ledger := by
  simp only [rowsBetween, List.mem_map, List.mem_filter, decide_eq_true_eq]
  apply Iff.intro
  · rintro ⟨row, ⟨hrow, hcontract, -⟩, hrowLedger⟩
    exact ⟨row, hrow, hcontract, hrowLedger⟩
  · rintro ⟨row, hrow, hcontract, rfl⟩
    exact ⟨row, ⟨hrow, hcontract, hfrom, hto⟩, rfl⟩

theorem gapQuery_eq :
    gapQuery table contractId a b =
      (generateSeries a b).filter fun ledger => ¬HasEvent table contractId ledger := by
  apply List.filter_congr
  intro ledger hledger
  obtain ⟨hfrom, hto⟩ := mem_generateSeries.mp hledger
  exact decide_eq_decide.mpr (not_congr (mem_ledgers_iff hfrom hto))

theorem gapQuery_append (hab : a ≤ b + 1) (hbc : b ≤ c) :
    gapQuery table contractId a c =
      gapQuery table contractId a b ++ gapQuery table contractId (b + 1) c := by
  rw [gapQuery_eq, gapQuery_eq, gapQuery_eq, generateSeries_append hab hbc, List.filter_append]

theorem sortGaps_gapQuery : sortGaps (gapQuery table contractId a b) =
    gapQuery table contractId a b := by
  apply List.Pairwise.insertionSort_eq
  exact (pairwise_generateSeries.filter _).imp fun h => h.le

/-! The groups of the duplicate query are counted before they are sorted, and the sort keeps
the ledgers of the first part in front. -/

variable (table contractId) in
/-- What the rows of a range are grouped by. -/
def keysBetween (fromLedger toLedger : ℤ) : List (String × ℤ) :=
  (rowsBetween table contractId fromLedger toLedger).map fun row => (row.eventId, row.ledger)

theorem keysBetween_filter {p : ℤ → Bool} {a' b' : ℤ}
    (hpart : ∀ ledger, a' ≤ ledger ∧ ledger ≤ b' ↔ (a ≤ ledger ∧ ledger ≤ b) ∧ p ledger) :
    (keysBetween table contractId a b).filter (fun key => p key.2) =
      keysBetween table contractId a' b' := by
  rw [keysBetween, keysBetween, List.filter_map, rowsBetween, rowsBetween, List.filter_filter]
  congr 1
  apply List.filter_congr
  intro row _
  simp [hpart row.ledger, and_comm, and_left_comm]

theorem dedup_filter {α : Type*} [DecidableEq α] (p : α → Bool) (l : List α) :
    (l.filter p).dedup = l.dedup.filter p := by
  induction l with
  | nil => rfl
  | cons x l ih =>
    by_cases hx : p x
    · rw [List.filter_cons_of_pos hx]
      by_cases hmem : x ∈ l
      · rw [List.dedup_cons_of_mem hmem, List.dedup_cons_of_mem
          (List.mem_filter.mpr ⟨hmem, hx⟩), ih]
      · rw [List.dedup_cons_of_notMem hmem, List.dedup_cons_of_notMem
          (fun h => hmem (List.mem_of_mem_filter h)), ih, List.filter_cons_of_pos hx]
    · rw [List.filter_cons_of_neg hx, ih]
      by_cases hmem : x ∈ l
      · rw [List.dedup_cons_of_mem hmem]
      · rw [List.dedup_cons_of_notMem hmem, List.filter_cons_of_neg hx]

variable (table contractId) in
/-- The groups of a range with more than one row. -/
def groupsBetween (fromLedger toLedger : ℤ) : List Duplicate :=
  ((keysBetween table contractId fromLedger toLedger).dedup.map fun key =>
    Duplicate.mk key.1 key.2 ((keysBetween table contractId fromLedger toLedger).count key)).filter
      fun group => 1 < group.count

theorem groupsBetween_filter {p : ℤ → Bool} {a' b' : ℤ}
    (hpart : ∀ ledger, a' ≤ ledger ∧ ledger ≤ b' ↔ (a ≤ ledger ∧ ledger ≤ b) ∧ p ledger) :
    (groupsBetween table contractId a b).filter (fun group => p group.ledger) =
      groupsBetween table contractId a' b' := by
  rw [groupsBetween, groupsBetween, ← keysBetween_filter hpart, dedup_filter, List.filter_comm,
    List.filter_map]
  congr 1
  apply List.map_congr_left
  intro key hkey
  have hcount : ((keysBetween table contractId a b).filter fun key => p key.2).count key =
      (keysBetween table contractId a b).count key :=
    List.count_filter (List.mem_filter.mp hkey).2
  rw [hcount]

theorem duplicateQuery_append (hab : a ≤ b + 1) (hbc : b ≤ c) :
    duplicateQuery table contractId database a c =
      duplicateQuery table contractId database a b ++
        duplicateQuery table contractId database (b + 1) c := by
  have hquery : ∀ a b, duplicateQuery table contractId database a b =
      (groupsBetween table contractId a b).insertionSort database.Before := fun _ _ => rfl
  have hfirst : groupsBetween table contractId a b =
      (groupsBetween table contractId a c).filter fun group => group.ledger ≤ b := by
    apply (groupsBetween_filter (p := fun ledger => decide (ledger ≤ b)) _).symm
    intro ledger
    simp only [decide_eq_true_eq]
    omega
  have hsecond : groupsBetween table contractId (b + 1) c =
      (groupsBetween table contractId a c).filter fun group => !decide (group.ledger ≤ b) := by
    apply (groupsBetween_filter (p := fun ledger => !decide (ledger ≤ b)) _).symm
    intro ledger
    simp only [Bool.not_eq_true', decide_eq_false_iff_not]
    omega
  rw [hquery, hquery, hquery, hfirst, hsecond, ← StableSort.filter_insertionSort,
    ← StableSort.filter_insertionSort]
  apply StableSort.eq_filter_append_filter
    (List.pairwise_insertionSort database.Before (groupsBetween table contractId a c))
  intro first second hbefore hle
  simp only [decide_eq_true_eq] at hle ⊢
  rcases hbefore with hlt | ⟨heq, -⟩ <;> omega

/-! ## The chunks of a range -/

theorem flatMap_chunkStarts {α : Type*} (query : ℤ → ℤ → List α) {first last : ℤ}
    (hquery : ∀ a b, a ≤ b + 1 → b ≤ last → query a last = query a b ++ query (b + 1) last)
    (hempty : ∀ a, last < a → query a last = []) :
    (chunkStarts limits last first).flatMap
      (fun start => query start (min (start + limits.chunkSize - 1) last)) = query first last := by
  induction hleft : (last + 1 - first).toNat using Nat.strong_induction_on generalizing first with
  | _ _ ih =>
    have hsize := limits.one_le_chunkSize
    rw [chunkStarts]
    by_cases hfirst : first ≤ last
    · rw [if_pos hfirst, List.flatMap_cons, ih _ (by omega) rfl]
      by_cases hfits : first + limits.chunkSize - 1 ≤ last
      · have hnext : first + limits.chunkSize = first + limits.chunkSize - 1 + 1 := by omega
        rw [min_eq_left hfits, hquery first _ (by omega) hfits, ← hnext]
      · rw [min_eq_right (by omega), hempty (first + limits.chunkSize) (by omega),
          List.append_nil]
    · rw [if_neg hfirst, hempty first (by omega)]
      rfl

theorem gapQuery_empty (h : b < a) : gapQuery table contractId a b = [] := by
  have hnone : (b + 1 - a).toNat = 0 := by omega
  rw [gapQuery, generateSeries, hnone]
  rfl

theorem duplicateQuery_empty (h : b < a) :
    duplicateQuery table contractId database a b = [] := by
  have hrows : rowsBetween table contractId a b = [] := by
    rw [rowsBetween, List.filter_eq_nil_iff]
    intro row _ hrow
    rw [decide_eq_true_eq] at hrow
    omega
  rw [duplicateQuery, hrows]
  rfl

end Parts

/-! ## The attempts of a chunk -/

section Attempts

variable {table contractId database limits failures} {start last : ℤ} {left n : ℕ}
  {lastError : Option String}

/-- A chunk is answered within its budget. The attempts before have failed with a text. -/
def Answered (limits : Limits) (failures : Failures) (start : ℤ) : Prop :=
  ∃ n < limits.retryBudget, failures.attempt start n = none ∧
    ∀ m < n, truthy (failures.attempt start m)

/-- Every attempt of a chunk fails. -/
def Unanswered (limits : Limits) (failures : Failures) (start : ℤ) : Prop :=
  ∀ n < limits.retryBudget, (failures.attempt start n).isSome

theorem runIntegrityChunk_eq (n : ℕ) :
    runIntegrityChunk table contractId database failures start last n =
      match failures.attempt start n with
      | some error => { gaps := [], duplicates := [], error }
      | none =>
        { gaps := gapQuery table contractId start last
          duplicates := duplicateQuery table contractId database start last
          error := none } := by
  rw [runIntegrityChunk, Failures.attempt]
  cases failures.gap start n with
  | some => rfl
  | none => cases failures.duplicate start n <;> rfl

theorem attemptsFrom_of_answered {k : ℕ} (hk : k < left)
    (hanswer : failures.attempt start (n + k) = none)
    (hbefore : ∀ m < k, truthy (failures.attempt start (n + m))) :
    attemptsFrom table contractId database failures start last left n lastError =
      { gaps := gapQuery table contractId start last
        duplicates := duplicateQuery table contractId database start last
        error := none } := by
  induction left generalizing n k lastError with
  | zero => exact absurd hk (Nat.not_lt_zero k)
  | succ _ ih =>
    rw [attemptsFrom, runIntegrityChunk_eq]
    cases k with
    | zero =>
      rw [Nat.add_zero] at hanswer
      rw [hanswer]
      rfl
    | succ k =>
      have hfirst := hbefore 0 (Nat.succ_pos k)
      rw [Nat.add_zero] at hfirst
      cases hattempt : failures.attempt start n with
      | none =>
        rw [hattempt] at hfirst
        cases hfirst
      | some =>
        rw [hattempt] at hfirst
        dsimp only
        rw [if_pos hfirst]
        apply ih (Nat.lt_of_succ_lt_succ hk)
        · rwa [Nat.add_right_comm, Nat.add_assoc]
        · intro m hm
          rw [Nat.add_right_comm, Nat.add_assoc]
          exact hbefore (m + 1) (Nat.succ_lt_succ hm)

theorem attemptsFrom_of_unanswered (hlast : lastError.isSome)
    (hfails : ∀ m < left, (failures.attempt start (n + m)).isSome) :
    (attemptsFrom table contractId database failures start last left n lastError).error.isSome := by
  induction left generalizing n lastError with
  | zero => exact hlast
  | succ left ih =>
    have hfirst := hfails 0 (Nat.succ_pos left)
    rw [Nat.add_zero] at hfirst
    obtain ⟨error, herror⟩ := Option.isSome_iff_exists.mp hfirst
    rw [attemptsFrom, runIntegrityChunk_eq, herror]
    dsimp only
    split
    · apply ih rfl
      intro m hm
      rw [Nat.add_right_comm, Nat.add_assoc]
      exact hfails (m + 1) (Nat.succ_lt_succ hm)
    · rfl

theorem attemptsFrom_error_ne (hlast : lastError ≠ some "")
    (htext : ∀ n, failures.attempt start n ≠ some "") :
    (attemptsFrom table contractId database failures start last left n lastError).error ≠
      some "" := by
  induction left generalizing n lastError with
  | zero => exact hlast
  | succ _ ih =>
    have hn := htext n
    rw [attemptsFrom, runIntegrityChunk_eq]
    cases herror : failures.attempt start n with
    | none => exact nofun
    | some =>
      rw [herror] at hn
      dsimp only
      split
      · exact ih hn
      · exact hn

end Attempts

/-! ## The whole check -/

/-- The first ledgers of the chunks that are checked. -/
def checkedStarts (fromLedger toLedger : ℤ) : List ℤ :=
  match rangeQuery table contractId (min fromLedger toLedger) (max fromLedger toLedger) with
  | none => []
  | some (minLedger, maxLedger) => chunkStarts limits maxLedger minLedger

/-- The check with one query for the gaps and one for the duplicates. -/
def unchunkedScan (fromLedger toLedger : ℤ) : ReplayIntegrityCheckResult :=
  match rangeQuery table contractId (min fromLedger toLedger) (max fromLedger toLedger) with
  | none =>
    { hasIssues := false
      gaps := []
      duplicates := []
      fromLedger := min fromLedger toLedger
      toLedger := max fromLedger toLedger
      contractId
      error := none }
  | some (minLedger, maxLedger) =>
    let gaps := gapQuery table contractId minLedger maxLedger
    let duplicates :=
      sortDuplicates locale (duplicateQuery table contractId database minLedger maxLedger)
    { hasIssues := 0 < gaps.length || 0 < duplicates.length
      gaps
      duplicates
      fromLedger := minLedger
      toLedger := maxLedger
      contractId
      error := none }

section Check

variable {table contractId database locale limits failures} {chunkResults : List ChunkResult}

theorem find?_error_eq_none (h : ∀ chunk ∈ chunkResults, chunk.error = none) :
    (chunkResults.find? (·.error.isSome)).bind (·.error) = none := by
  have hnone : chunkResults.find? (·.error.isSome) = none := by
    rw [List.find?_eq_none]
    intro chunk hchunk
    simp [h chunk hchunk]
  rw [hnone]
  rfl

theorem combine_of_answered {minLedger maxLedger : ℤ}
    (hanswered : ∀ start ∈ chunkStarts limits maxLedger minLedger,
      Answered limits failures start) :
    let duplicates :=
      sortDuplicates locale (duplicateQuery table contractId database minLedger maxLedger)
    combine contractId locale minLedger maxLedger
        ((chunkStarts limits maxLedger minLedger).map
          (checkChunk table contractId database limits failures maxLedger)) =
      { hasIssues := 0 < (gapQuery table contractId minLedger maxLedger).length ||
          0 < duplicates.length
        gaps := gapQuery table contractId minLedger maxLedger
        duplicates
        fromLedger := minLedger
        toLedger := maxLedger
        contractId
        error := none } := by
  have hchunk : ∀ start ∈ chunkStarts limits maxLedger minLedger,
      checkChunk table contractId database limits failures maxLedger start =
        let finish := min (start + limits.chunkSize - 1) maxLedger
        { gaps := gapQuery table contractId start finish
          duplicates := duplicateQuery table contractId database start finish
          error := none } := by
    intro start hstart
    obtain ⟨n, hn, hanswer, hbefore⟩ := hanswered start hstart
    apply attemptsFrom_of_answered hn
    · rwa [Nat.zero_add]
    · intro m hm
      rw [Nat.zero_add]
      exact hbefore m hm
  have hresults := List.map_congr_left hchunk
  have herrors : ∀ chunk ∈ (chunkStarts limits maxLedger minLedger).map
      (checkChunk table contractId database limits failures maxLedger), chunk.error = none := by
    rw [hresults]
    intro chunk hmem
    obtain ⟨start, -, rfl⟩ := List.mem_map.mp hmem
    rfl
  rw [combine, find?_error_eq_none herrors, List.filter_eq_self.mpr]
  · rw [hresults, List.flatMap_map, List.flatMap_map]
    dsimp only
    rw [flatMap_chunkStarts limits (gapQuery table contractId) (fun a b => gapQuery_append)
        (fun a => gapQuery_empty),
      flatMap_chunkStarts limits (duplicateQuery table contractId database)
        (fun a b => duplicateQuery_append) (fun a => duplicateQuery_empty), sortGaps_gapQuery]
  · intro chunk hmem
    rw [herrors chunk hmem]
    rfl

variable (contractId locale) in
theorem isSome_combine_error {chunk : ChunkResult} (hmem : chunk ∈ chunkResults)
    (herror : chunk.error.isSome) (minLedger maxLedger : ℤ) :
    (combine contractId locale minLedger maxLedger chunkResults).error.isSome := by
  have hfound : (chunkResults.find? (·.error.isSome)).isSome :=
    List.find?_isSome.mpr ⟨chunk, hmem, herror⟩
  obtain ⟨found, hfound⟩ := Option.isSome_iff_exists.mp hfound
  have hsome := List.find?_some hfound
  rw [combine, hfound]
  exact hsome

theorem combine_error_ne {text : String} (herrors : ∀ chunk ∈ chunkResults, chunk.error ≠ some text)
    (minLedger maxLedger : ℤ) :
    (combine contractId locale minLedger maxLedger chunkResults).error ≠ some text := by
  intro herror
  obtain ⟨chunk, hfound, hchunk⟩ := Option.bind_eq_some_iff.mp herror
  exact herrors chunk (List.mem_of_find?_eq_some hfound) hchunk

theorem checkReplayIntegrity_eq {fromLedger toLedger minLedger maxLedger : ℤ}
    (hrange : failures.range = none)
    (hledgers : rangeQuery table contractId (min fromLedger toLedger) (max fromLedger toLedger) =
      some (minLedger, maxLedger)) {order : List ℕ} {result : ReplayIntegrityCheckResult}
    (hrun : checkReplayIntegrity table contractId database locale limits failures fromLedger
      toLedger order = some result) :
    result = combine contractId locale minLedger maxLedger
      ((chunkStarts limits maxLedger minLedger).map
        (checkChunk table contractId database limits failures maxLedger)) := by
  simp only [checkReplayIntegrity, hrange, hledgers, Option.map_eq_some_iff] at hrun
  obtain ⟨results, hmap, rfl⟩ := hrun
  rw [ConcurrentMap.mapWithConcurrency_eq limits.one_le_concurrency hmap, List.filterMap_map]
  congr 1
  exact congrFun List.filterMap_eq_map _

theorem exists_checkReplayIntegrity (fromLedger toLedger : ℤ) :
    ∃ order result, checkReplayIntegrity table contractId database locale limits failures
      fromLedger toLedger order = some result := by
  rw [exists_comm]
  simp only [checkReplayIntegrity]
  cases failures.range with
  | some => exact ⟨_, [], rfl⟩
  | none =>
    cases rangeQuery table contractId (min fromLedger toLedger) (max fromLedger toLedger) with
    | none => exact ⟨_, [], rfl⟩
    | some ledgers =>
      obtain ⟨minLedger, maxLedger⟩ := ledgers
      obtain ⟨order, results, hmap⟩ := ConcurrentMap.exists_mapWithConcurrency
        (checkChunk table contractId database limits failures maxLedger)
        (chunkStarts limits maxLedger minLedger) limits.concurrency
      dsimp only
      exact ⟨_, order, by rw [hmap, Option.map_some]⟩

end Check

/-- For every table, range, chunk size and concurrency the check ends, and in whatever order the
chunks are done: if each of them is answered within its budget, the result is that of the check
without chunks; if every attempt of one of them fails, the result carries an error, which has a
text if the failures have. -/
theorem checkReplayIntegrity_unchunked (fromLedger toLedger : ℤ) :
    (∃ order result, checkReplayIntegrity table contractId database locale limits failures
      fromLedger toLedger order = some result) ∧
    ∀ order result, checkReplayIntegrity table contractId database locale limits failures
        fromLedger toLedger order = some result → failures.range = none →
      ((∀ start ∈ checkedStarts table contractId limits fromLedger toLedger,
          Answered limits failures start) →
        result = unchunkedScan table contractId database locale fromLedger toLedger) ∧
      ((∃ start ∈ checkedStarts table contractId limits fromLedger toLedger,
          Unanswered limits failures start) →
        result.error.isSome ∧
        ((∀ start n, failures.attempt start n ≠ some "") → truthy result.error)) := by
  refine ⟨exists_checkReplayIntegrity fromLedger toLedger, ?_⟩
  intro order result hrun hrange
  cases hledgers : rangeQuery table contractId (min fromLedger toLedger)
      (max fromLedger toLedger) with
  | none =>
    simp only [checkedStarts, unchunkedScan, hledgers]
    simp only [checkReplayIntegrity, hrange, hledgers, Option.some.injEq] at hrun
    exact ⟨fun _ => hrun.symm, fun ⟨_, hmem, _⟩ => absurd hmem List.not_mem_nil⟩
  | some ledgers =>
    obtain ⟨minLedger, maxLedger⟩ := ledgers
    simp only [checkedStarts, unchunkedScan, hledgers]
    rw [checkReplayIntegrity_eq hrange hledgers hrun]
    apply And.intro
    · exact combine_of_answered
    · rintro ⟨start, hstart, hfails⟩
      have hchunk : (checkChunk table contractId database limits failures maxLedger
          start).error.isSome := by
        apply attemptsFrom_of_unanswered rfl
        intro m hm
        rw [Nat.zero_add]
        exact hfails m hm
      have hsome := isSome_combine_error contractId locale
        (List.mem_map_of_mem hstart) hchunk minLedger maxLedger
      refine ⟨hsome, fun htext => ?_⟩
      have htext' : (combine contractId locale minLedger maxLedger
          ((chunkStarts limits maxLedger minLedger).map
            (checkChunk table contractId database limits failures maxLedger))).error ≠
          some "" := by
        apply combine_error_ne
        intro chunk hmem
        obtain ⟨start, -, rfl⟩ := List.mem_map.mp hmem
        exact attemptsFrom_error_ne (by decide) (htext start)
      obtain ⟨text, herror⟩ := Option.isSome_iff_exists.mp hsome
      rw [herror] at htext' ⊢
      simpa [truthy] using htext'

theorem byCodePoint_total (a b : String) : decide (a ≤ b) ∨ decide (b ≤ a) := by
  simpa using le_total a b

theorem byCodePoint_trans (a b c : String) : decide (a ≤ b) → decide (b ≤ c) → decide (a ≤ c) := by
  simpa using le_trans

/-- The order of the code points. -/
def byCodePoint : Collation where
  le a b := a ≤ b
  total := byCodePoint_total
  trans := byCodePoint_trans

/-- The first query of a chunk fails, its second attempt is answered, and the range is reported
as intact. -/
theorem checkReplayIntegrity_retried :
    let failures : Failures := { gap := fun _ n => if n = 0 then some "timeout" else none }
    failures.attempt 1 0 = some "timeout" ∧
      checkReplayIntegrity [⟨"C1", "e1", 1⟩] "C1" byCodePoint byCodePoint integrityLimits failures
          1 1 [0] =
        some
          { hasIssues := false
            gaps := []
            duplicates := []
            fromLedger := 1
            toLedger := 1
            contractId := "C1"
            error := none } := by
  have hledgers : rangeQuery [⟨"C1", "e1", 1⟩] "C1" (min 1 1) (max 1 1) = some (1, 1) := by decide
  have hstarts : chunkStarts integrityLimits 1 1 = [1] := by
    simp [chunkStarts, integrityLimits]
  refine ⟨rfl, ?_⟩
  simp only [checkReplayIntegrity, hledgers, hstarts]
  decide

end Fluxora.Indexer.ReplayIntegrity
