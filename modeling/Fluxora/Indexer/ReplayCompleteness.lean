/-
# Completed cursors

A cursor marked completed should stand for a request all of whose rows have been copied. The
invariant behind it ties three offsets together: the offset of a cursor counts rows that are
stored, the offset of a running replay never exceeds that of its cursor, and a batch on its way to
a commit is the one at its replay's offset.

Two exits of the loop break the law. The theorem is about the runs in which neither happens.
-/

import Mathlib.Data.String.Basic
import Fluxora.Indexer.ReplayMachine

namespace Fluxora.Indexer

open Lib Lib.KeyedTable Lib.Transition

section

variable {ι ε : Type} [DecidableEq ι] [LinearOrder ε] {table : HistoricalEvents ε}
  {db db' : Database ε} {count : ℕ} {cfg : ReplayConfig ε}

/-! ## Stored prefixes -/

/-- The first rows of a request, in replay order, are stored. -/
def StoredUpTo (table : HistoricalEvents ε) (request : ReplayRequest)
    (events : List (ContractEvent ε)) (count : ℕ) : Prop :=
  ∀ row ∈ (orderedRows table request).take count,
    row.eventId ∈ events.map ContractEvent.eventId

variable {request : ReplayRequest}

theorem StoredUpTo.mono (hgrows : db.Grows db')
    (hstored : StoredUpTo table request db.contractEvents count) :
    StoredUpTo table request db'.contractEvents count :=
  fun row hrow => hgrows.events _ (hstored row hrow)

omit [LinearOrder ε] in
theorem Covers.mono (hgrows : db.Grows db') (hcovers : Covers table request db.contractEvents) :
    Covers table request db'.contractEvents :=
  fun row hmem hselects => hgrows.events _ (hcovers row hmem hselects)

variable {events : List (ContractEvent ε)}

theorem StoredUpTo.covers (hstored : StoredUpTo table request events count)
    (hcount : (orderedRows table request).length ≤ count) : Covers table request events := by
  rw [covers_iff_orderedRows]
  intro row hrow
  apply hstored
  rw [List.take_of_length_le hcount]
  exact hrow

theorem StoredUpTo.insert_batch {start : ℕ} (hstored : StoredUpTo table request events count)
    (hstart : start ≤ count) (limit : ℕ) :
    StoredUpTo table request
      (insertAll ContractEvent.eventId events (fetchEventBatch table request start limit))
      (max count (start + (fetchEventBatch table request start limit).length)) := by
  intro row hrow
  rw [mem_keys_insertAll]
  obtain ⟨index, hindex, hget⟩ := List.mem_take_iff_getElem.mp hrow
  by_cases hprefix : index < count
  · left
    apply hstored
    rw [List.mem_take_iff_getElem]
    exact ⟨index, by omega, hget⟩
  · right
    -- the row is at position `index - start` of the batch
    apply List.mem_map_of_mem
    apply List.mem_of_getElem? (i := index - start)
    have hlimit : index - start < limit := by
      rw [fetchEventBatch, List.length_take] at hindex
      omega
    rw [fetchEventBatch, List.getElem?_take_of_lt hlimit, List.getElem?_drop,
      show start + (index - start) = index by omega, ← hget]
    exact List.getElem?_eq_getElem _

/-! ## The invariant -/

/-- A running replay works on a cursor that selects the same rows, and is not ahead
of it. -/
def RunSound (cfg : ReplayConfig ε) (db : Database ε) (run : ReplayRun) : Prop :=
  ∃ cursor : ReplayCursor, db.cursors[run.cursorId]? = some cursor ∧
    orderedRows cfg.table cursor.toReplayRequest = orderedRows cfg.table run.request ∧
    run.totalRows = cursor.totalRows ∧ run.offset ≤ cursor.lastCommittedOffset

/-- A cursor has counted its rows, has stored the rows before its offset, and is
completed only if it has stored them all. -/
def CursorSound (cfg : ReplayConfig ε) (db : Database ε) (cursor : ReplayCursor) : Prop :=
  cursor.totalRows = countEventsToReplay cfg.table cursor.toReplayRequest ∧
    StoredUpTo cfg.table cursor.toReplayRequest db.contractEvents cursor.lastCommittedOffset ∧
    (cursor.completed = true → Covers cfg.table cursor.toReplayRequest db.contractEvents)

def CursorsSound (cfg : ReplayConfig ε) (db : Database ε) : Prop :=
  ∀ (id : ℕ) (cursor : ReplayCursor), db.cursors[id]? = some cursor → CursorSound cfg db cursor

def PhaseSound (cfg : ReplayConfig ε) (db : Database ε) : Phase ε → Prop
  | .idle | .resolving _ | .creating _ => True
  | .looping run | .fetching run => RunSound cfg db run
  | .committing run rows =>
    RunSound cfg db run ∧
      rows = fetchEventBatch cfg.table run.request run.offset cfg.batchSize
  | .finalizing run => RunSound cfg db run ∧ Covers cfg.table run.request db.contractEvents

variable {run : ReplayRun}

theorem RunSound.mono (hgrows : db.Grows db') (hrun : RunSound cfg db run) :
    RunSound cfg db' run := by
  obtain ⟨cursor, hcursor, hrows, htotal, hoffset⟩ := hrun
  obtain ⟨cursor', hcursor', hrequest, htotal', hoffset', _⟩ :=
    hgrows.cursors _ cursor hcursor
  exact ⟨cursor', hcursor', by rw [hrequest, hrows], htotal.trans htotal'.symm,
    Nat.le_trans hoffset hoffset'⟩

theorem RunSound.covers (hdb : CursorsSound cfg db) (hrun : RunSound cfg db run)
    (hend : (orderedRows cfg.table run.request).length ≤ run.offset) :
    Covers cfg.table run.request db.contractEvents := by
  obtain ⟨cursor, hcursor, hrows, _, hoffset⟩ := hrun
  obtain ⟨_, hstored, _⟩ := hdb _ cursor hcursor
  rw [covers_iff_orderedRows, ← hrows, ← covers_iff_orderedRows]
  apply hstored.covers
  rw [hrows]
  exact Nat.le_trans hend hoffset

theorem RunSound.length_eq (hdb : CursorsSound cfg db) (hrun : RunSound cfg db run) :
    (orderedRows cfg.table run.request).length = run.totalRows := by
  obtain ⟨cursor, hcursor, hrows, htotal, _⟩ := hrun
  rw [← hrows, length_orderedRows, htotal]
  exact (hdb _ cursor hcursor).1.symm

theorem phaseSound_enterLoop (hdb : CursorsSound cfg db) (hrun : RunSound cfg db run) :
    PhaseSound cfg db (enterLoop run) := by
  rw [enterLoop]
  by_cases hnone : run.totalRows = 0
  · rw [if_pos hnone]
    refine ⟨hrun, hrun.covers hdb ?_⟩
    rw [hrun.length_eq hdb, hnone]
    exact Nat.zero_le _
  · rw [if_neg hnone]
    exact hrun

variable {cursor : ReplayCursor}

theorem CursorSound.mono (hgrows : db.Grows db') (hcursor : CursorSound cfg db cursor) :
    CursorSound cfg db' cursor :=
  ⟨hcursor.1, hcursor.2.1.mono hgrows, fun hdone => (hcursor.2.2 hdone).mono hgrows⟩

theorem findActive_isSome {cursors : List ReplayCursor} {id : ℕ}
    (hcursor : cursors[id]? = some cursor) (hopen : cursor.completed = false) :
    ∃ found, findActive cursors cursor.contractId cursor.ledger = some found := by
  have hmem : (cursor, id) ∈ cursors.zipIdx.filter
      fun entry => entry.1.isActiveFor cursor.contractId cursor.ledger := by
    rw [List.mem_filter]
    exact ⟨List.mk_mem_zipIdx_iff_getElem?.mpr hcursor, by simp [ReplayCursor.isActiveFor, hopen]⟩
  rw [findActive]
  cases hlast : List.getLast? (cursors.zipIdx.filter
      fun entry => entry.1.isActiveFor cursor.contractId cursor.ledger) with
  | none =>
    rw [List.getLast?_eq_none_iff.mp hlast] at hmem
    exact (List.not_mem_nil hmem).elim
  | some found => exact ⟨found, rfl⟩

theorem orderedRows_congr {first second : ReplayRequest}
    (hsame : ∀ row ∈ table.rows, first.selects row = second.selects row) :
    orderedRows table first = orderedRows table second := by
  rw [orderedRows, orderedRows, List.filter_congr hsame]

/-! ## The transitions -/

theorem cursorsSound_create (hdb : CursorsSound cfg db) (request : ReplayRequest) :
    CursorsSound cfg (db.create request (countEventsToReplay cfg.table request)) := by
  intro id cursor hcursor
  rcases getElem?_create hcursor with hold | hnew
  · exact hdb id cursor hold
  · rw [hnew]
    refine ⟨rfl, ?_, fun hdone => by cases hdone⟩
    intro row hrow
    simp at hrow

theorem cursorsSound_commitRun (hdb : CursorsSound cfg db) (hrun : RunSound cfg db run) :
    CursorsSound cfg (commitRun db run
      (fetchEventBatch cfg.table run.request run.offset cfg.batchSize)) := by
  have hgrows := grows_commitRun db run
    (fetchEventBatch cfg.table run.request run.offset cfg.batchSize)
  obtain ⟨own, hown, hrows, _, hoffset⟩ := hrun
  intro id cursor hcursor
  obtain ⟨old, hold, hcase⟩ := getElem?_modify_cases hcursor
  have hsound := (hdb id old hold).mono hgrows
  rcases hcase with ⟨hid, hnew⟩ | ⟨_, hsame⟩
  · -- the cursor of the batch: its stored prefix grows with its offset
    have hsame : own = old := by
      rw [hid, hold] at hown
      exact (Option.some.inj hown).symm
    subst hsame
    rw [hnew]
    refine ⟨hsound.1, ?_, hsound.2.2⟩
    have hprefix := (hdb id own hold).2.1.insert_batch hoffset cfg.batchSize
    simp only [fetchEventBatch, hrows] at hprefix
    exact hprefix
  · rw [hsame]
    exact hsound

theorem RunSound.commitRun (hrun : RunSound cfg db run) (rows : List (ContractEvent ε)) :
    RunSound cfg (Indexer.commitRun db run rows)
      { run with offset := run.offset + rows.length } := by
  obtain ⟨cursor, hcursor, hrows, htotal, _⟩ := hrun
  refine ⟨cursor.advanceOffset (run.offset + rows.length), ?_, hrows, htotal,
    Nat.le_max_right _ _⟩
  simp [Indexer.commitRun, Database.commitBatch, hcursor]

theorem cursorsSound_completeCursor (hdb : CursorsSound cfg db) (hrun : RunSound cfg db run)
    (hcovers : Covers cfg.table run.request db.contractEvents) :
    CursorsSound cfg (db.completeCursor run.cursorId) := by
  obtain ⟨own, hown, hrows, _, _⟩ := hrun
  intro id cursor hcursor
  obtain ⟨old, hold, hcase⟩ := getElem?_modify_cases hcursor
  obtain ⟨hcount, hstored, hdone⟩ := hdb id old hold
  rcases hcase with ⟨hid, hnew⟩ | ⟨_, hsame⟩
  · have hsame : own = old := by
      rw [hid, hold] at hown
      exact (Option.some.inj hown).symm
    subst hsame
    rw [hnew]
    refine ⟨hcount, hstored, fun _ => ?_⟩
    rw [covers_iff_orderedRows, ← hrows] at hcovers
    exact (covers_iff_orderedRows _ _ _).mpr hcovers
  · rw [hsame]
    exact ⟨hcount, hstored, hdone⟩

/-- The steps under which completed cursors are complete. A replay only resumes a
cursor that selects the rows of its request, does not lose its leadership with rows
left, and fetches batches that have rows. -/
def ReplayStepAllowed (cfg : ReplayConfig ε) (s : SystemState ι ε) : Label ι → Prop
  | .findActive i => ∀ request cursor id, (s.processes i).phase = .resolving request →
      findActive s.db.cursors request.contractId request.ledger = some (cursor, id) →
      ∀ row ∈ cfg.table.rows, cursor.selects row = request.selects row
  | .head i isLeader => isLeader = true ∨ (s.processes i).stopRequested = true ∨
      ∀ run, (s.processes i).phase = .looping run → run.totalRows ≤ run.offset
  | .fetch _ => 0 < cfg.batchSize
  | _ => True

omit [DecidableEq ι] in
theorem completeness_rules (cfg : ReplayConfig ε) :
    StepRules cfg (ReplayStepAllowed cfg : SystemState ι ε → Label ι → Prop)
      (CursorsSound cfg) (PhaseSound cfg) where
  mono := by
    intro db db' phase hgrows hphase
    cases phase with
    | idle | resolving | creating => trivial
    | looping | fetching => exact RunSound.mono hgrows hphase
    | committing => exact ⟨RunSound.mono hgrows hphase.1, hphase.2⟩
    | finalizing => exact ⟨RunSound.mono hgrows hphase.1, hphase.2.mono hgrows⟩
  idle _ := trivial
  start _ := trivial
  resume := by
    intro s i request cursor id hallowed hphase hdb _ hfound
    apply phaseSound_enterLoop hdb
    exact ⟨cursor, getElem?_of_findActive hfound,
      orderedRows_congr (hallowed request cursor id hphase hfound), rfl, Nat.le_refl _⟩
  absent _ := trivial
  create := by
    intro db request hdb _
    have hcreated := cursorsSound_create hdb request
    refine ⟨hcreated, phaseSound_enterLoop hcreated ?_⟩
    refine ⟨⟨request, countEventsToReplay cfg.table request, 0, false⟩, ?_, rfl, rfl,
      Nat.le_refl _⟩
    simp [Database.create]
  finish := by
    intro db run hdb hrun hend
    have hcopied : (orderedRows cfg.table run.request).length ≤ run.offset := by
      rw [RunSound.length_eq hdb hrun]
      exact hend
    exact ⟨hrun, RunSound.covers hdb hrun hcopied⟩
  demoted := by
    intro s i run hallowed hphase hmore hstop _ _
    rcases hallowed with hleader | hstopped | hend
    · cases hleader
    · rw [hstop] at hstopped
      cases hstopped
    · exact absurd (hend run hphase) (Nat.not_le_of_lt hmore)
  enter hrun := hrun
  exhausted := by
    intro s i run hbatch _ _ hdb hrun hfetch
    refine ⟨hrun, RunSound.covers hdb hrun ?_⟩
    rcases List.take_eq_nil_iff.mp hfetch with hzero | hnone
    · exact absurd hbatch (by simp [ReplayStepAllowed, hzero])
    · exact List.drop_eq_nil_iff.mp hnone
  fetched hrun _ := ⟨hrun, rfl⟩
  commit := by
    intro db run rows hdb hphase
    obtain ⟨hrun, hrows⟩ := hphase
    subst hrows
    exact ⟨cursorsSound_commitRun hdb hrun, hrun.commitRun _⟩
  finalize hdb hphase := cursorsSound_completeCursor hdb hphase.1 hphase.2

/-- In every run of allowed steps, from any content of `contract_events`, a completed
cursor has all its rows stored, and a cursor with a missing row is still there to be
resumed. -/
theorem replay_completeness (cfg : ReplayConfig ε) (events : List (ContractEvent ε))
    (s : SystemState ι ε)
    (hrun : Reaches (step cfg) (ReplayStepAllowed cfg) (SystemState.initial events) s)
    (id : ℕ) (cursor : ReplayCursor) (hcursor : s.db.cursors[id]? = some cursor) :
    (cursor.completed = true → Covers cfg.table cursor.toReplayRequest s.db.contractEvents) ∧
    (¬ Covers cfg.table cursor.toReplayRequest s.db.contractEvents →
      ∃ found, findActive s.db.cursors cursor.contractId cursor.ledger = some found) := by
  have hinitial : CursorsSound cfg (⟨events, []⟩ : Database ε) := by
    intro id cursor hnone
    simp at hnone
  have hinv := (StateInv.initial (completeness_rules cfg) hinitial).reaches
    (completeness_rules cfg) hrun
  have hdone := (hinv.database id cursor hcursor).2.2
  refine ⟨hdone, fun hmissing => findActive_isSome hcursor ?_⟩
  rw [Bool.eq_false_iff]
  exact fun hcompleted => hmissing (hdone hcompleted)

end

/-! ## Four rows and one process -/

/-- A historical event of one contract and ledger at a block. -/
def sampleEvent (eventId : String) (blockHeight : ℕ) : ContractEvent String :=
  ⟨eventId, "contract", 7, "created", .null, blockHeight, "hash"⟩

/-- Four rows, two for each of two block ranges, and batches of one row. -/
def sampleConfig : ReplayConfig String where
  table := ⟨[sampleEvent "a" 1, sampleEvent "b" 2, sampleEvent "c" 11, sampleEvent "d" 12],
    by decide⟩
  batchSize := 1

def lowBlocks : ReplayRequest := ⟨"contract", 7, some 1, some 2⟩

def highBlocks : ReplayRequest := ⟨"contract", 7, some 11, some 12⟩

/-- A fresh replay that has looked for a cursor and found none. -/
def freshReplay (request : ReplayRequest) : SystemState Unit String :=
  (SystemState.initial []).put () ⟨[], []⟩ (.creating request) false

theorem freshReplay_reaches (request : ReplayRequest) :
    Reaches (step sampleConfig) (ReplayStepAllowed sampleConfig) (SystemState.initial [])
      (freshReplay request) := by
  have hstart : Reaches (step sampleConfig) (ReplayStepAllowed sampleConfig)
      (SystemState.initial [])
      ((SystemState.initial []).put () ⟨[], []⟩ (.resolving request) false) :=
    (Reaches.refl _).tail (show ReplayStepAllowed sampleConfig _
      (.start () request) from trivial) rfl
  apply hstart.tail (show ReplayStepAllowed sampleConfig _ (.findActive ()) from ?_) rfl
  intro request' cursor id _ hfound
  cases hfound

/-- The rest of the first batch. -/
def firstBatch : List (Label Unit) :=
  [.create (), .head () true, .fetch (), .commit ()]

/-- A replay whose two batches are committed. -/
theorem replay_completeness_sample :
    ∃ s : SystemState Unit String, s.db.cursors = [⟨lowBlocks, 2, 2, true⟩] ∧
      Covers sampleConfig.table lowBlocks s.db.contractEvents := by
  have hlabels : (run (step sampleConfig) (freshReplay lowBlocks)
      (firstBatch ++ [.head () true, .fetch (), .commit (), .head () true, .finalize ()])).map
        (fun s => s.db.cursors) = some [⟨lowBlocks, 2, 2, true⟩] := by decide
  obtain ⟨s, hrun, hcursors⟩ := Option.map_eq_some_iff.mp hlabels
  have hreaches : Reaches (step sampleConfig) (ReplayStepAllowed sampleConfig)
      (freshReplay lowBlocks) s := by
    apply Reaches.of_run _ hrun
    intro s label hlabel
    simp only [firstBatch, List.cons_append, List.nil_append, List.mem_cons,
      List.not_mem_nil, or_false] at hlabel
    rcases hlabel with rfl | rfl | rfl | rfl | rfl | rfl | rfl | rfl | rfl
    all_goals simp [ReplayStepAllowed, sampleConfig]
  have hcomplete := replay_completeness sampleConfig [] s
    ((freshReplay_reaches lowBlocks).trans hreaches) 0 ⟨lowBlocks, 2, 2, true⟩
    (by rw [hcursors]; rfl)
  exact ⟨s, hcursors, hcomplete.1 rfl⟩

/-- Losing the leadership after the first of two batches completes the cursor with a
row missing. -/
theorem replay_completeness_fails :
    ∃ s : SystemState Unit String,
      Reaches (step sampleConfig) (fun _ _ => True) (SystemState.initial []) s ∧
      s.db.cursors = [⟨lowBlocks, 2, 1, true⟩] ∧
      ¬ Covers sampleConfig.table lowBlocks s.db.contractEvents := by
  have hlabels : (run (step sampleConfig) (SystemState.initial [] : SystemState Unit String)
      (.start () lowBlocks :: .findActive () ::
        firstBatch ++ [.head () false, .finalize ()])).map
        (fun s => (s.db.cursors, s.db.contractEvents.map ContractEvent.eventId)) =
      some ([⟨lowBlocks, 2, 1, true⟩], ["a"]) := by decide
  obtain ⟨s, hrun, hstate⟩ := Option.map_eq_some_iff.mp hlabels
  obtain ⟨hcursors, hevents⟩ := Prod.mk.inj hstate
  refine ⟨s, Reaches.of_run (fun _ _ _ => trivial) hrun, hcursors, ?_⟩
  intro hcovers
  have hmissing := hcovers (sampleEvent "b" 2) (by simp [sampleConfig]) (by decide)
  rw [hevents] at hmissing
  simp [sampleEvent] at hmissing

/-- After a replay of other blocks died behind its first batch, a replay that ends
naturally skips the first of its two rows. -/
theorem replayEvents_covers_fails :
    ∃ s : SystemState Unit String,
      Reaches (step sampleConfig) (fun _ _ => True) (SystemState.initial []) s ∧
      (replayEvents sampleConfig.table 1 s.db lowBlocks).cursors =
        [⟨highBlocks, 2, 2, true⟩] ∧
      ¬ Covers sampleConfig.table lowBlocks
        (replayEvents sampleConfig.table 1 s.db lowBlocks).contractEvents := by
  have hlabels : (run (step sampleConfig) (SystemState.initial [] : SystemState Unit String)
      (.start () highBlocks :: .findActive () :: firstBatch ++ [.crash ()])).map
        (fun s => ((replayEvents sampleConfig.table 1 s.db lowBlocks).cursors,
          (replayEvents sampleConfig.table 1 s.db lowBlocks).contractEvents.map
            ContractEvent.eventId)) =
      some ([⟨highBlocks, 2, 2, true⟩], ["c", "b"]) := by decide
  obtain ⟨s, hrun, hstate⟩ := Option.map_eq_some_iff.mp hlabels
  obtain ⟨hcursors, hevents⟩ := Prod.mk.inj hstate
  refine ⟨s, Reaches.of_run (fun _ _ _ => trivial) hrun, hcursors, ?_⟩
  intro hcovers
  have hmissing := hcovers (sampleEvent "a" 1) (by simp [sampleConfig]) (by decide)
  rw [hevents] at hmissing
  simp [sampleEvent] at hmissing

end Fluxora.Indexer
