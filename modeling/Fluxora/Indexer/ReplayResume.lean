/-
# Crash and resume

One request, replayed by any number of processes that may fail, be stopped or die at any point and
start over. Whatever the schedule, `contract_events` is what it was at first plus a prefix of the
request's ordered rows, and the length of the prefix is the furthest offset a cursor has reached.

It follows that all schedules that complete agree, and that they agree with the replay nothing
interrupts.
-/

import Fluxora.Indexer.ReplayCompleteness

namespace Fluxora.Indexer

open Lib Lib.KeyedTable Lib.Transition

/-! ## The furthest offset -/

/-- The furthest committed offset among the cursors. With one cursor it is that
cursor's `last_committed_offset`. -/
def progress : List ReplayCursor → ℕ
  | [] => 0
  | cursor :: rest => max cursor.lastCommittedOffset (progress rest)

theorem progress_append (first second : List ReplayCursor) :
    progress (first ++ second) = max (progress first) (progress second) := by
  induction first with
  | nil => simp [progress]
  | cons _ _ ih => rw [List.cons_append, progress, progress, ih, Nat.max_assoc]

theorem le_progress {cursors : List ReplayCursor} {id : ℕ} {cursor : ReplayCursor}
    (hcursor : cursors[id]? = some cursor) : cursor.lastCommittedOffset ≤ progress cursors := by
  induction cursors generalizing id with
  | nil => simp at hcursor
  | cons _ _ ih =>
    rw [progress]
    cases id with
    | zero =>
      cases hcursor
      exact Nat.le_max_left _ _
    | succ => exact Nat.le_trans (ih hcursor) (Nat.le_max_right _ _)

theorem progress_advance {cursors : List ReplayCursor} {id : ℕ} {cursor : ReplayCursor}
    (hcursor : cursors[id]? = some cursor) (newOffset : ℕ) :
    progress (cursors.modify id (ReplayCursor.advanceOffset newOffset)) =
      max (progress cursors) newOffset := by
  induction cursors generalizing id with
  | nil => simp at hcursor
  | cons _ _ ih =>
    cases id with
    | zero =>
      rw [List.modify_zero_cons, progress, progress, ReplayCursor.advanceOffset]
      simp only
      omega
    | succ => rw [List.modify_succ_cons, progress, progress, ih hcursor, Nat.max_assoc]

theorem progress_markCompleted (cursors : List ReplayCursor) (id : ℕ) :
    progress (cursors.modify id ReplayCursor.markCompleted) = progress cursors := by
  induction cursors generalizing id with
  | nil => simp
  | cons _ _ ih =>
    cases id with
    | zero => rfl
    | succ => rw [List.modify_succ_cons, progress, progress, ih]

theorem progress_le {cursors : List ReplayCursor} {bound : ℕ}
    (hbound : ∀ (id : ℕ) (cursor : ReplayCursor), cursors[id]? = some cursor →
      cursor.lastCommittedOffset ≤ bound) : progress cursors ≤ bound := by
  induction cursors with
  | nil => exact Nat.zero_le _
  | cons first _ ih =>
    apply Nat.max_le.mpr
    exact ⟨hbound 0 first rfl, ih fun id cursor hcursor => hbound (id + 1) cursor hcursor⟩

section

variable {ι ε : Type} [DecidableEq ι] [LinearOrder ε] {db' : Database ε}

omit [LinearOrder ε] in
theorem progress_mono {db : Database ε} (hgrows : db.Grows db') :
    progress db.cursors ≤ progress db'.cursors := by
  apply progress_le
  intro id cursor hcursor
  obtain ⟨cursor', hcursor', _, _, hoffset, _⟩ := hgrows.cursors id cursor hcursor
  exact Nat.le_trans hoffset (le_progress hcursor')

/-! ## The invariant -/

section Invariant

variable (cfg : ReplayConfig ε) (request : ReplayRequest) (before : List (ContractEvent ε))

/-- Nothing is left to copy: the furthest offset is at the end, or batches are empty
and nothing is ever copied. -/
def Finished (db : Database ε) : Prop :=
  cfg.batchSize = 0 ∨ (orderedRows cfg.table request).length ≤ progress db.cursors

/-- The stored events are the original ones and a prefix of the request's rows. -/
structure PrefixStored (db : Database ε) : Prop where
  cursors : ∀ (id : ℕ) (cursor : ReplayCursor), db.cursors[id]? = some cursor →
    cursor.totalRows = countEventsToReplay cfg.table request ∧
    (cursor.completed = true → Finished cfg request db)
  events : db.contractEvents = insertAll ContractEvent.eventId before
    ((orderedRows cfg.table request).take (progress db.cursors))
  empty : cfg.batchSize = 0 → progress db.cursors = 0

/-- A replay of the request that is not ahead of its cursor. -/
def RunOfRequest (db : Database ε) (run : ReplayRun) : Prop :=
  run.request = request ∧ run.totalRows = countEventsToReplay cfg.table request ∧
    ∃ cursor : ReplayCursor, db.cursors[run.cursorId]? = some cursor ∧
      run.offset ≤ cursor.lastCommittedOffset

def PhaseOfRequest (db : Database ε) : Phase ε → Prop
  | .idle => True
  | .resolving other | .creating other => other = request
  | .looping run | .fetching run => RunOfRequest cfg request db run
  | .committing run rows =>
    RunOfRequest cfg request db run ∧ rows ≠ [] ∧
      rows = fetchEventBatch cfg.table request run.offset cfg.batchSize
  | .finalizing run => RunOfRequest cfg request db run ∧ Finished cfg request db

/-- Every call is for the request, and no leadership is lost. -/
def OneRequest (_ : SystemState ι ε) : Label ι → Prop
  | .start _ other => other = request
  | .head _ isLeader => isLeader = true
  | _ => True

variable {cfg request before} {db : Database ε} {run : ReplayRun}

omit [LinearOrder ε] in
theorem RunOfRequest.offset_le (hrun : RunOfRequest cfg request db run) :
    run.offset ≤ progress db.cursors := by
  obtain ⟨_, _, cursor, hcursor, hoffset⟩ := hrun
  exact Nat.le_trans hoffset (le_progress hcursor)

omit [LinearOrder ε] in
theorem RunOfRequest.mono (hgrows : db.Grows db') (hrun : RunOfRequest cfg request db run) :
    RunOfRequest cfg request db' run := by
  obtain ⟨hrequest, htotal, cursor, hcursor, hoffset⟩ := hrun
  obtain ⟨cursor', hcursor', _, _, hoffset', _⟩ := hgrows.cursors _ cursor hcursor
  exact ⟨hrequest, htotal, cursor', hcursor', Nat.le_trans hoffset hoffset'⟩

theorem Finished.mono (hgrows : db.Grows db') (hfinished : Finished cfg request db) :
    Finished cfg request db' := by
  rcases hfinished with hzero | hend
  · exact Or.inl hzero
  · exact Or.inr (Nat.le_trans hend (progress_mono hgrows))

theorem RunOfRequest.finished (hrun : RunOfRequest cfg request db run)
    (hend : (orderedRows cfg.table request).length ≤ run.offset) : Finished cfg request db :=
  Or.inr (Nat.le_trans hend hrun.offset_le)

theorem phaseOfRequest_enterLoop (hrun : RunOfRequest cfg request db run) :
    PhaseOfRequest cfg request db (enterLoop run) := by
  rw [enterLoop]
  by_cases hnone : run.totalRows = 0
  · rw [if_pos hnone]
    have hend : (orderedRows cfg.table request).length ≤ run.offset := by
      rw [length_orderedRows, ← hrun.2.1, hnone]
      exact Nat.zero_le _
    exact ⟨hrun, hrun.finished hend⟩
  · rw [if_neg hnone]
    exact hrun

theorem PrefixStored.commitRun {rows : List (ContractEvent ε)}
    (hdb : PrefixStored cfg request before db)
    (hphase : PhaseOfRequest cfg request db (.committing run rows)) :
    PrefixStored cfg request before (Indexer.commitRun db run rows) := by
  obtain ⟨hrun, hnonempty, hrows⟩ := hphase
  have hgrows := grows_commitRun db run rows
  have hoffset := hrun.offset_le
  obtain ⟨_, _, own, hown, _⟩ := hrun
  have hprogress : progress (Indexer.commitRun db run rows).cursors =
      max (progress db.cursors) (run.offset + rows.length) := progress_advance hown _
  have hwindow : rows = ((orderedRows cfg.table request).drop run.offset).take rows.length := by
    conv_lhs => rw [hrows, fetchEventBatch]
    rw [List.take_eq_take_iff, hrows, fetchEventBatch, List.length_take]
    omega
  apply PrefixStored.mk
  case cursors =>
    intro id cursor hcursor
    obtain ⟨old, hold, hcase⟩ := getElem?_modify_cases hcursor
    obtain ⟨htotal, hdone⟩ := hdb.cursors id old hold
    rcases hcase with ⟨_, hnew⟩ | ⟨_, hsame⟩
    · rw [hnew]
      exact ⟨htotal, fun hcompleted => (hdone hcompleted).mono hgrows⟩
    · rw [hsame]
      exact ⟨htotal, fun hcompleted => (hdone hcompleted).mono hgrows⟩
  case events =>
    rw [hprogress, ← insertAll_take_window _ _ _ hoffset, ← hwindow, ← hdb.events]
    rfl
  case empty =>
    intro hzero
    exact (hnonempty (by rw [hrows, fetchEventBatch, hzero, List.take_zero])).elim

theorem PrefixStored.create (hdb : PrefixStored cfg request before db) :
    PrefixStored cfg request before
      (db.create request (countEventsToReplay cfg.table request)) := by
  have hprogress : progress (db.create request (countEventsToReplay cfg.table request)).cursors =
      progress db.cursors := by
    rw [Database.create, progress_append]
    exact Nat.max_eq_left (Nat.zero_le _)
  apply PrefixStored.mk
  case cursors =>
    intro id cursor hcursor
    rcases getElem?_create hcursor with hold | hnew
    · obtain ⟨htotal, hdone⟩ := hdb.cursors id cursor hold
      exact ⟨htotal, fun hcompleted => (hdone hcompleted).mono (Database.grows_create _ _ _)⟩
    · rw [hnew]
      exact ⟨rfl, fun hcompleted => by cases hcompleted⟩
  case events =>
    rw [hprogress]
    exact hdb.events
  case empty =>
    rw [hprogress]
    exact hdb.empty

theorem PrefixStored.completeCursor (hdb : PrefixStored cfg request before db)
    (hfinished : Finished cfg request db)
    (cursorId : ℕ) : PrefixStored cfg request before (db.completeCursor cursorId) := by
  have hprogress : progress (db.completeCursor cursorId).cursors = progress db.cursors :=
    progress_markCompleted db.cursors cursorId
  apply PrefixStored.mk
  case cursors =>
    intro id cursor hcursor
    obtain ⟨old, hold, hcase⟩ := getElem?_modify_cases hcursor
    have htotal := (hdb.cursors id old hold).1
    have hfinished' := hfinished.mono (grows_completeCursor db cursorId)
    rcases hcase with ⟨_, hnew⟩ | ⟨_, hsame⟩
    · rw [hnew]
      exact ⟨htotal, fun _ => hfinished'⟩
    · rw [hsame]
      exact ⟨htotal, fun _ => hfinished'⟩
  case events =>
    rw [hprogress]
    exact hdb.events
  case empty =>
    rw [hprogress]
    exact hdb.empty

variable (cfg request before)

omit [DecidableEq ι] in
theorem resume_rules :
    StepRules cfg (OneRequest request : SystemState ι ε → Label ι → Prop)
      (PrefixStored cfg request before) (PhaseOfRequest cfg request) where
  mono := by
    intro db db' phase hgrows hphase
    cases phase with
    | idle => trivial
    | resolving | creating => exact hphase
    | looping | fetching => exact RunOfRequest.mono hgrows hphase
    | committing => exact ⟨hphase.1.mono hgrows, hphase.2⟩
    | finalizing => exact ⟨hphase.1.mono hgrows, hphase.2.mono hgrows⟩
  idle _ := trivial
  start hallowed := hallowed
  resume := by
    intro s i other cursor id _ _ hdb hother hfound
    have hcursor := getElem?_of_findActive hfound
    apply phaseOfRequest_enterLoop
    exact ⟨hother, (hdb.cursors id cursor hcursor).1, cursor, hcursor, Nat.le_refl _⟩
  absent hother := hother
  create := by
    intro db other hdb hother
    have hrequest : other = request := hother
    subst hrequest
    refine ⟨hdb.create, phaseOfRequest_enterLoop ⟨rfl, rfl, ?_⟩⟩
    exact ⟨⟨other, countEventsToReplay cfg.table other, 0, false⟩, by simp [Database.create],
      Nat.le_refl _⟩
  finish := by
    intro db run _ hrun hend
    have hcopied : (orderedRows cfg.table request).length ≤ run.offset := by
      rw [length_orderedRows, ← hrun.2.1]
      exact hend
    exact ⟨hrun, RunOfRequest.finished hrun hcopied⟩
  demoted hallowed := by cases hallowed
  enter hrun := hrun
  exhausted := by
    intro s i run _ _ _ _ hrun hfetch
    refine ⟨hrun, ?_⟩
    rw [hrun.1] at hfetch
    rcases List.take_eq_nil_iff.mp hfetch with hzero | hnone
    · exact Or.inl hzero
    · exact RunOfRequest.finished hrun (List.drop_eq_nil_iff.mp hnone)
  fetched := by
    intro db run hrun hfetch
    exact ⟨hrun, hfetch, by rw [hrun.1]⟩
  commit := by
    intro db run rows hdb hphase
    obtain ⟨hrequest, htotal, cursor, hcursor, _⟩ := hphase.1
    have hadvanced : (Indexer.commitRun db run rows).cursors[run.cursorId]? =
        some (cursor.advanceOffset (run.offset + rows.length)) := by
      simp [Indexer.commitRun, Database.commitBatch, hcursor]
    exact ⟨hdb.commitRun hphase, hrequest, htotal, _, hadvanced, Nat.le_max_right _ _⟩
  finalize hdb hphase := hdb.completeCursor hphase.2 _

theorem reaches_grows {allowed : SystemState ι ε → Label ι → Prop} {s s' : SystemState ι ε}
    (hrun : Reaches (step cfg) allowed s s') : s.db.Grows s'.db := by
  have hrules : StepRules cfg allowed (fun db => s.db.Grows db) (fun _ _ => True) :=
    { mono := fun _ _ => trivial
      idle := fun _ => trivial
      start := fun _ => trivial
      resume := fun _ _ _ _ _ => trivial
      absent := fun _ => trivial
      create := fun hgrows _ => ⟨hgrows.trans (Database.grows_create _ _ _), trivial⟩
      finish := fun _ _ _ => trivial
      demoted := fun _ _ _ _ _ _ => trivial
      enter := fun _ => trivial
      exhausted := fun _ _ _ _ _ _ => trivial
      fetched := fun _ _ => trivial
      commit := fun hgrows _ => ⟨hgrows.trans (grows_commitRun _ _ _), trivial⟩
      finalize := fun hgrows _ => hgrows.trans (grows_completeCursor _ _) }
  have hinv : StateInv (fun db => s.db.Grows db) (fun _ _ => True) s :=
    ⟨Database.Grows.refl _, fun _ => trivial, fun _ _ => trivial⟩
  exact (hinv.reaches hrules hrun).database

theorem PrefixStored.eq_uninterrupted (hdb : PrefixStored cfg request before db)
    (hfinished : Finished cfg request db) :
    db.contractEvents =
      (replayEvents cfg.table cfg.batchSize ⟨before, []⟩ request).contractEvents := by
  rw [replayEvents_contractEvents, hdb.events]
  have hoffset : resumeOffset (⟨before, []⟩ : Database ε) request = 0 := rfl
  have htotal : resumeTotal cfg.table ⟨before, []⟩ request =
      countEventsToReplay cfg.table request := rfl
  rw [hoffset, htotal, List.drop_zero, Nat.sub_zero]
  congr 1
  rcases Nat.eq_zero_or_pos cfg.batchSize with hzero | hpos
  · rw [hdb.empty hzero, hzero, windowLength, Nat.zero_mul]
  · have hend : (orderedRows cfg.table request).length ≤ progress db.cursors := by
      rcases hfinished with hzero | hend
      · omega
      · exact hend
    have hwindow : (orderedRows cfg.table request).length ≤
        windowLength cfg.batchSize (countEventsToReplay cfg.table request) := by
      rw [length_orderedRows]
      exact le_windowLength hpos _
    rw [List.take_of_length_le hend, List.take_of_length_le hwindow]

/-- For one request and every schedule of commits, failures, crashes, stops and
resumptions: offsets never decrease, no event id is stored twice, the replay has
inserted exactly the first rows of the request up to the furthest offset, and a
schedule with a completed cursor has stored what an uninterrupted replay stores. -/
theorem replay_crash_resume (hnodup : (before.map ContractEvent.eventId).Nodup)
    (s : SystemState ι ε)
    (hrun : Reaches (step cfg) (OneRequest request) (SystemState.initial before) s) :
    (∀ s', Reaches (step cfg) (OneRequest request) s s' →
      ∀ (id : ℕ) (cursor : ReplayCursor), s.db.cursors[id]? = some cursor →
        ∃ cursor' : ReplayCursor, s'.db.cursors[id]? = some cursor' ∧
          cursor.lastCommittedOffset ≤ cursor'.lastCommittedOffset) ∧
    (s.db.contractEvents.map ContractEvent.eventId).Nodup ∧
    s.db.contractEvents = insertAll ContractEvent.eventId before
      ((orderedRows cfg.table request).take (progress s.db.cursors)) ∧
    (∀ cursor, s.db.cursors = [cursor] →
      s.db.contractEvents = insertAll ContractEvent.eventId before
        ((orderedRows cfg.table request).take cursor.lastCommittedOffset)) ∧
    (∀ cursor ∈ s.db.cursors, cursor.completed = true →
      s.db.contractEvents =
        (replayEvents cfg.table cfg.batchSize ⟨before, []⟩ request).contractEvents) := by
  have hrules := resume_rules (ι := ι) cfg request before
  have hinitial : PrefixStored cfg request before (⟨before, []⟩ : Database ε) := by
    refine ⟨?_, rfl, fun _ => rfl⟩
    intro id cursor hnone
    simp at hnone
  have hdb := ((StateInv.initial hrules hinitial).reaches hrules hrun).database
  refine ⟨?_, ?_, hdb.events, ?_, ?_⟩
  · intro s' hlater id cursor hcursor
    obtain ⟨cursor', hcursor', _, _, hoffset, _⟩ :=
      (reaches_grows cfg hlater).cursors id cursor hcursor
    exact ⟨cursor', hcursor', hoffset⟩
  · rw [hdb.events]
    exact nodup_insertAll _ hnodup _
  · intro cursor hsingle
    have hprogress : progress s.db.cursors = cursor.lastCommittedOffset := by
      rw [hsingle, progress, progress]
      exact Nat.max_eq_left (Nat.zero_le _)
    rw [← hprogress]
    exact hdb.events
  · intro cursor hmem hcompleted
    obtain ⟨id, hcursor⟩ := List.mem_iff_getElem?.mp hmem
    exact PrefixStored.eq_uninterrupted cfg request before hdb
      ((hdb.cursors id cursor hcursor).2 hcompleted)

end Invariant

/-- Two rows, a crash during the second batch, a resumption, and the commit of the
lost batch arriving late. -/
theorem replay_crash_resume_sample :
    ∃ s : SystemState Unit String, s.db.cursors = [⟨lowBlocks, 2, 2, true⟩] ∧
      (s.db.contractEvents.map ContractEvent.eventId).Nodup ∧
      s.db.contractEvents =
        (replayEvents sampleConfig.table 1 ⟨[], []⟩ lowBlocks).contractEvents := by
  have hlabels : (run (step sampleConfig) (SystemState.initial [] : SystemState Unit String)
      (.start () lowBlocks :: .findActive () :: firstBatch ++
        [.head () true, .fetch (), .crash (), .start () lowBlocks, .findActive (),
          .settle 0 true, .head () true, .fetch (), .commit (), .head () true,
          .finalize ()])).map (fun s => s.db.cursors) = some [⟨lowBlocks, 2, 2, true⟩] := by
    decide
  obtain ⟨s, hrun, hcursors⟩ := Option.map_eq_some_iff.mp hlabels
  have hreaches : Reaches (step sampleConfig) (OneRequest lowBlocks)
      (SystemState.initial []) s := by
    apply Reaches.of_run _ hrun
    intro s label hlabel
    simp only [firstBatch, List.cons_append, List.nil_append, List.mem_cons,
      List.not_mem_nil, or_false] at hlabel
    rcases hlabel with rfl | rfl | rfl | rfl | rfl | rfl | rfl | rfl | rfl | rfl | rfl | rfl |
      rfl | rfl | rfl | rfl | rfl
    all_goals trivial
  obtain ⟨_, hnodup, _, _, hcomplete⟩ :=
    replay_crash_resume sampleConfig lowBlocks [] List.nodup_nil s hreaches
  have hmem : ⟨lowBlocks, 2, 2, true⟩ ∈ s.db.cursors := by
    rw [hcursors]
    exact List.mem_cons_self
  exact ⟨s, hcursors, hnodup, hcomplete ⟨lowBlocks, 2, 2, true⟩ hmem rfl⟩

/-! ## The uninterrupted replay as a run -/

section Run

variable (cfg : ReplayConfig ε)

omit [LinearOrder ε] in
@[simp]
theorem SystemState.put_processes (s : SystemState ι ε) (i : ι) (db : Database ε)
    (phase : Phase ε) (stopRequested : Bool) :
    (s.put i db phase stopRequested).processes i = ⟨phase, stopRequested⟩ := by
  simp [SystemState.put]

variable (request : ReplayRequest)

theorem replayLoop_reaches (rounds : ℕ) (s : SystemState ι ε) (i : ι) (run : ReplayRun)
    (hphase : s.processes i = ⟨.looping run, false⟩)
    (hrounds : run.totalRows - run.offset ≤ rounds) :
    ∃ (s' : SystemState ι ε) (last : ReplayRun),
      Reaches (step cfg) (OneRequest request) s s' ∧
      s'.db = replayLoop cfg.table cfg.batchSize run.request run.cursorId run.totalRows rounds
        run.offset s.db ∧
      s'.processes i = ⟨.finalizing last, false⟩ ∧ last.cursorId = run.cursorId := by
  induction rounds generalizing s run with
  | zero =>
    have hdone : ¬ run.offset < run.totalRows := by omega
    refine ⟨s.put i s.db (.finalizing run) false, run, ?_, rfl, by simp, rfl⟩
    apply (Reaches.refl s).tail (show OneRequest request s (.head i true) from rfl)
    simp [step, hphase, hdone]
  | succ _ ih =>
    by_cases hmore : run.offset < run.totalRows
    · have hhead : Reaches (step cfg) (OneRequest request) s
          (s.put i s.db (.fetching run) false) := by
        apply (Reaches.refl s).tail (show OneRequest request s (.head i true) from rfl)
        simp [step, hphase, hmore]
      rw [replayLoop, if_pos hmore]
      cases hfetch : fetchEventBatch cfg.table run.request run.offset cfg.batchSize with
      | nil =>
        refine ⟨(s.put i s.db (.fetching run) false).put i s.db (.finalizing run) false, run,
          ?_, rfl, by simp, rfl⟩
        apply hhead.tail (show OneRequest request _ (.fetch i) from trivial)
        simp [step, hfetch, SystemState.put]
      | cons row rest =>
        have hbatch : Reaches (step cfg) (OneRequest request) s
            ((s.put i s.db (.fetching run) false).put i s.db
              (.committing run (row :: rest)) false) := by
          apply hhead.tail (show OneRequest request _ (.fetch i) from trivial)
          simp [step, hfetch, SystemState.put]
        have hcommit : Reaches (step cfg) (OneRequest request) s
            (((s.put i s.db (.fetching run) false).put i s.db
              (.committing run (row :: rest)) false).put i
              (commitRun s.db run (row :: rest))
              (.looping { run with offset := run.offset + (row :: rest).length }) false) := by
          apply hbatch.tail (show OneRequest request _ (.commit i) from trivial)
          simp [step, SystemState.put]
        have hlength : 0 < (row :: rest).length := List.length_pos_of_ne_nil (by simp)
        obtain ⟨s', last, hrest, hdb, hphase', hid⟩ :=
          ih _ { run with offset := run.offset + (row :: rest).length }
            (SystemState.put_processes _ _ _ _ _) (by simp only; omega)
        exact ⟨s', last, hcommit.trans hrest, hdb, hphase', hid⟩
    · refine ⟨s.put i s.db (.finalizing run) false, run, ?_, ?_, by simp, rfl⟩
      · apply (Reaches.refl s).tail (show OneRequest request s (.head i true) from rfl)
        simp [step, hphase, hmore]
      · rw [replayLoop, if_neg hmore]
        rfl

variable (s : SystemState ι ε)

theorem resolveOrCreateCursor_reaches (i : ι) (hidle : s.processes i = ⟨.idle, false⟩) :
    ∃ s' : SystemState ι ε, Reaches (step cfg) (OneRequest request) s s' ∧
      s'.db = (resolveOrCreateCursor cfg.table s.db request).2 ∧
      s'.processes i =
        ⟨enterLoop ⟨request, (resolveOrCreateCursor cfg.table s.db request).1.cursorId,
          (resolveOrCreateCursor cfg.table s.db request).1.offset,
          (resolveOrCreateCursor cfg.table s.db request).1.totalRows⟩, false⟩ := by
  have hstart : Reaches (step cfg) (OneRequest request) s
      (s.put i s.db (.resolving request) false) := by
    apply (Reaches.refl s).tail (show OneRequest request s (.start i request) from rfl)
    simp [step, hidle]
  rw [resolveOrCreateCursor]
  cases hfound : findActive s.db.cursors request.contractId request.ledger with
  | some entry =>
    refine ⟨(s.put i s.db (.resolving request) false).put i s.db
      (enterLoop ⟨request, entry.2, entry.1.lastCommittedOffset, entry.1.totalRows⟩) false,
      ?_, rfl, by simp⟩
    apply hstart.tail (show OneRequest request _ (.findActive i) from trivial)
    simp [step, SystemState.put, hfound]
  | none =>
    have habsent : Reaches (step cfg) (OneRequest request) s
        ((s.put i s.db (.resolving request) false).put i s.db (.creating request) false) := by
      apply hstart.tail (show OneRequest request _ (.findActive i) from trivial)
      simp [step, SystemState.put, hfound]
    refine ⟨((s.put i s.db (.resolving request) false).put i s.db (.creating request) false).put
      i (s.db.create request (countEventsToReplay cfg.table request))
      (enterLoop ⟨request, s.db.cursors.length, 0, countEventsToReplay cfg.table request⟩)
      false, ?_, rfl, by simp⟩
    apply habsent.tail (show OneRequest request _ (.create i) from trivial)
    simp [step, SystemState.put]

theorem finalize_reaches (i : ι) (run : ReplayRun)
    (hphase : s.processes i = ⟨.finalizing run, false⟩) :
    Reaches (step cfg) (OneRequest request) s
      (s.put i (s.db.completeCursor run.cursorId) .idle false) := by
  apply (Reaches.refl s).tail (show OneRequest request s (.finalize i) from trivial)
  simp [step, hphase]

end Run

end

end Fluxora.Indexer
