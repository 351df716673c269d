/-
# Interrupted and concurrent replays

The replay as a transition system. Any number of processes share the database; each runs at most
one replay at a time, and a step is one statement, one batch transaction or one guard of the loop.
A process may be asked to stop at any time, may find that it is no longer the leader, and may fail
or die between any two steps. A transaction whose `COMMIT` was on the way when its process went
away stays pending and is applied or dropped later.

Leadership is not modelled by a lease: whether a process leads is part of the label of the guard
that asks, so that every history of leases is covered.
-/

import Fluxora.Lib.Transition
import Fluxora.Indexer.Replay

namespace Fluxora.Indexer

open Lib Lib.KeyedTable Lib.Transition

/-- What does not change during a history of replays. -/
structure ReplayConfig (ε : Type) where
  table : HistoricalEvents ε
  batchSize : ℕ

/-- The local variables of a replay in its loop. -/
structure ReplayRun where
  request : ReplayRequest
  cursorId : ℕ
  offset : ℕ
  totalRows : ℕ

/-- Where a process is in `replayEvents`. -/
inductive Phase (ε : Type)
  | idle
  /-- The lock and the lease are held. -/
  | resolving (request : ReplayRequest)
  /-- No unfinished cursor was found. -/
  | creating (request : ReplayRequest)
  /-- At the head of the loop. -/
  | looping (run : ReplayRun)
  /-- In a transaction, before the fetch. -/
  | fetching (run : ReplayRun)
  /-- In a transaction, before the commit. -/
  | committing (run : ReplayRun) (rows : List (ContractEvent ε))
  /-- Past the loop, about to mark the cursor completed. -/
  | finalizing (run : ReplayRun)

structure Process (ε : Type) where
  phase : Phase ε
  stopRequested : Bool

/-- A transaction whose process is gone. -/
structure PendingCommit (ε : Type) where
  run : ReplayRun
  rows : List (ContractEvent ε)

structure SystemState (ι ε : Type) where
  db : Database ε
  processes : ι → Process ε
  pending : List (PendingCommit ε)

inductive Label (ι : Type)
  | requestStop (i : ι)
  | start (i : ι) (request : ReplayRequest)
  | findActive (i : ι)
  | create (i : ι)
  /-- The guards at the head of the loop, with what `isLeader` answers. -/
  | head (i : ι) (isLeader : Bool)
  | fetch (i : ι)
  | commit (i : ι)
  | finalize (i : ι)
  /-- A statement fails, the budget is exceeded or a forced stop fires: the call
  rejects. -/
  | fail (i : ι)
  /-- The process dies. -/
  | crash (i : ι)
  /-- A pending transaction is applied or dropped. -/
  | settle (index : ℕ) (applied : Bool)

section

variable {ι ε : Type} [DecidableEq ι] [LinearOrder ε]

/-- All processes idle and no cursor yet, over any content of `contract_events`. -/
def SystemState.initial (events : List (ContractEvent ε)) : SystemState ι ε where
  db := ⟨events, []⟩
  processes _ := ⟨.idle, false⟩
  pending := []

/-- Give a process a new phase and the system a new database. -/
def SystemState.put (s : SystemState ι ε) (i : ι) (db : Database ε) (phase : Phase ε)
    (stopRequested : Bool) : SystemState ι ε :=
  { s with db := db, processes := Function.update s.processes i ⟨phase, stopRequested⟩ }

/-- Enter the loop, unless there is nothing to replay. -/
def enterLoop (run : ReplayRun) : Phase ε :=
  if run.totalRows = 0 then .finalizing run else .looping run

/-- The state after one committed batch of a run. -/
def commitRun (db : Database ε) (run : ReplayRun) (rows : List (ContractEvent ε)) :
    Database ε :=
  db.commitBatch run.cursorId rows (run.offset + rows.length)

/-- What a process leaves behind when it goes away in a given phase. -/
def abandoned : Phase ε → List (PendingCommit ε)
  | .committing run rows => [⟨run, rows⟩]
  | _ => []

/-- The call of a process ends without touching the database. `finally` clears a
stop request. -/
def SystemState.endCall (s : SystemState ι ε) (i : ι) : SystemState ι ε :=
  s.put i s.db .idle false

/-- One step of the system; `none` when the label does not apply. -/
def step (cfg : ReplayConfig ε) (s : SystemState ι ε) : Label ι → Option (SystemState ι ε)
  | .requestStop i => some (s.put i s.db (s.processes i).phase true)
  | .start i request =>
    match (s.processes i).phase with
    | .idle =>
      -- a stop requested beforehand cancels the call
      if (s.processes i).stopRequested then some (s.endCall i)
      else some (s.put i s.db (.resolving request) false)
    | _ => none
  | .findActive i =>
    match (s.processes i).phase with
    | .resolving request =>
      match Indexer.findActive s.db.cursors request.contractId request.ledger with
      | some (cursor, id) =>
        some (s.put i s.db
          (enterLoop ⟨request, id, cursor.lastCommittedOffset, cursor.totalRows⟩)
          (s.processes i).stopRequested)
      | none => some (s.put i s.db (.creating request) (s.processes i).stopRequested)
    | _ => none
  | .create i =>
    match (s.processes i).phase with
    | .creating request =>
      let totalRows := countEventsToReplay cfg.table request
      some (s.put i (s.db.create request totalRows)
        (enterLoop ⟨request, s.db.cursors.length, 0, totalRows⟩)
        (s.processes i).stopRequested)
    | _ => none
  | .head i isLeader =>
    match (s.processes i).phase with
    | .looping run =>
      if run.offset < run.totalRows then
        if (s.processes i).stopRequested then some (s.endCall i)
        else if !isLeader then some (s.put i s.db (.finalizing run) false)
        else some (s.put i s.db (.fetching run) false)
      else some (s.put i s.db (.finalizing run) (s.processes i).stopRequested)
    | _ => none
  | .fetch i =>
    match (s.processes i).phase with
    | .fetching run =>
      if (s.processes i).stopRequested then some (s.endCall i)
      else
        match fetchEventBatch cfg.table run.request run.offset cfg.batchSize with
        | [] => some (s.put i s.db (.finalizing run) false)
        | row :: rest => some (s.put i s.db (.committing run (row :: rest)) false)
    | _ => none
  | .commit i =>
    match (s.processes i).phase with
    | .committing run rows =>
      if (s.processes i).stopRequested then some (s.endCall i)
      else some (s.put i (commitRun s.db run rows)
        (.looping { run with offset := run.offset + rows.length }) false)
    | _ => none
  | .finalize i =>
    match (s.processes i).phase with
    | .finalizing run => some (s.put i (s.db.completeCursor run.cursorId) .idle false)
    | _ => none
  | .fail i | .crash i =>
    some { s.endCall i with pending := s.pending ++ abandoned (s.processes i).phase }
  | .settle index applied =>
    match s.pending[index]? with
    | some transaction =>
      some { s with
        db := if applied then commitRun s.db transaction.run transaction.rows else s.db
        pending := s.pending.eraseIdx index }
    | none => none

end

/-! ## What only grows -/

section

variable {ε : Type}

/-- Stored events stay stored; cursors stay, with their request and count, never move
back and never become unfinished. -/
structure Database.Grows (db db' : Database ε) : Prop where
  events : ∀ eventId ∈ db.contractEvents.map ContractEvent.eventId,
    eventId ∈ db'.contractEvents.map ContractEvent.eventId
  cursors : ∀ (id : ℕ) (cursor : ReplayCursor), db.cursors[id]? = some cursor →
    ∃ cursor' : ReplayCursor, db'.cursors[id]? = some cursor' ∧
    cursor'.toReplayRequest = cursor.toReplayRequest ∧ cursor'.totalRows = cursor.totalRows ∧
    cursor.lastCommittedOffset ≤ cursor'.lastCommittedOffset ∧
    (cursor.completed = true → cursor'.completed = true)

theorem Database.Grows.refl (db : Database ε) : db.Grows db where
  events _ h := h
  cursors _ cursor h := ⟨cursor, h, rfl, rfl, Nat.le_refl _, id⟩

theorem Database.Grows.trans {db db' db'' : Database ε} (hfirst : db.Grows db')
    (hsecond : db'.Grows db'') : db.Grows db'' where
  events eventId h := hsecond.events eventId (hfirst.events eventId h)
  cursors id cursor h := by
    obtain ⟨cursor', hcursor', hrequest, htotal, hoffset, hdone⟩ := hfirst.cursors id cursor h
    obtain ⟨cursor'', hcursor'', hrequest', htotal', hoffset', hdone'⟩ :=
      hsecond.cursors id cursor' hcursor'
    exact ⟨cursor'', hcursor'', hrequest'.trans hrequest, htotal'.trans htotal,
      Nat.le_trans hoffset hoffset', fun h => hdone' (hdone h)⟩

theorem Database.grows_create (db : Database ε) (request : ReplayRequest) (totalRows : ℕ) :
    db.Grows (db.create request totalRows) where
  events _ h := h
  cursors id cursor h := by
    obtain ⟨hlt, _⟩ := List.getElem?_eq_some_iff.mp h
    refine ⟨cursor, ?_, rfl, rfl, Nat.le_refl _, fun hdone => hdone⟩
    rw [Database.create, List.getElem?_append_left hlt]
    exact h

theorem getElem?_of_findActive {cursors : List ReplayCursor} {contractId : String} {ledger : ℕ}
    {cursor : ReplayCursor} {id : ℕ}
    (hfound : findActive cursors contractId ledger = some (cursor, id)) :
    cursors[id]? = some cursor := by
  have hmem := List.mem_of_getLast? hfound
  exact List.mk_mem_zipIdx_iff_getElem?.mp (List.mem_of_mem_filter hmem)

theorem getElem?_create {db : Database ε} {request : ReplayRequest} {totalRows id : ℕ}
    {cursor : ReplayCursor} (h : (db.create request totalRows).cursors[id]? = some cursor) :
    db.cursors[id]? = some cursor ∨ cursor = ⟨request, totalRows, 0, false⟩ := by
  rw [Database.create] at h
  by_cases hold : id < db.cursors.length
  · rw [List.getElem?_append_left hold] at h
    exact Or.inl h
  · rw [List.getElem?_append_right (Nat.le_of_not_lt hold)] at h
    exact Or.inr (List.mem_singleton.mp (List.mem_of_getElem? h))

variable {change : ReplayCursor → ReplayCursor}

theorem getElem?_modify_cases {cursors : List ReplayCursor} {cursorId id : ℕ}
    {cursor : ReplayCursor} (h : (cursors.modify cursorId change)[id]? = some cursor) :
    ∃ old, cursors[id]? = some old ∧
      (cursorId = id ∧ cursor = change old ∨ cursorId ≠ id ∧ cursor = old) := by
  by_cases hid : cursorId = id
  · subst hid
    rw [List.getElem?_modify_eq, Option.map_eq_map, Option.map_eq_some_iff] at h
    obtain ⟨old, hold, hchange⟩ := h
    exact ⟨old, hold, Or.inl ⟨rfl, hchange.symm⟩⟩
  · rw [List.getElem?_modify_ne _ _ hid] at h
    exact ⟨cursor, h, Or.inr ⟨hid, rfl⟩⟩

theorem grows_modify {db : Database ε} {events : List (ContractEvent ε)}
    (hevents : ∀ eventId ∈ db.contractEvents.map ContractEvent.eventId, eventId ∈ events.map
      ContractEvent.eventId)
    (hchange : ∀ cursor, (change cursor).toReplayRequest = cursor.toReplayRequest ∧ (change
      cursor).totalRows = cursor.totalRows ∧ cursor.lastCommittedOffset ≤ (change
      cursor).lastCommittedOffset ∧ (cursor.completed = true → (change cursor).completed = true))
    (cursorId : ℕ) : db.Grows ⟨events, db.cursors.modify cursorId change⟩ where
  events := hevents
  cursors id cursor h := by
    by_cases hid : cursorId = id
    · refine ⟨change cursor, ?_, hchange cursor⟩
      simp [hid, h]
    · refine ⟨cursor, ?_, rfl, rfl, Nat.le_refl _, fun hdone => hdone⟩
      simp [hid, h]

theorem grows_completeCursor (db : Database ε) (cursorId : ℕ) :
    db.Grows (db.completeCursor cursorId) := by
  apply grows_modify
  · intro eventId h
    exact h
  · intro cursor
    exact ⟨rfl, rfl, Nat.le_refl _, fun _ => rfl⟩

end

section

variable {ι ε : Type} [DecidableEq ι] [LinearOrder ε]

theorem grows_commitRun (db : Database ε) (run : ReplayRun) (rows : List (ContractEvent ε)) :
    db.Grows (commitRun db run rows) := by
  apply grows_modify
  · intro eventId h
    exact mem_keys_insertAll_of_mem _ h rows
  · intro cursor
    exact ⟨rfl, rfl, Nat.le_max_left _ _, fun hdone => hdone⟩

/-! ## A rule for invariants -/

/-- An invariant of the system is a predicate on the database and a predicate on each
phase with respect to the database. A pending transaction is judged like the phase
it was left in. -/
structure StateInv (Good : Database ε → Prop) (Sound : Database ε → Phase ε → Prop)
    (s : SystemState ι ε) : Prop where
  database : Good s.db
  phases : ∀ i, Sound s.db (s.processes i).phase
  pending : ∀ transaction ∈ s.pending, Sound s.db (.committing transaction.run transaction.rows)

/-- What has to be shown of each kind of transition, under a condition on steps. -/
structure StepRules (cfg : ReplayConfig ε) (allowed : SystemState ι ε → Label ι → Prop)
    (Good : Database ε → Prop) (Sound : Database ε → Phase ε → Prop) : Prop where
  mono : ∀ {db db' phase}, db.Grows db' → Sound db phase → Sound db' phase
  idle : ∀ db, Sound db .idle
  start : ∀ {s : SystemState ι ε} {i request}, allowed s (.start i request) →
    Sound s.db (.resolving request)
  resume : ∀ {s : SystemState ι ε} {i request cursor id}, allowed s (.findActive i) →
    (s.processes i).phase = .resolving request → Good s.db → Sound s.db (.resolving request) →
    findActive s.db.cursors request.contractId request.ledger = some (cursor, id) →
    Sound s.db (enterLoop ⟨request, id, cursor.lastCommittedOffset, cursor.totalRows⟩)
  absent : ∀ {db request}, Sound db (.resolving request) → Sound db (.creating request)
  create : ∀ {db request}, Good db → Sound db (.creating request) →
    Good (db.create request (countEventsToReplay cfg.table request)) ∧
    Sound (db.create request (countEventsToReplay cfg.table request))
      (enterLoop ⟨request, db.cursors.length, 0, countEventsToReplay cfg.table request⟩)
  finish : ∀ {db run}, Good db → Sound db (.looping run) → run.totalRows ≤ run.offset →
    Sound db (.finalizing run)
  demoted : ∀ {s : SystemState ι ε} {i run}, allowed s (.head i false) →
    (s.processes i).phase = .looping run → run.offset < run.totalRows →
    (s.processes i).stopRequested = false → Good s.db → Sound s.db (.looping run) →
    Sound s.db (.finalizing run)
  enter : ∀ {db run}, Sound db (.looping run) → Sound db (.fetching run)
  exhausted : ∀ {s : SystemState ι ε} {i run}, allowed s (.fetch i) →
    (s.processes i).phase = .fetching run → (s.processes i).stopRequested = false →
    Good s.db → Sound s.db (.fetching run) →
    fetchEventBatch cfg.table run.request run.offset cfg.batchSize = [] →
    Sound s.db (.finalizing run)
  fetched : ∀ {db run}, Sound db (.fetching run) →
    fetchEventBatch cfg.table run.request run.offset cfg.batchSize ≠ [] →
    Sound db (.committing run
      (fetchEventBatch cfg.table run.request run.offset cfg.batchSize))
  commit : ∀ {db run rows}, Good db → Sound db (.committing run rows) →
    Good (commitRun db run rows) ∧
    Sound (commitRun db run rows) (.looping { run with offset := run.offset + rows.length })
  finalize : ∀ {db run}, Good db → Sound db (.finalizing run) →
    Good (db.completeCursor run.cursorId)

section Rule

variable {cfg : ReplayConfig ε} {allowed : SystemState ι ε → Label ι → Prop}
  {Good : Database ε → Prop} {Sound : Database ε → Phase ε → Prop} {s s' : SystemState ι ε} {i : ι}

theorem StateInv.put (hrules : StepRules cfg allowed Good Sound) (hinv : StateInv Good Sound s)
    {db : Database ε} (hgrows : s.db.Grows db) (hgood : Good db) (i : ι) {phase : Phase ε}
    (hphase : Sound db phase) (stopRequested : Bool) :
    StateInv Good Sound (s.put i db phase stopRequested) where
  database := hgood
  phases j := by
    by_cases hj : j = i
    · subst hj
      simpa [SystemState.put] using hphase
    · simpa [SystemState.put, hj] using hrules.mono hgrows (hinv.phases j)
  pending transaction hmem := hrules.mono hgrows (hinv.pending transaction hmem)

theorem StateInv.move (hrules : StepRules cfg allowed Good Sound) (hinv : StateInv Good Sound s)
    (i : ι) {phase : Phase ε} (hphase : Sound s.db phase)
    (stopRequested : Bool) : StateInv Good Sound (s.put i s.db phase stopRequested) :=
  hinv.put hrules (Database.Grows.refl s.db) hinv.database i hphase stopRequested

theorem StateInv.abandon (hrules : StepRules cfg allowed Good Sound) (hinv : StateInv Good Sound s)
    (i : ι) :
    StateInv Good Sound
      { s.endCall i with pending := s.pending ++ abandoned (s.processes i).phase } where
  database := hinv.database
  phases := (hinv.move hrules i (hrules.idle s.db) false).phases
  pending transaction hmem := by
    rcases List.mem_append.mp hmem with hold | hnew
    · exact hinv.pending transaction hold
    · have hphase := hinv.phases i
      cases hcase : (s.processes i).phase with
      | committing =>
        rw [hcase] at hnew hphase
        rw [abandoned, List.mem_singleton] at hnew
        rw [hnew]
        exact hphase
      | _ =>
        rw [hcase] at hnew
        exact (List.not_mem_nil hnew).elim

omit [DecidableEq ι] in
theorem StateInv.settle (hrules : StepRules cfg allowed Good Sound) (hinv : StateInv Good Sound s)
    {index : ℕ} {transaction : PendingCommit ε} (hmem : s.pending[index]? = some transaction)
    (applied : Bool) :
    StateInv Good Sound { s with
      db := if applied then commitRun s.db transaction.run transaction.rows else s.db
      pending := s.pending.eraseIdx index } := by
  have hsound := hinv.pending transaction (List.mem_of_getElem? hmem)
  cases applied with
  | true =>
    have hgrows := grows_commitRun s.db transaction.run transaction.rows
    exact
      { database := (hrules.commit hinv.database hsound).1
        phases := fun i => hrules.mono hgrows (hinv.phases i)
        pending := fun other hother =>
          hrules.mono hgrows (hinv.pending other (List.mem_of_mem_eraseIdx hother)) }
  | false =>
    exact
      { database := hinv.database
        phases := hinv.phases
        pending := fun other hother => hinv.pending other (List.mem_of_mem_eraseIdx hother) }

theorem StateInv.start (hrules : StepRules cfg allowed Good Sound) {request : ReplayRequest}
    (hinv : StateInv Good Sound s) (hallowed : allowed s (.start i request))
    (hstep : Indexer.step cfg s (.start i request) = some s') : StateInv Good Sound s' := by
  simp only [Indexer.step] at hstep
  cases hphase : (s.processes i).phase with
  | idle =>
    rw [hphase] at hstep
    cases hstop : (s.processes i).stopRequested with
    | true =>
      rw [hstop] at hstep
      cases hstep
      exact hinv.move hrules i (hrules.idle s.db) false
    | false =>
      rw [hstop] at hstep
      cases hstep
      exact hinv.move hrules i (hrules.start hallowed) false
  | _ => simp [hphase] at hstep

theorem StateInv.findActive (hrules : StepRules cfg allowed Good Sound)
    (hinv : StateInv Good Sound s) (hallowed : allowed s (.findActive i))
    (hstep : Indexer.step cfg s (.findActive i) = some s') : StateInv Good Sound s' := by
  simp only [Indexer.step] at hstep
  cases hphase : (s.processes i).phase with
  | resolving request =>
    rw [hphase] at hstep
    have hsound := hphase ▸ hinv.phases i
    cases hfound : Indexer.findActive s.db.cursors request.contractId request.ledger with
    | none =>
      simp only [hfound] at hstep
      cases hstep
      exact hinv.move hrules i (hrules.absent hsound) _
    | some =>
      simp only [hfound] at hstep
      cases hstep
      exact hinv.move hrules i
        (hrules.resume hallowed hphase hinv.database hsound hfound) _
  | _ => simp [hphase] at hstep

theorem StateInv.head (hrules : StepRules cfg allowed Good Sound) {isLeader : Bool}
    (hinv : StateInv Good Sound s) (hallowed : allowed s (.head i isLeader))
    (hstep : Indexer.step cfg s (.head i isLeader) = some s') : StateInv Good Sound s' := by
  simp only [Indexer.step] at hstep
  cases hphase : (s.processes i).phase with
  | looping run =>
    have hsound := hphase ▸ hinv.phases i
    simp only [hphase] at hstep
    by_cases hmore : run.offset < run.totalRows
    · rw [if_pos hmore] at hstep
      cases hstop : (s.processes i).stopRequested with
      | true =>
        rw [hstop] at hstep
        cases hstep
        exact hinv.move hrules i (hrules.idle s.db) false
      | false =>
        rw [hstop] at hstep
        cases isLeader with
        | true =>
          cases hstep
          exact hinv.move hrules i (hrules.enter hsound) false
        | false =>
          cases hstep
          exact hinv.move hrules i
            (hrules.demoted hallowed hphase hmore hstop hinv.database hsound) false
    · rw [if_neg hmore] at hstep
      cases hstep
      exact hinv.move hrules i
        (hrules.finish hinv.database hsound (Nat.le_of_not_lt hmore)) _
  | _ => simp [hphase] at hstep

theorem StateInv.fetch (hrules : StepRules cfg allowed Good Sound) (hinv : StateInv Good Sound s)
    (hallowed : allowed s (.fetch i))
    (hstep : Indexer.step cfg s (.fetch i) = some s') : StateInv Good Sound s' := by
  simp only [Indexer.step] at hstep
  cases hphase : (s.processes i).phase with
  | fetching run =>
    have hsound := hphase ▸ hinv.phases i
    simp only [hphase] at hstep
    cases hstop : (s.processes i).stopRequested with
    | true =>
      rw [hstop] at hstep
      cases hstep
      exact hinv.move hrules i (hrules.idle s.db) false
    | false =>
      rw [hstop] at hstep
      cases hfetch : fetchEventBatch cfg.table run.request run.offset cfg.batchSize with
      | nil =>
        simp only [hfetch] at hstep
        cases hstep
        exact hinv.move hrules i
          (hrules.exhausted hallowed hphase hstop hinv.database hsound hfetch) false
      | cons =>
        simp only [hfetch] at hstep
        cases hstep
        have hfetched := hrules.fetched hsound (by simp [hfetch])
        rw [hfetch] at hfetched
        exact hinv.move hrules i hfetched false
  | _ => simp [hphase] at hstep

theorem StateInv.commit (hrules : StepRules cfg allowed Good Sound) (hinv : StateInv Good Sound s)
    (hstep : Indexer.step cfg s (.commit i) = some s') : StateInv Good Sound s' := by
  simp only [Indexer.step] at hstep
  cases hphase : (s.processes i).phase with
  | committing =>
    simp only [hphase] at hstep
    cases hstop : (s.processes i).stopRequested with
    | true =>
      rw [hstop] at hstep
      cases hstep
      exact hinv.move hrules i (hrules.idle s.db) false
    | false =>
      rw [hstop] at hstep
      cases hstep
      have hcommitted := hrules.commit hinv.database (hphase ▸ hinv.phases i)
      exact hinv.put hrules (grows_commitRun _ _ _) hcommitted.1 i hcommitted.2 false
  | _ => simp [hphase] at hstep

theorem StateInv.step (hrules : StepRules cfg allowed Good Sound) {label : Label ι}
    (hinv : StateInv Good Sound s) (hallowed : allowed s label)
    (hstep : Indexer.step cfg s label = some s') : StateInv Good Sound s' := by
  cases label with
  | requestStop i =>
    cases hstep
    exact hinv.move hrules i (hinv.phases i) true
  | start => exact hinv.start hrules hallowed hstep
  | findActive => exact hinv.findActive hrules hallowed hstep
  | create i =>
    simp only [Indexer.step] at hstep
    cases hphase : (s.processes i).phase with
    | creating =>
      rw [hphase] at hstep
      cases hstep
      have hcreated := hrules.create hinv.database (hphase ▸ hinv.phases i)
      exact hinv.put hrules (Database.grows_create _ _ _) hcreated.1 i hcreated.2 _
    | _ => simp [hphase] at hstep
  | head => exact hinv.head hrules hallowed hstep
  | fetch => exact hinv.fetch hrules hallowed hstep
  | commit => exact hinv.commit hrules hstep
  | finalize i =>
    simp only [Indexer.step] at hstep
    cases hphase : (s.processes i).phase with
    | finalizing =>
      rw [hphase] at hstep
      cases hstep
      exact hinv.put hrules (grows_completeCursor _ _)
        (hrules.finalize hinv.database (hphase ▸ hinv.phases i)) i (hrules.idle _) false
    | _ => simp [hphase] at hstep
  | fail i | crash i =>
    cases hstep
    exact hinv.abandon hrules i
  | settle index applied =>
    simp only [Indexer.step] at hstep
    cases hpending : s.pending[index]? with
    | none => simp [hpending] at hstep
    | some =>
      simp only [hpending] at hstep
      cases hstep
      exact hinv.settle hrules hpending applied

theorem StateInv.reaches (hrules : StepRules cfg allowed Good Sound) (hinv : StateInv Good Sound s)
    (hrun : Reaches (Indexer.step cfg) allowed s s') : StateInv Good Sound s' :=
  Reaches.invariant (fun _ _ _ h hallowed hstep => h.step hrules hallowed hstep) hinv hrun

omit [DecidableEq ι] in
theorem StateInv.initial (hrules : StepRules cfg allowed Good Sound)
    {events : List (ContractEvent ε)} (hgood : Good ⟨events, []⟩) :
    StateInv Good Sound (SystemState.initial events : SystemState ι ε) where
  database := hgood
  phases _ := hrules.idle _
  pending _ hmem := (List.not_mem_nil hmem).elim

end Rule

end

end Fluxora.Indexer
