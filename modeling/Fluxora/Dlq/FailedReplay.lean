/-
# Failed replays

A replay that is reported as failed leaves its entry marked as replayed, so that the entry cannot
be replayed again: entries are lost to failed replays exactly when there are any.
-/

import Fluxora.Dlq.ReplayRoute

namespace Fluxora.Dlq

open Lib.Transition

/-! ## Losing an entry -/

namespace DlqState

variable (s : DlqState) (label : DlqLabel) (id : String)

/-- The entry is there, and the guard of the replay lets it through. -/
def Replayable : Prop := ∃ row, s.table.findById id = some row ∧ row.status = .dead

/-- The label runs the replay of an entry, for a request that is or is not reported as
failed. -/
def ReplaysEntry (failed : Bool) : Prop :=
  ∃ request now q entry, label = .advance request now ∧ s.requests request = some q ∧
    q.stage = .replaying entry ∧ entry.id = id ∧ q.failed = failed

/-- A replay that is reported as failed is accepted. -/
def AcceptsFailedReplay : Prop := ∃ id, s.ReplaysEntry label id true ∧ s.Replayable id

/-- An operator deletes the entry, or entries in bulk. -/
def Deletes : Prop := label = .deleteById id ∨ ∃ topic tenantId, label = .deleteAll topic tenantId

/-- The retention purge deletes an entry that can be replayed. -/
def PurgesReplayable : Prop :=
  ∃ batchSize cutoff tenantId dryRun, label = .purge batchSize cutoff tenantId dryRun ∧
    s.Replayable id ∧
      (s.table.purgeTerminalEntries batchSize cutoff tenantId dryRun).findById id = none

/-- The retention purge runs with a cutoff after the last failure of the entry. -/
def PurgesExpired : Prop :=
  ∃ batchSize cutoff tenantId dryRun row, label = .purge batchSize cutoff tenantId dryRun ∧
    s.table.findById id = some row ∧ row.lastFailedAt < cutoff

/-- A step that loses no entry, where some deletions are in order. -/
structure KeepsEntries (inOrder : DlqState → DlqLabel → String → Prop) (s : DlqState)
    (label : DlqLabel) (s' : DlqState) : Prop where
  /-- An entry can no longer be replayed only after a replay that is not reported as failed or
  a deletion. -/
  leaves : ∀ id, s.Replayable id → ¬ s'.Replayable id →
    s.ReplaysEntry label id false ∨ inOrder s label id
  /-- An entry whose failure has been recorded can be replayed. -/
  again : ∀ request now q entry, label = .advance request now → s.requests request = some q →
    q.stage = .recordingFailure entry → ∀ row, s'.table.findById entry.id = some row →
      s'.Replayable entry.id

/-- The state before any request. -/
def initial (table : DlqTable) (suspensions : SuspensionTable) : DlqState :=
  ⟨table, suspensions, fun _ => none⟩

variable {s label id} {s' : DlqState} {threshold : ℕ} {q : ReplayRequest}

/-! ## Single steps -/

theorem status_of_step (hstep : s.step threshold label = some s') {row' : DlqRow}
    (hfound : s'.table.findById id = some row') :
    ∃ row, s.table.findById id = some row ∧ (row.status = .replayed → row'.status = .replayed) := by
  cases tableStep hstep with
  | same htable =>
    rw [htable] at hfound
    exact ⟨row', hfound, fun h => h⟩
  | replays _ _ _ _ _ _ _ htable =>
    rw [htable, DlqTable.findById_replayEntry, Option.map_eq_some_iff] at hfound
    obtain ⟨row, hrow, hchanged⟩ := hfound
    refine ⟨row, hrow, fun hreplayed => ?_⟩
    rw [← hchanged]
    split_ifs
    · rfl
    · exact hreplayed
  | records _ _ _ _ _ _ _ htable =>
    rw [htable, DlqTable.findById_recordFailure, Option.map_eq_some_iff] at hfound
    obtain ⟨row, hrow, hchanged⟩ := hfound
    refine ⟨row, hrow, fun hreplayed => ?_⟩
    rw [← hchanged]
    split_ifs
    · exact hreplayed
    · exact hreplayed
  | deletesOne _ _ htable => exact ⟨row', DlqTable.findById_of_remove (htable ▸ hfound), fun h => h⟩
  | deletesAll _ _ _ htable =>
    exact ⟨row', DlqTable.findById_of_remove (htable ▸ hfound), fun h => h⟩
  | purges _ _ _ _ _ htable =>
    exact ⟨row', DlqTable.findById_of_purge (htable ▸ hfound), fun h => h⟩

theorem leaves_cases (hstep : s.step threshold label = some s') (hbefore : s.Replayable id)
    (hafter : ¬ s'.Replayable id) :
    (∃ failed, s.ReplaysEntry label id failed) ∨
      Deletes label id ∨ s.PurgesReplayable label id := by
  obtain ⟨row, hfound, hdead⟩ := hbefore
  cases tableStep hstep with
  | same htable => exact absurd ⟨row, htable ▸ hfound, hdead⟩ hafter
  | replays request now q entry hlabel hrequest hstage htable =>
    by_cases hid : entry.id = id
    · exact Or.inl ⟨q.failed, request, now, q, entry, hlabel, hrequest, hstage, hid, rfl⟩
    · refine absurd ⟨row, ?_, hdead⟩ hafter
      have hrow := (DlqTable.findById_eq_some_iff.mp hfound).2
      rw [htable, DlqTable.findById_replayEntry, hfound, Option.map_some,
        if_neg fun h => hid (h.1.symm.trans hrow)]
  | records _ _ _ _ _ _ _ htable =>
    refine absurd ?_ hafter
    refine ⟨_, by rw [htable, DlqTable.findById_recordFailure, hfound, Option.map_some], ?_⟩
    split_ifs
    · exact hdead
    · exact hdead
  | deletesOne other hlabel htable =>
    by_cases hid : other = id
    · exact Or.inr (Or.inl (Or.inl (hid ▸ hlabel)))
    · refine absurd ⟨row, ?_, hdead⟩ hafter
      have hrow := (DlqTable.findById_eq_some_iff.mp hfound).2
      rw [htable, DlqTable.deleteById, DlqTable.findById_remove, hfound, Option.filter_some,
        if_pos]
      simpa [hrow] using fun h => hid h.symm
  | deletesAll topic tenantId hlabel => exact Or.inr (Or.inl (Or.inr ⟨topic, tenantId, hlabel⟩))
  | purges batchSize cutoff tenantId dryRun hlabel htable =>
    refine Or.inr (Or.inr ⟨batchSize, cutoff, tenantId, dryRun, hlabel, ⟨row, hfound, hdead⟩, ?_⟩)
    cases hpurged :
      (s.table.purgeTerminalEntries batchSize cutoff tenantId dryRun).findById id with
    | none => rfl
    | some row' =>
      have hsame := DlqTable.findById_of_purge hpurged
      rw [hfound, Option.some.injEq] at hsame
      exact absurd ⟨row', htable ▸ hpurged, hsame ▸ hdead⟩ hafter

theorem purgesExpired_of_purgesReplayable (h : s.PurgesReplayable label id) :
    s.PurgesExpired label id := by
  obtain ⟨batchSize, cutoff, tenantId, dryRun, hlabel, ⟨row, hfound, -⟩, hgone⟩ := h
  rcases DlqTable.findById_purgeTerminalEntries hfound with hkept | ⟨-, hexpired, -⟩
  · rw [hkept] at hgone
    cases hgone
  · exact ⟨batchSize, cutoff, tenantId, dryRun, row, hlabel, hfound, hexpired⟩

theorem table_of_accepted {request : ℕ} {now : ℤ} {entry : DlqRow}
    (hrequest : s.requests request = some q) (hstage : q.stage = .replaying entry)
    (hreplayable : s.Replayable entry.id)
    (hstep : s.step threshold (.advance request now) = some s') :
    s'.table = (s.table.replayEntry entry.id (some 0) (some now)).2 ∧
      s'.requests request = some { q with
        stage := if q.failed then .recordingFailure entry else .countingSuccess entry } := by
  rw [step, hrequest, Option.bind_some] at hstep
  simp only [advance, hstage] at hstep
  rw [if_pos (DlqTable.replayEntry_fst.mpr hreplayable), Option.some.injEq] at hstep
  rw [← hstep]
  exact ⟨rfl, Function.update_self ..⟩

theorem not_replayable_replayEntry {table : DlqTable} {lastFailedAt : Option ℤ}
    {row : DlqRow}
    (hfound : (table.replayEntry id (some 0) lastFailedAt).2.findById id = some row) :
    row.status = .replayed := by
  rw [DlqTable.findById_replayEntry, Option.map_eq_some_iff] at hfound
  obtain ⟨old, hold, hchanged⟩ := hfound
  have hid := (DlqTable.findById_eq_some_iff.mp hold).2
  rw [← hchanged]
  split_ifs with hdead
  · rfl
  · cases hstatus : old.status with
    | dead => exact absurd ⟨hid, hstatus⟩ hdead
    | replayed => rfl

/-! ## Whole runs -/

/-- No request is about to record a failure. -/
def NoRecording (s : DlqState) : Prop :=
  ∀ request q, s.requests request = some q → ∀ entry, q.stage ≠ .recordingFailure entry

theorem NoRecording.step (hnone : NoRecording s) (hstep : s.step threshold label = some s')
    (hrefused : ¬ s.AcceptsFailedReplay label) : NoRecording s' := by
  intro request q hrequest
  have hcases := requestStep hstep request
  rw [hrequest] at hcases
  generalize hq : some q = q' at hcases
  cases hcases with
  | same => exact hnone request q hq.symm
  | accepts now old entry hlabel hold hstage hfailed haccepted =>
    exact absurd ⟨entry.id, ⟨request, now, old, entry, hlabel, hold, hstage, rfl, hfailed⟩,
      DlqTable.replayEntry_fst.mp haccepted⟩ hrefused
  | other _ _ hstage =>
    cases hq
    exact hstage

/-- A run loses no entry exactly when it accepts no replay that is reported as failed, and
every purge of a replayable entry is in order. -/
theorem keepsEntries_iff (inOrder : DlqState → DlqLabel → String → Prop)
    (hdeletes : ∀ s label id, Deletes label id → inOrder s label id)
    (hadvance : ∀ s request now id, ¬ inOrder s (.advance request now) id)
    (table : DlqTable) (suspensions : SuspensionTable) (labels : List DlqLabel) :
    EveryStep (fun s label => s.step threshold label) (KeepsEntries inOrder)
        (initial table suspensions) labels ↔
      EveryStep (fun s label => s.step threshold label)
        (fun s label _ => ¬ s.AcceptsFailedReplay label ∧
          ∀ id, s.PurgesReplayable label id → inOrder s label id)
        (initial table suspensions) labels := by
  apply Iff.intro
  · apply EveryStep.imp (fun _ => True) ?_ trivial
    intro s label s' _ hstep hkeeps
    refine ⟨⟨?_, ?_⟩, trivial⟩
    · rintro ⟨id, ⟨request, now, q, entry, rfl, hrequest, hstage, rfl, hfailed⟩, hreplayable⟩
      have htable := (table_of_accepted hrequest hstage hreplayable hstep).1
      have hafter : ¬ s'.Replayable entry.id := by
        rintro ⟨row, hfound, hdead⟩
        rw [htable] at hfound
        rw [not_replayable_replayEntry hfound] at hdead
        cases hdead
      rcases hkeeps.leaves entry.id hreplayable hafter with
        ⟨_, _, q', _, hlabel, hrequest', -, -, hreported⟩ | hremoved
      · cases hlabel
        rw [hrequest, Option.some.injEq] at hrequest'
        rw [← hrequest', hfailed] at hreported
        cases hreported
      · exact hadvance _ _ _ _ hremoved
    · intro id hpurges
      obtain ⟨batchSize, cutoff, tenantId, dryRun, rfl, hreplayable, hgone⟩ := hpurges
      have hafter : ¬ s'.Replayable id := by
        rintro ⟨row, hfound, -⟩
        cases hstep
        rw [hgone] at hfound
        cases hfound
      rcases hkeeps.leaves id hreplayable hafter with ⟨_, _, _, _, hlabel, -⟩ | hremoved
      · cases hlabel
      · exact hremoved
  · have hinit : NoRecording (initial table suspensions) := fun _ _ h => nomatch h
    apply EveryStep.imp NoRecording ?_ hinit
    rintro s label s' hnone hstep ⟨hrefused, hpurges⟩
    refine ⟨⟨?_, ?_⟩, hnone.step hstep hrefused⟩
    · intro id hbefore hafter
      rcases leaves_cases hstep hbefore hafter with ⟨failed, hreplays⟩ | hdeleted | hpurged
      · cases failed with
        | false => exact Or.inl hreplays
        | true => exact absurd ⟨id, hreplays, hbefore⟩ hrefused
      · exact Or.inr (hdeletes _ _ _ hdeleted)
      · exact Or.inr (hpurges id hpurged)
    · intro request now q entry _ hrequest hstage
      exact absurd hstage (hnone request q hrequest entry)

/-! ## The record of a failure -/

/-- Requests that are about to record a failure have marked their entry as replayed. -/
def Marked (s : DlqState) : Prop :=
  ∀ request q entry, s.requests request = some q → q.stage = .recordingFailure entry →
    ∀ row, s.table.findById entry.id = some row → row.status = .replayed

theorem Marked.step (hmarked : Marked s) (hstep : s.step threshold label = some s') :
    Marked s' := by
  intro request q entry hrequest hrecording row' hfound
  have hcases := requestStep hstep request
  rw [hrequest] at hcases
  generalize hq : some q = q' at hcases
  cases hcases with
  | same =>
    obtain ⟨row, hrow, hkept⟩ := status_of_step hstep hfound
    exact hkept (hmarked request q entry hq.symm hrecording row hrow)
  | accepts _ _ _ hlabel hold hstage _ haccepted =>
    cases hq
    cases hrecording
    subst hlabel
    have htable := (table_of_accepted hold hstage (DlqTable.replayEntry_fst.mp haccepted) hstep).1
    rw [htable] at hfound
    exact not_replayable_replayEntry hfound
  | other _ _ hstage =>
    cases hq
    exact absurd hrecording (hstage entry)

/-- A request is the only one about to record a failure of its entry, and the entry is as the
replay has left it, or deleted. -/
structure Holds (request : ℕ) (q : ReplayRequest) (entry row : DlqRow) (s : DlqState) : Prop where
  stage : s.requests request = some { q with stage := .recordingFailure entry }
  replayed : row.status = .replayed
  row : ∀ row', s.table.findById entry.id = some row' → row' = row
  only : ∀ other q' entry', s.requests other = some q' → q'.stage = .recordingFailure entry' →
    entry'.id = entry.id → other = request

theorem Holds.step {request : ℕ} {entry row : DlqRow} (hholds : Holds request q entry row s)
    (hstep : s.step threshold label = some s')
    (hother : label.request ≠ some request) : Holds request q entry row s' where
  stage := by
    have hcases := requestStep hstep request
    generalize s'.requests request = after at hcases
    cases hcases with
    | same => exact hholds.stage
    | accepts _ _ _ hlabel =>
      rw [hlabel] at hother
      exact absurd rfl hother
    | other _ hlabel => exact absurd hlabel hother
  replayed := hholds.replayed
  row := by
    intro row' hfound
    cases tableStep hstep with
    | same htable => exact hholds.row row' (htable ▸ hfound)
    | replays _ _ _ _ _ _ _ htable =>
      rw [htable, DlqTable.findById_replayEntry, Option.map_eq_some_iff] at hfound
      obtain ⟨before, hbefore, hchanged⟩ := hfound
      have hsame := hholds.row before hbefore
      subst hsame
      rw [if_neg fun h => by rw [hholds.replayed] at h; cases h.2] at hchanged
      exact hchanged.symm
    | records other _ old oldEntry hlabel hold hstage htable =>
      rw [htable, DlqTable.findById_recordFailure, Option.map_eq_some_iff] at hfound
      obtain ⟨before, hbefore, hchanged⟩ := hfound
      have hid : before.id ≠ oldEntry.id := by
        intro hsame
        have hentry := (DlqTable.findById_eq_some_iff.mp hbefore).2
        have hself := hholds.only other old oldEntry hold hstage (hsame.symm.trans hentry)
        rw [hlabel, hself] at hother
        exact hother rfl
      rw [if_neg hid] at hchanged
      rw [← hchanged]
      exact hholds.row before hbefore
    | deletesOne _ _ htable => exact hholds.row row' (DlqTable.findById_of_remove (htable ▸ hfound))
    | deletesAll _ _ _ htable =>
      exact hholds.row row' (DlqTable.findById_of_remove (htable ▸ hfound))
    | purges _ _ _ _ _ htable =>
      exact hholds.row row' (DlqTable.findById_of_purge (htable ▸ hfound))
  only := by
    intro other q' entry' hrequest hrecording hid
    have hcases := requestStep hstep other
    rw [hrequest] at hcases
    generalize hq : some q' = after at hcases
    cases hcases with
    | same => exact hholds.only other q' entry' hq.symm hrecording hid
    | accepts _ _ _ _ _ _ _ haccepted =>
      cases hq
      cases hrecording
      obtain ⟨before, hbefore, hdead⟩ := DlqTable.replayEntry_fst.mp haccepted
      rw [hid] at hbefore
      rw [hholds.row before hbefore, hholds.replayed] at hdead
      cases hdead
    | other _ _ hstage =>
      cases hq
      exact absurd hrecording (hstage entry')

theorem Holds.of_accepted (hmarked : Marked s) {request : ℕ} {now : ℤ} {entry row : DlqRow}
    (hrequest : s.requests request = some q) (hstage : q.stage = .replaying entry)
    (hfailed : q.failed = true) (hfound : s.table.findById entry.id = some row)
    (hdead : row.status = .dead) (hstep : s.step threshold (.advance request now) = some s') :
    Holds request q entry
      { row with attempts := 0, lastFailedAt := now, status := .replayed } s' := by
  obtain ⟨htable, hnext⟩ := table_of_accepted hrequest hstage ⟨row, hfound, hdead⟩ hstep
  rw [if_pos hfailed] at hnext
  refine ⟨hnext, rfl, ?_, ?_⟩
  · intro row' hfound'
    have hid := (DlqTable.findById_eq_some_iff.mp hfound).2
    rw [htable, DlqTable.findById_replayEntry, hfound, Option.map_some, if_pos ⟨hid, hdead⟩]
      at hfound'
    exact (Option.some.inj hfound').symm
  · intro other q' entry' hother hrecording hid
    have hcases := requestStep hstep other
    rw [hother] at hcases
    generalize hq : some q' = after at hcases
    cases hcases with
    | same =>
      -- Another request with a failure to record had marked the entry before.
      have hreplayed := hmarked other q' entry' hq.symm hrecording row (hid ▸ hfound)
      rw [hreplayed] at hdead
      cases hdead
    | accepts _ _ _ hlabel =>
      cases hlabel
      rfl
    | other _ _ hstage' =>
      cases hq
      exact absurd hrecording (hstage' entry')

/-- In every run, the record of a failure that follows an accepted replay leaves the first
error of the entry alone and appends one record, with the stored number of attempts. -/
def RecordsOnce (threshold : ℕ) (start : DlqState) : Prop :=
  ∀ s₁ s₂ s₃ s₄ request now now' q entry row,
    Reaches (fun s label => s.step threshold label) (fun _ _ => True) start s₁ →
      s₁.requests request = some q → q.stage = .replaying entry → q.failed = true →
        s₁.table.findById entry.id = some row → row.status = .dead →
          s₁.step threshold (.advance request now) = some s₂ →
            Reaches (fun s label => s.step threshold label)
              (fun _ label => label.request ≠ some request) s₂ s₃ →
                s₃.step threshold (.advance request now') = some s₄ →
                  ∀ row', s₄.table.findById entry.id = some row' →
                    row'.error = row.error ∧ ∃ record,
                      row'.failureHistory = row.failureHistory ++ [record] ∧
                        record.attempt = row'.attempts

theorem recordsOnce (table : DlqTable) (suspensions : SuspensionTable) :
    RecordsOnce threshold (initial table suspensions) := by
  intro s₁ s₂ s₃ s₄ request now now' q entry row hstart hrequest hstage hfailed hfound hdead
    haccept hmiddle hrecord row' hfound'
  have hmarked : Marked s₁ := by
    refine hstart.invariant (fun s label s' hinv _ hstep => Marked.step hinv hstep) ?_
    exact fun _ _ _ h => nomatch h
  have hholds := hmiddle.invariant
    (fun s label s' hinv hother hstep => Holds.step hinv hstep hother)
    (Holds.of_accepted hmarked hrequest hstage hfailed hfound hdead haccept)
  rw [step, hholds.stage, Option.bind_some] at hrecord
  simp only [advance, Option.some.injEq] at hrecord
  rw [← hrecord] at hfound'
  change DlqTable.findById (s₃.table.recordFailure entry.id _ _ _).2 entry.id = some row' at hfound'
  rw [DlqTable.findById_recordFailure, Option.map_eq_some_iff] at hfound'
  obtain ⟨before, hbefore, hchanged⟩ := hfound'
  have hid := (DlqTable.findById_eq_some_iff.mp hbefore).2
  rw [if_pos hid, hholds.row before hbefore] at hchanged
  rw [← hchanged]
  exact ⟨rfl, _, rfl, rfl⟩

/-- The deletions by an operator, and by the purge after the retention window. -/
def DeletesOrExpires (s : DlqState) (label : DlqLabel) (id : String) : Prop :=
  Deletes label id ∨ s.PurgesExpired label id

theorem not_deletes_advance (request : ℕ) (now : ℤ) (id : String) :
    ¬ Deletes (.advance request now) id := by
  rintro (h | ⟨_, _, h⟩)
  · cases h
  · cases h

theorem not_deletesOrExpires_advance (s : DlqState) (request : ℕ) (now : ℤ) (id : String) :
    ¬ DeletesOrExpires s (.advance request now) id := by
  rintro (h | ⟨_, _, _, _, _, h, -⟩)
  · exact not_deletes_advance request now id h
  · cases h

theorem not_deletes_of_purgesReplayable (h : s.PurgesReplayable label id) :
    ¬ Deletes label id := by
  obtain ⟨_, _, _, _, rfl, -⟩ := h
  rintro (h | ⟨_, _, h⟩)
  · cases h
  · cases h

/-- Exactly when a run loses no entry, with the purge after the retention window in order and
without it. The record of a failure is kept in every run. -/
theorem failedReplay_iff (raw : Option (List Char)) (table : DlqTable)
    (suspensions : SuspensionTable) (labels : List DlqLabel) :
    (EveryStep (fun s label => s.step (getSuspensionThreshold raw) label)
          (KeepsEntries DeletesOrExpires) (initial table suspensions) labels ↔
        EveryStep (fun s label => s.step (getSuspensionThreshold raw) label)
          (fun s label _ => ¬ s.AcceptsFailedReplay label) (initial table suspensions) labels) ∧
      (EveryStep (fun s label => s.step (getSuspensionThreshold raw) label)
            (KeepsEntries fun _ => Deletes) (initial table suspensions) labels ↔
          EveryStep (fun s label => s.step (getSuspensionThreshold raw) label)
            (fun s label _ => ¬ s.AcceptsFailedReplay label ∧ ∀ id, ¬ s.PurgesReplayable label id)
            (initial table suspensions) labels) ∧
        RecordsOnce (getSuspensionThreshold raw) (initial table suspensions) := by
  refine ⟨?_, ?_, recordsOnce table suspensions⟩
  · rw [keepsEntries_iff DeletesOrExpires (fun _ _ _ h => Or.inl h)
      not_deletesOrExpires_advance]
    apply Iff.intro
    · exact EveryStep.imp (fun _ => True) (fun _ _ _ _ _ h => ⟨h.1, trivial⟩) trivial
    · exact EveryStep.imp (fun _ => True) (fun _ _ _ _ _ h =>
        ⟨⟨h, fun id hpurges => Or.inr (purgesExpired_of_purgesReplayable hpurges)⟩, trivial⟩)
        trivial
  · rw [keepsEntries_iff (fun _ => Deletes) (fun _ _ _ h => h)
      fun _ => not_deletes_advance]
    apply Iff.intro
    · exact EveryStep.imp (fun _ => True) (fun _ _ _ _ _ h =>
        ⟨⟨h.1, fun id hpurges => not_deletes_of_purgesReplayable hpurges (h.2 id hpurges)⟩,
          trivial⟩) trivial
    · exact EveryStep.imp (fun _ => True) (fun _ _ _ _ _ h =>
        ⟨⟨h.1, fun id hpurges => absurd hpurges (h.2 id)⟩, trivial⟩) trivial

end DlqState

/-- A dead entry with its first failure. -/
def sampleEntry : DlqRow :=
  ⟨"dlq-1", none, "stream.created", "timeout", 3, 0, 0, .dead, [⟨"timeout", 3, 0, "enqueue"⟩]⟩

/-- A single replay that is reported as failed. -/
def sampleFailedReplay : List DlqLabel :=
  [.replay 1 "dlq-1" true .absent, .advance 1 10, .advance 1 11, .advance 1 12, .advance 1 13]

theorem failedReplay_fails :
    ¬ ∀ (raw : Option (List Char)) (table : DlqTable) (labels : List DlqLabel),
      EveryStep (fun s label => s.step (getSuspensionThreshold raw) label)
        (DlqState.KeepsEntries DlqState.DeletesOrExpires)
        (DlqState.initial table fun _ => none) labels := by
  intro hkeeps
  have hrun := hkeeps none ⟨[sampleEntry], List.nodup_singleton _⟩ sampleFailedReplay
  obtain ⟨-, hrun⟩ := hrun _ rfl
  obtain ⟨-, hrun⟩ := hrun _ rfl
  obtain ⟨-, hrun⟩ := hrun _ rfl
  obtain ⟨-, hrun⟩ := hrun _ rfl
  obtain ⟨hrecord, -⟩ := hrun _ rfl
  obtain ⟨row, hfound, hdead⟩ := hrecord.again 1 13 _ sampleEntry rfl rfl rfl _ rfl
  cases hfound
  cases hdead

end Fluxora.Dlq
