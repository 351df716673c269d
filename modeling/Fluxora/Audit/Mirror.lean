/-
# The log in memory and the table

The log in memory is to have only entries whose rows are committed, in the order of their
numbers. An entry that is written in a transaction is appended before the commit, and an
entry that is numbered first may be appended last: the log agrees with the table exactly in
the runs in which neither happens.
-/

import Fluxora.Audit.AuditLog

namespace Fluxora.Audit

open Lib.Transition

namespace AuditState

/-! ## Agreement -/

variable (s : AuditState) (label : AuditLabel)

/-- The entries of the log that come from the table have committed rows. -/
def MirrorsCommitted : Prop :=
  ∀ e ∈ s.auditLog, e.path = .database → (⟨e, none⟩ : AuditRow) ∈ s.rows

/-- The entries of the log that come from the table have rows, committed or of a transaction
that has not ended. -/
def MirrorsKept : Prop :=
  ∀ e ∈ s.auditLog, e.path = .database → ∃ row ∈ s.rows, row.entry = e

/-- The log is in the order of the numbers. -/
def Ordered : Prop := s.auditLog.Pairwise fun first second => first.seq < second.seq

/-- A write in a transaction returns. -/
def ResumesInTransaction : Prop :=
  ∃ w ∈ s.writes, label = .resume w.entry.seq ∧ w.inserted = true ∧ w.transaction ≠ none

/-- A write returns after an entry with a later number is in the log. -/
def ResumesLate : Prop := ∃ seq, label = .resume seq ∧ ∃ e ∈ s.auditLog, seq < e.seq

/-- A transaction ends without being committed: it is rolled back, its commit fails, or one
of its statements has failed before the commit. -/
def EndsUncommitted (transaction : ℕ) : Prop :=
  label = .rollback transaction ∨ label = .commitFails transaction ∨
    label = .commit transaction ∧ s.transactions transaction = some .aborted

/-- A transaction ends without being committed that has entries in the log. -/
def Abandons : Prop :=
  ∃ transaction, s.EndsUncommitted label transaction ∧
    ∃ e ∈ s.auditLog, e.path = .database ∧ (⟨e, some transaction⟩ : AuditRow) ∈ s.rows

variable {s label} {s' : AuditState} {sanitizer : Sanitizer}

/-! ## What a step does -/

inductive Effect (s : AuditState) (label : AuditLabel) (s' : AuditState) : Prop
  | none (hlog : s'.auditLog = s.auditLog) (hrows : s'.rows = s.rows)
  | records (e : AuditEntry) (hpath : e.path = .memory) (hseq : e.seq = s.seq + 1)
      (hlog : s'.auditLog = s.auditLog ++ [e]) (hrows : s'.rows = s.rows)
  | inserts (row : AuditRow) (hlog : s'.auditLog = s.auditLog) (hrows : s'.rows = s.rows ++ [row])
  | resumes (w : AuditWrite) (hw : w ∈ s.writes) (hlabel : label = .resume w.entry.seq)
      (hinserted : w.inserted = true) (hlog : s'.auditLog = s.auditLog ++ [w.entry])
      (hrows : s'.rows = s.rows)
  | publishes (transaction : ℕ) (hlog : s'.auditLog = s.auditLog)
      (hrows : s'.rows = s.rows.map fun row =>
        if row.transaction = some transaction then { row with transaction := .none } else row)
  | discards (transaction : ℕ) (hends : s.EndsUncommitted label transaction)
      (hlog : s'.auditLog = s.auditLog)
      (hrows : s'.rows = s.rows.filter fun row => row.transaction ≠ some transaction)

theorem effect (hstep : s.step sanitizer label = some s') : Effect s label s' := by
  cases label with
  | record =>
    cases hstep
    exact .records _ rfl rfl rfl rfl
  | begin | write =>
    rw [step] at hstep
    split_ifs at hstep
    cases hstep
    exact .none rfl rfl
  | insert =>
    rw [step, Option.bind_eq_some_iff] at hstep
    obtain ⟨w, -, hinsert⟩ := hstep
    split_ifs at hinsert
    cases hinsert
    exact .inserts _ rfl rfl
  | insertFails =>
    rw [step, Option.map_eq_some_iff] at hstep
    obtain ⟨w, -, rfl⟩ := hstep
    cases w.transaction with
    | none | some => exact .none rfl rfl
  | resume =>
    rw [step, Option.map_eq_some_iff] at hstep
    obtain ⟨w, hfound, rfl⟩ := hstep
    obtain ⟨hw, rfl, hinserted⟩ := mem_of_find?_write hfound
    exact .resumes w hw rfl hinserted rfl rfl
  | statementFails =>
    rw [step] at hstep
    split_ifs at hstep
    cases hstep
    exact .none rfl rfl
  | commit transaction =>
    rw [step] at hstep
    split_ifs at hstep
    rw [Option.map_eq_some_iff] at hstep
    obtain ⟨status, hstatus, rfl⟩ := hstep
    cases status with
    | active => exact .publishes transaction rfl rfl
    | aborted => exact .discards transaction (Or.inr (Or.inr ⟨rfl, hstatus⟩)) rfl rfl
  | commitFails transaction =>
    rw [step] at hstep
    split_ifs at hstep
    cases hstep
    exact .discards transaction (Or.inr (Or.inl rfl)) rfl rfl
  | rollback transaction =>
    rw [step] at hstep
    split_ifs at hstep
    cases hstep
    exact .discards transaction (Or.inl rfl) rfl rfl

theorem resumes_of_label {seq : ℕ} (hstep : s.step sanitizer (.resume seq) = some s') :
    ∃ w ∈ s.writes, w.entry.seq = seq ∧ w.inserted = true ∧
      s'.auditLog = s.auditLog ++ [w.entry] ∧ s'.rows = s.rows := by
  rw [step, Option.map_eq_some_iff] at hstep
  obtain ⟨w, hfound, rfl⟩ := hstep
  obtain ⟨hw, hseq, hinserted⟩ := mem_of_find?_write hfound
  exact ⟨w, hw, hseq, hinserted, rfl, rfl⟩

theorem discards_of_ends {transaction : ℕ} (hends : s.EndsUncommitted label transaction)
    (hstep : s.step sanitizer label = some s') :
    s'.auditLog = s.auditLog ∧
      s'.rows = s.rows.filter fun row => row.transaction ≠ some transaction := by
  rcases hends with rfl | rfl | ⟨rfl, hstatus⟩
  · rw [step] at hstep
    split_ifs at hstep
    cases hstep
    exact ⟨rfl, rfl⟩
  · rw [step] at hstep
    split_ifs at hstep
    cases hstep
    exact ⟨rfl, rfl⟩
  · rw [step, hstatus] at hstep
    split_ifs at hstep
    cases hstep
    exact ⟨rfl, rfl⟩

theorem row_eq (hnumbered : s.Numbered) {row row' : AuditRow} (hrow : row ∈ s.rows)
    (hrow' : row' ∈ s.rows) (hentry : row.entry = row'.entry) : row = row' :=
  List.inj_on_of_nodup_map hnumbered.rowsNodup hrow hrow' (congrArg AuditEntry.seq hentry)

/-! ## Committed rows -/

theorem MirrorsCommitted.step (hnumbered : s.Numbered) (hmirrors : s.MirrorsCommitted)
    (hstep : s.step sanitizer label = some s') (hpool : ¬ s.ResumesInTransaction label) :
    s'.MirrorsCommitted := by
  intro e he hpath
  cases effect hstep with
  | none hlog hrows =>
    rw [hrows]
    exact hmirrors e (hlog ▸ he) hpath
  | records _ hmemory _ hlog hrows =>
    rw [hlog] at he
    rw [hrows]
    rcases List.mem_append.mp he with hold | hnew
    · exact hmirrors e hold hpath
    · rw [List.mem_singleton.mp hnew, hmemory] at hpath
      cases hpath
  | inserts _ hlog hrows =>
    rw [hrows]
    exact List.mem_append_left _ (hmirrors e (hlog ▸ he) hpath)
  | resumes w hw hlabel hinserted hlog hrows =>
    rw [hlog] at he
    rw [hrows]
    rcases List.mem_append.mp he with hold | hnew
    · exact hmirrors e hold hpath
    · rw [List.mem_singleton.mp hnew]
      have hrow := hnumbered.inserted w hw hinserted
      have hnone : w.transaction = none := by
        by_contra hsome
        exact hpool ⟨w, hw, hlabel, hinserted, hsome⟩
      rw [hnone] at hrow
      exact hrow
  | publishes _ hlog hrows =>
    rw [hrows]
    exact List.mem_map.mpr ⟨_, hmirrors e (hlog ▸ he) hpath, if_neg (fun h => nomatch h)⟩
  | discards _ _ hlog hrows =>
    rw [hrows]
    exact List.mem_filter.mpr ⟨hmirrors e (hlog ▸ he) hpath, rfl⟩

theorem not_mirrorsCommitted (hnumbered : s.Numbered) (hresumes : s.ResumesInTransaction label)
    (hstep : s.step sanitizer label = some s') : ¬ s'.MirrorsCommitted := by
  intro hmirrors
  obtain ⟨w, hw, rfl, hinserted, hsome⟩ := hresumes
  obtain ⟨w', hw', hseq, -, hlog, hrows⟩ := resumes_of_label hstep
  obtain rfl : w' = w := List.inj_on_of_nodup_map hnumbered.writesNodup hw' hw hseq
  have hin : w'.entry ∈ s'.auditLog := by
    rw [hlog]
    exact List.mem_append_right _ List.mem_cons_self
  have hcommitted := hmirrors w'.entry hin (hnumbered.paths w' hw')
  rw [hrows] at hcommitted
  have hsame := row_eq hnumbered hcommitted (hnumbered.inserted w' hw' hinserted) rfl
  exact hsome (congrArg AuditRow.transaction hsame).symm

/-! ## Kept rows -/

theorem MirrorsKept.step (hnumbered : s.Numbered) (hmirrors : s.MirrorsKept)
    (hstep : s.step sanitizer label = some s') (hkept : ¬ s.Abandons label) :
    s'.MirrorsKept := by
  intro e he hpath
  cases effect hstep with
  | none hlog hrows =>
    rw [hrows]
    exact hmirrors e (hlog ▸ he) hpath
  | records _ hmemory _ hlog hrows =>
    rw [hlog] at he
    rw [hrows]
    rcases List.mem_append.mp he with hold | hnew
    · exact hmirrors e hold hpath
    · rw [List.mem_singleton.mp hnew, hmemory] at hpath
      cases hpath
  | inserts _ hlog hrows =>
    obtain ⟨old, hold, hentry⟩ := hmirrors e (hlog ▸ he) hpath
    rw [hrows]
    exact ⟨old, List.mem_append_left _ hold, hentry⟩
  | resumes w hw _ hinserted hlog hrows =>
    rw [hlog] at he
    rw [hrows]
    rcases List.mem_append.mp he with hold | hnew
    · exact hmirrors e hold hpath
    · rw [List.mem_singleton.mp hnew]
      exact ⟨_, hnumbered.inserted w hw hinserted, rfl⟩
  | publishes _ hlog hrows =>
    obtain ⟨old, hold, hentry⟩ := hmirrors e (hlog ▸ he) hpath
    rw [hrows]
    refine ⟨_, List.mem_map_of_mem hold, ?_⟩
    rw [← hentry]
    split_ifs <;> rfl
  | discards transaction hends hlog hrows =>
    obtain ⟨old, hold, hentry⟩ := hmirrors e (hlog ▸ he) hpath
    rw [hrows]
    refine ⟨old, List.mem_filter.mpr ⟨hold, ?_⟩, hentry⟩
    rw [decide_eq_true_eq]
    intro htransaction
    refine hkept ⟨transaction, hends, e, hlog ▸ he, hpath, ?_⟩
    rw [← hentry, ← htransaction]
    exact hold

theorem not_mirrorsKept (hnumbered : s.Numbered) (habandons : s.Abandons label)
    (hstep : s.step sanitizer label = some s') : ¬ s'.MirrorsKept := by
  intro hmirrors
  obtain ⟨transaction, hends, e, he, hpath, hrow⟩ := habandons
  obtain ⟨hlog, hrows⟩ := discards_of_ends hends hstep
  obtain ⟨row, hkept, hentry⟩ := hmirrors e (hlog ▸ he) hpath
  rw [hrows, List.mem_filter, decide_eq_true_eq] at hkept
  exact hkept.2 (congrArg AuditRow.transaction (row_eq hnumbered hkept.1 hrow hentry))

/-! ## Order -/

theorem Ordered.step (hnumbered : s.Numbered) (hordered : s.Ordered)
    (hstep : s.step sanitizer label = some s') (hlate : ¬ s.ResumesLate label) : s'.Ordered := by
  rw [Ordered]
  cases effect hstep with
  | none hlog => exact hlog ▸ hordered
  | records _ _ hseq hlog =>
    rw [hlog]
    refine List.pairwise_append.mpr ⟨hordered, List.pairwise_singleton _ _, ?_⟩
    intro old hold new hnew
    rw [List.mem_singleton.mp hnew, hseq]
    exact Nat.lt_succ_of_le (hnumbered.log old hold)
  | inserts _ hlog => exact hlog ▸ hordered
  | resumes w hw hlabel _ hlog =>
    rw [hlog]
    refine List.pairwise_append.mpr ⟨hordered, List.pairwise_singleton _ _, ?_⟩
    intro old hold new hnew
    rw [List.mem_singleton.mp hnew]
    have hne := hnumbered.mirrored w hw old hold
    have hle : ¬ w.entry.seq < old.seq := fun hlt => hlate ⟨_, hlabel, old, hold, hlt⟩
    omega
  | publishes _ hlog | discards _ _ hlog => exact hlog ▸ hordered

theorem not_ordered (hlate : s.ResumesLate label) (hstep : s.step sanitizer label = some s') :
    ¬ s'.Ordered := by
  intro hordered
  obtain ⟨seq, rfl, e, he, hlt⟩ := hlate
  obtain ⟨w, -, rfl, -, hlog, -⟩ := resumes_of_label hstep
  rw [Ordered, hlog] at hordered
  have := (List.pairwise_append.mp hordered).2.2 e he w.entry (List.mem_singleton_self _)
  omega

/-! ## Whole runs -/

/-- Exactly when the log agrees with the table in every state of a run: with committed rows
only, and with rows of transactions that have not ended. -/
theorem mirror_iff (sanitizer : Sanitizer) (labels : List AuditLabel) :
    (EveryStep (fun s => s.step sanitizer) (fun _ _ s' => s'.MirrorsCommitted ∧ s'.Ordered)
          initial labels ↔
        EveryStep (fun s => s.step sanitizer)
          (fun s label _ => ¬ s.ResumesInTransaction label ∧ ¬ s.ResumesLate label)
          initial labels) ∧
      (EveryStep (fun s => s.step sanitizer) (fun _ _ s' => s'.MirrorsKept ∧ s'.Ordered)
            initial labels ↔
          EveryStep (fun s => s.step sanitizer)
            (fun s label _ => ¬ s.Abandons label ∧ ¬ s.ResumesLate label) initial labels) := by
  have hcommitted : initial.MirrorsCommitted := fun _ h => absurd h List.not_mem_nil
  have hkept : initial.MirrorsKept := fun _ h => absurd h List.not_mem_nil
  have hordered : initial.Ordered := List.Pairwise.nil
  refine ⟨⟨?_, ?_⟩, ?_, ?_⟩
  · refine EveryStep.imp Numbered (fun s label s' hnumbered hstep hagrees => ?_) numbered_initial
    refine ⟨⟨fun hresumes => ?_, fun hlate => ?_⟩, hnumbered.step hstep⟩
    · exact not_mirrorsCommitted hnumbered hresumes hstep hagrees.1
    · exact not_ordered hlate hstep hagrees.2
  · refine EveryStep.imp (fun s => s.Numbered ∧ s.MirrorsCommitted ∧ s.Ordered) ?_
      ⟨numbered_initial, hcommitted, hordered⟩
    rintro s label s' ⟨hnumbered, hmirrors, horder⟩ hstep ⟨hpool, hlate⟩
    have hmirrors' := hmirrors.step hnumbered hstep hpool
    have horder' := horder.step hnumbered hstep hlate
    exact ⟨⟨hmirrors', horder'⟩, hnumbered.step hstep, hmirrors', horder'⟩
  · refine EveryStep.imp Numbered (fun s label s' hnumbered hstep hagrees => ?_) numbered_initial
    refine ⟨⟨fun habandons => ?_, fun hlate => ?_⟩, hnumbered.step hstep⟩
    · exact not_mirrorsKept hnumbered habandons hstep hagrees.1
    · exact not_ordered hlate hstep hagrees.2
  · refine EveryStep.imp (fun s => s.Numbered ∧ s.MirrorsKept ∧ s.Ordered) ?_
      ⟨numbered_initial, hkept, hordered⟩
    rintro s label s' ⟨hnumbered, hmirrors, horder⟩ hstep ⟨hends, hlate⟩
    have hmirrors' := hmirrors.step hnumbered hstep hends
    have horder' := horder.step hnumbered hstep hlate
    exact ⟨⟨hmirrors', horder'⟩, hnumbered.step hstep, hmirrors', horder'⟩

end AuditState

/-- The fields of an erasure entry. -/
def sampleFields : AuditFields := ⟨"GDPR_ERASURE", "streams", "GABCDEFG…", none, none⟩

/-- An erasure whose second audit insert fails is rolled back, and its first entry stays in
the log. -/
def sampleRollback : List AuditLabel :=
  [.begin 1, .write (some 1) 0 sampleFields, .insert 1, .resume 1,
    .write (some 1) 0 sampleFields, .insertFails 2, .rollback 1]

theorem mirror_fails :
    ¬ ∀ (sanitizer : Sanitizer) (labels : List AuditLabel),
      EveryStep (fun s => s.step sanitizer) (fun _ _ s' => s'.MirrorsKept ∧ s'.Ordered)
        AuditState.initial labels := by
  intro hagrees
  have hrun := hagrees ⟨fun text => text, fun value => value⟩ sampleRollback
  obtain ⟨-, hrun⟩ := hrun _ rfl
  obtain ⟨-, hrun⟩ := hrun _ rfl
  obtain ⟨-, hrun⟩ := hrun _ rfl
  obtain ⟨-, hrun⟩ := hrun _ rfl
  obtain ⟨-, hrun⟩ := hrun _ rfl
  obtain ⟨-, hrun⟩ := hrun _ rfl
  obtain ⟨⟨hkept, -⟩, -⟩ := hrun _ rfl
  obtain ⟨row, hrow, -⟩ := hkept _ List.mem_cons_self rfl
  exact absurd hrow List.not_mem_nil

end Fluxora.Audit
