/-
# Ingesting again converges

An attempt that fails leaves a store from which the next attempt starts: rows at or above some
ledger of the batch may be gone, and some rows of the batch may be there. Where the answers of the
store leave no choice, the checks always come down to the same cut: the lowest ledger of the batch
that is stored with another hash.

The store in memory answers with its first row, so there is never a choice. The table may answer
with any row.
-/

import Fluxora.Indexer.IngestAttempts

namespace Fluxora.Indexer

open Lib Lib.KeyedTable

namespace ContractEventStore

section

variable {σ : Type} (api : ContractEventStore σ) (events : List ContractEventRecord)

/-- Some answer for the ledger is another hash. -/
def May (s : σ) (ledger : ℕ) : Prop :=
  ∃ answer, api.getLedgerHash s ledger answer ∧ differs events ledger answer = true

/-- Every answer for the ledger is another hash. -/
def Must (s : σ) (ledger : ℕ) : Prop :=
  ∀ answer, api.getLedgerHash s ledger answer → differs events ledger answer = true

/-- The answers leave no choice. -/
def Decided (s : σ) : Prop :=
  ∀ ledger ∈ ledgersInBatch events, api.May events s ledger →
    ∃ fork ∈ ledgersInBatch events, fork ≤ ledger ∧ api.Must events s fork

/-- The rows below a fork, or all rows. -/
def cutAt (cut : Option ℕ) (rows : List StoredEvent) : List StoredEvent :=
  rows.filter fun row => cut.all (row.ledger < ·)

/-- The state has the rows below the fork and gives the same answers there. -/
structure IsCut (cut : Option ℕ) (s s' : σ) : Prop where
  rows : api.rows s' = cutAt cut (api.rows s)
  answers : ∀ ledger, cut.all (ledger < ·) = true → ∀ answer,
    api.getLedgerHash s' ledger answer ↔ api.getLedgerHash s ledger answer

/-- The fork to which the checks come down. -/
def Cuts (s : σ) : Option ℕ → Prop
  | none => ∀ ledger ∈ ledgersInBatch events, ¬ api.May events s ledger
  | some fork => fork ∈ ledgersInBatch events ∧ api.Must events s fork ∧
      ∀ ledger ∈ ledgersInBatch events, api.May events s ledger → fork ≤ ledger

end

@[simp]
theorem cutAt_none (rows : List StoredEvent) : cutAt none rows = rows := by
  simp [cutAt]

theorem cutAt_some (fork : ℕ) (rows : List StoredEvent) :
    cutAt (some fork) rows = rows.filter (·.ledger < fork) := rfl

theorem cutAt_cutAt {lower higher : ℕ} (hle : lower ≤ higher) (rows : List StoredEvent) :
    cutAt (some lower) (cutAt (some higher) rows) = cutAt (some lower) rows := by
  rw [cutAt_some, cutAt_some, cutAt_some, List.filter_filter]
  apply List.filter_congr
  intro row _
  by_cases hlow : row.ledger < lower
  · simp [hlow, hlow.trans_le hle]
  · simp [hlow]

variable {σ : Type} {api : ContractEventStore σ} {row : ℤ → ContractEventRecord → StoredEvent}
  {events : List ContractEventRecord} {s mid s' : σ} {cut : Option ℕ} {ledger : ℕ}

theorem IsCut.refl (s : σ) : api.IsCut none s s := ⟨(cutAt_none _).symm, fun _ _ _ => Iff.rfl⟩

theorem IsCut.may_iff (h : api.IsCut cut s s') (hbelow : cut.all (ledger < ·) = true) :
    api.May events s' ledger ↔ api.May events s ledger :=
  exists_congr fun answer => and_congr_left' (h.answers ledger hbelow answer)

theorem IsCut.must_iff (h : api.IsCut cut s s') (hbelow : cut.all (ledger < ·) = true) :
    api.Must events s' ledger ↔ api.Must events s ledger :=
  forall_congr' fun answer => imp_congr_left (h.answers ledger hbelow answer)

theorem exists_cuts (hdecided : api.Decided events s) : ∃ cut, api.Cuts events s cut := by
  classical
  by_cases hsome : ∃ ledger, ledger ∈ ledgersInBatch events ∧ api.May events s ledger
  · obtain ⟨hfirst, hmay⟩ := Nat.find_spec hsome
    obtain ⟨fork, hfork, hle, hmust⟩ := hdecided _ hfirst hmay
    refine ⟨some fork, hfork, hmust, fun ledger hledger hmayLedger => ?_⟩
    exact hle.trans (Nat.find_min' hsome ⟨hledger, hmayLedger⟩)
  · exact ⟨none, fun ledger hledger hmay => hsome ⟨ledger, hledger, hmay⟩⟩

namespace Lawful

variable (law : api.Lawful row)

include law

theorem not_may_of_absent (habsent : ∀ r ∈ api.rows s, r.ledger ≠ ledger) :
    ¬ api.May events s ledger := by
  rintro ⟨answer, hanswer, hdiffers⟩
  rw [law.answer_none s ledger habsent answer hanswer] at hdiffers
  cases hdiffers

theorem below_of_may (hcut : api.IsCut cut s s') (hmay : api.May events s' ledger) :
    cut.all (ledger < ·) = true := by
  by_contra hnot
  apply law.not_may_of_absent _ hmay
  intro r hr hledger
  rw [hcut.rows] at hr
  have hbelow := (List.mem_filter.mp hr).2
  rw [hledger] at hbelow
  exact hnot hbelow

theorem isCut_rollback (s : σ) (fork : ℕ) :
    api.IsCut (some fork) s (api.rollbackBeforeLedger s fork) :=
  ⟨law.rows_rollback s fork, fun ledger hbelow answer =>
    law.answer_rollback s ledger fork answer (of_decide_eq_true hbelow)⟩

/-! ## The checks come down to one fork -/

theorem checks_isCut {ledgers : List ℕ} (hchecks : api.Checks events ledgers s s') :
    ∃ cut, api.IsCut cut s s' ∧
      (∀ fork, cut = some fork → fork ∈ ledgers ∧ api.May events s fork) ∧
      ∀ ledger ∈ ledgers, api.Must events s ledger → ∃ fork, cut = some fork ∧ fork ≤ ledger := by
  induction hchecks with
  | nil s =>
    refine ⟨none, IsCut.refl s, fun fork hfork => ?_, fun ledger hledger => ?_⟩
    · cases hfork
    · cases hledger
  | @cons ledger rest s _ _ hfirst _ ih =>
    obtain ⟨answer, hanswer, hmid⟩ := hfirst
    obtain ⟨cut, hcut, hforks, hmust⟩ := ih
    cases hdiffers : differs events ledger answer with
    | false =>
      rw [hdiffers] at hmid
      subst hmid
      refine ⟨cut, hcut, fun fork hfork => ?_, fun other hother hmustOther => ?_⟩
      · exact ⟨List.mem_cons_of_mem _ (hforks fork hfork).1, (hforks fork hfork).2⟩
      · rcases List.mem_cons.mp hother with rfl | hrest
        · rw [hmustOther answer hanswer] at hdiffers
          cases hdiffers
        · exact hmust other hrest hmustOther
    | true =>
      rw [hdiffers, if_pos rfl] at hmid
      subst hmid
      have hroll := law.isCut_rollback s ledger
      cases cut with
      | none =>
        refine ⟨some ledger, ⟨?_, fun other hbelow a => ?_⟩, ?_, ?_⟩
        · rw [hcut.rows, cutAt_none, hroll.rows]
        · exact (hcut.answers other rfl a).trans (hroll.answers other hbelow a)
        · intro fork hfork
          cases hfork
          exact ⟨List.mem_cons_self, answer, hanswer, hdiffers⟩
        · intro other hother hmustOther
          refine ⟨ledger, rfl, ?_⟩
          rcases List.mem_cons.mp hother with rfl | hrest
          · exact le_rfl
          · -- a lower ledger of the rest would have been cut at
            by_contra hlower
            have hbelow : (some ledger).all (other < ·) = true :=
              decide_eq_true (not_le.mp hlower)
            obtain ⟨fork, hfork, _⟩ :=
              hmust other hrest ((hroll.must_iff hbelow).mpr hmustOther)
            cases hfork
      | some fork =>
        obtain ⟨hrest, hmay⟩ := hforks fork rfl
        have hbelow := law.below_of_may hroll hmay
        have hlower : fork < ledger := of_decide_eq_true hbelow
        refine ⟨some fork, ⟨?_, fun other hother a => ?_⟩, ?_, ?_⟩
        · rw [hcut.rows, hroll.rows, cutAt_cutAt hlower.le]
        · have hfork : other < fork := of_decide_eq_true hother
          exact (hcut.answers other hother a).trans
            (hroll.answers other (decide_eq_true (hfork.trans hlower)) a)
        · intro lowest hlowest
          cases hlowest
          exact ⟨List.mem_cons_of_mem _ hrest, (hroll.may_iff hbelow).mp hmay⟩
        · intro other hother hmustOther
          by_cases hhigher : ledger ≤ other
          · exact ⟨fork, rfl, hlower.le.trans hhigher⟩
          · have hotherBelow : (some ledger).all (other < ·) = true :=
              decide_eq_true (not_le.mp hhigher)
            rcases List.mem_cons.mp hother with rfl | hrest
            · exact absurd le_rfl hhigher
            · exact hmust other hrest ((hroll.must_iff hotherBelow).mpr hmustOther)

theorem isCut_of_checks (hcuts : api.Cuts events s cut)
    (hchecks : api.Checks events (ledgersInBatch events) s s') : api.IsCut cut s s' := by
  obtain ⟨reached, hcut, hforks, hmust⟩ := law.checks_isCut hchecks
  cases cut with
  | none =>
    cases reached with
    | none => exact hcut
    | some fork =>
      obtain ⟨hfork, hmay⟩ := hforks fork rfl
      exact absurd hmay (hcuts fork hfork)
  | some lowest =>
    obtain ⟨hlowest, hmustLowest, hleast⟩ := hcuts
    obtain ⟨fork, rfl, hle⟩ := hmust lowest hlowest hmustLowest
    obtain ⟨hfork, hmay⟩ := hforks fork rfl
    rw [le_antisymm (hleast fork hfork hmay) hle]
    exact hcut

theorem not_may_of_isCut (hcuts : api.Cuts events s cut) (hcut : api.IsCut cut s s')
    (hledger : ledger ∈ ledgersInBatch events) : ¬ api.May events s' ledger := by
  intro hmay
  have hbelow := law.below_of_may hcut hmay
  have hbefore := (hcut.may_iff hbelow).mp hmay
  cases cut with
  | none => exact hcuts ledger hledger hbefore
  | some => exact absurd (hcuts.2.2 ledger hledger hbefore) (not_le.mpr (of_decide_eq_true hbelow))

theorem cuts_of_checks (hcuts : api.Cuts events s cut) {checked : List ℕ}
    (hsub : checked ⊆ ledgersInBatch events) (hchecks : api.Checks events checked s s') :
    ∃ cut', api.Cuts events s' cut' ∧
      cutAt cut' (api.rows s') = cutAt cut (api.rows s) := by
  obtain ⟨reached, hcut, hforks, _⟩ := law.checks_isCut hchecks
  cases reached with
  | none =>
    refine ⟨cut, ?_, by rw [hcut.rows, cutAt_none]⟩
    cases cut with
    | none => exact fun ledger hledger hmay => hcuts ledger hledger ((hcut.may_iff rfl).mp hmay)
    | some =>
      obtain ⟨hlowest, hmust, hleast⟩ := hcuts
      exact ⟨hlowest, (hcut.must_iff rfl).mpr hmust, fun ledger hledger hmay =>
        hleast ledger hledger ((hcut.may_iff rfl).mp hmay)⟩
  | some fork =>
    obtain ⟨hfork, hmay⟩ := hforks fork rfl
    cases cut with
    | none => exact absurd hmay (hcuts fork (hsub hfork))
    | some lowest =>
      have hle := hcuts.2.2 fork (hsub hfork) hmay
      rcases hle.lt_or_eq with hlt | heq
      · -- a higher fork: the lowest one is still to come
        obtain ⟨hlowest, hmust, hleast⟩ := hcuts
        refine ⟨some lowest, ⟨hlowest, ?_, fun ledger hledger hmayLedger => ?_⟩, ?_⟩
        · exact (hcut.must_iff (decide_eq_true hlt)).mpr hmust
        · have hbelow := law.below_of_may hcut hmayLedger
          exact hleast ledger hledger ((hcut.may_iff hbelow).mp hmayLedger)
        · rw [hcut.rows, cutAt_cutAt hle]
      · subst heq
        refine ⟨none, fun ledger hledger => ?_, by rw [cutAt_none, hcut.rows]⟩
        exact law.not_may_of_isCut hcuts hcut hledger

end Lawful

/-! ## What the attempts leave -/

/-- The event as the store keeps it. -/
def written (row : ℤ → ContractEventRecord → StoredEvent) (event : ContractEventRecord) :
    ContractEventRecord := (row 0 event).toContractEventRecord

/-- The attempts from a state all lead to the same events: those below the fork, and the
batch. -/
def Aims (api : ContractEventStore σ) (row : ℤ → ContractEventRecord → StoredEvent)
    (events : List ContractEventRecord) (s : σ) (target : List ContractEventRecord) : Prop :=
  ∃ cut, api.Cuts events s cut ∧
    insertAll (·.eventId) ((cutAt cut (api.rows s)).map StoredEvent.toContractEventRecord)
      (events.map (written row)) = target

/-- The batch is stored, and its ledgers have its hashes. -/
structure Done (api : ContractEventStore σ) (events : List ContractEventRecord) (s : σ) :
    Prop where
  checked : ∀ ledger ∈ ledgersInBatch events, ¬ api.May events s ledger
  ids : ∀ event ∈ events, event.eventId ∈ (api.rows s).map StoredEvent.key

namespace Lawful

variable (law : api.Lawful row) {batch : List ContractEventRecord}
  {result : InsertContractEventsResult} {target : List ContractEventRecord} {now : ℤ}
  {ledgers : List ℕ}

include law

theorem insert_batch (hone : Agree events events) (hcuts : api.Cuts events s cut)
    (hchecks : api.Checks events (ledgersInBatch events) s mid) (hsub : batch ⊆ events)
    (hinsert : api.insertMany mid now batch = some (s', result)) :
    api.rows s' = insertAll StoredEvent.key (cutAt cut (api.rows s)) (batch.map (row now)) ∧
      ∀ ledger ∈ ledgersInBatch events, ¬ api.May events s' ledger := by
  have hcut := law.isCut_of_checks hcuts hchecks
  obtain ⟨after, hafter, hrows⟩ := law.inserts mid now batch
  rw [hinsert] at hafter
  cases hafter
  refine ⟨by rw [hrows, hcut.rows], ?_⟩
  rintro ledger hledger ⟨answer, hanswer, hdiffers⟩
  rcases law.answer_insert mid now batch s' _ hinsert ledger answer hanswer with hold | hnew
  · exact law.not_may_of_isCut hcuts hcut hledger ⟨answer, hold, hdiffers⟩
  · obtain ⟨event, hevent, rfl, rfl⟩ := hnew
    simp [differs, incomingHash_eq hone (hsub hevent)] at hdiffers

theorem stored_insertAll {rows : List StoredEvent}
    (hrows : api.rows s' = insertAll StoredEvent.key rows (batch.map (row now))) :
    api.stored s' = insertAll (·.eventId) (rows.map StoredEvent.toContractEventRecord)
      (batch.map (written row)) := by
  have hkey : ∀ r : StoredEvent, r.toContractEventRecord.eventId = StoredEvent.key r :=
    fun _ => rfl
  rw [stored, hrows, map_insertAll StoredEvent.key StoredEvent.toContractEventRecord hkey,
    List.map_map]
  congr 1
  exact List.map_congr_left fun event _ => law.record_row now 0 event

theorem aims_of_fails (hone : Agree events events) (haims : api.Aims row events s target)
    (hfails : api.Fails events s s') : api.Aims row events s' target := by
  obtain ⟨cut, hcuts, rfl⟩ := haims
  rcases hfails with ⟨checked, hprefix, hchecks⟩ | ⟨mid, now, count, result, hchecks, hinsert⟩
  · obtain ⟨cut', hcuts', hsame⟩ := law.cuts_of_checks hcuts hprefix.subset hchecks
    exact ⟨cut', hcuts', by rw [hsame]⟩
  · obtain ⟨hrows, hsettled⟩ :=
      law.insert_batch hone hcuts hchecks (List.take_subset count events) hinsert
    refine ⟨none, hsettled, ?_⟩
    rw [cutAt_none]
    change insertAll _ (api.stored s') _ = _
    rw [law.stored_insertAll hrows, List.map_take, insertAll_insertAll_take]

theorem aims_of_tried (hone : Agree events events) (haims : api.Aims row events s target)
    (htried : api.Tried events s s') : api.Aims row events s' target := by
  induction htried with
  | refl => exact haims
  | tail _ hfails ih => exact law.aims_of_fails hone ih hfails

theorem of_succeeds (hone : Agree events events) (haims : api.Aims row events s target)
    (hsucceeds : api.Succeeds events s s' result) :
    api.stored s' = target ∧ api.Done events s' := by
  obtain ⟨cut, hcuts, rfl⟩ := haims
  obtain ⟨mid, now, hchecks, hinsert⟩ := hsucceeds
  obtain ⟨hrows, hsettled⟩ :=
    law.insert_batch hone hcuts hchecks (List.Subset.refl events) hinsert
  refine ⟨law.stored_insertAll hrows, hsettled, fun event hevent => ?_⟩
  rw [hrows, mem_keys_insertAll, List.map_map]
  right
  rw [← law.key_row now event]
  exact List.mem_map_of_mem (f := StoredEvent.key ∘ row now) hevent

theorem again_of_done (hdone : api.Done events s)
    (hsucceeds : api.Succeeds events s s' result) :
    api.rows s' = api.rows s ∧ result = ⟨[], events.map (·.eventId)⟩ := by
  obtain ⟨mid, now, hchecks, hinsert⟩ := hsucceeds
  have hcuts : api.Cuts events s none := hdone.checked
  have hsame : api.rows mid = api.rows s := by
    rw [(law.isCut_of_checks hcuts hchecks).rows, cutAt_none]
  obtain ⟨after, hafter, hrows⟩ := law.inserts mid now events
  rw [hinsert] at hafter
  cases hafter
  rw [hsame] at hrows ⊢
  apply And.intro
  · rw [hrows]
    apply insertAll_eq_self
    intro r hr
    obtain ⟨event, hevent, rfl⟩ := List.mem_map.mp hr
    change (row now event).eventId ∈ _
    rw [law.key_row]
    exact hdone.ids event hevent
  · exact InMemoryContractEventStore.stage_of_taken hdone.ids

theorem converges_of_decided (hone : Agree events events) (hdecided : api.Decided events s) :
    api.Converges events s := by
  obtain ⟨cut, hcuts⟩ := exists_cuts hdecided
  have haims : api.Aims row events s _ := ⟨cut, hcuts, rfl⟩
  constructor
  · intro tried final once result result' htried hfinal honce record
    have hlate := (law.of_succeeds hone (law.aims_of_tried hone haims htried) hfinal).1
    rw [hlate, (law.of_succeeds hone haims honce).1]
  · intro tried final next result result' htried hfinal hnext
    have hdone := (law.of_succeeds hone (law.aims_of_tried hone haims htried) hfinal).2
    exact law.again_of_done hdone hnext

/-! ## Where there is a choice -/

theorem rows_subset_of_checks (hchecks : api.Checks events ledgers s s') :
    api.rows s' ⊆ api.rows s := by
  obtain ⟨cut, hcut, _⟩ := law.checks_isCut hchecks
  rw [hcut.rows]
  exact List.filter_subset_self _

theorem exists_checks (ledgers : List ℕ) (s : σ) : ∃ s', api.Checks events ledgers s s' := by
  induction ledgers generalizing s with
  | nil => exact ⟨s, .nil s⟩
  | cons ledger _ ih =>
    obtain ⟨answer, hanswer⟩ := law.answers s ledger
    obtain ⟨s', hrest⟩ := ih (if differs events ledger answer then
      api.rollbackBeforeLedger s ledger else s)
    exact ⟨s', .cons ⟨answer, hanswer, rfl⟩ hrest⟩

theorem exists_checks_removing (hledger : ledger ∈ ledgers) (hmay : api.May events s ledger) :
    ∃ s', api.Checks events ledgers s s' ∧ ∀ r ∈ api.rows s', r.ledger ≠ ledger := by
  induction ledgers generalizing s with
  | nil => cases hledger
  | cons first rest ih =>
    -- once the rows are gone they stay away
    have hgone : ∀ mid, api.ChecksLedger events first s mid →
        (∀ r ∈ api.rows mid, r.ledger ≠ ledger) →
        ∃ s', api.Checks events (first :: rest) s s' ∧ ∀ r ∈ api.rows s', r.ledger ≠ ledger := by
      intro mid hfirst hnone
      obtain ⟨s', hrest⟩ : ∃ s', api.Checks events rest mid s' := law.exists_checks rest mid
      exact ⟨s', .cons hfirst hrest, fun r hr =>
        hnone r (law.rows_subset_of_checks hrest hr)⟩
    have hroll := law.isCut_rollback s first
    have habove : ¬ ledger < first → ∀ r ∈ api.rows (api.rollbackBeforeLedger s first),
        r.ledger ≠ ledger := by
      rintro hnot r hr rfl
      rw [hroll.rows] at hr
      exact hnot (of_decide_eq_true (List.mem_filter.mp hr).2)
    rcases List.mem_cons.mp hledger with rfl | hrest
    · obtain ⟨answer, hanswer, hdiffers⟩ := hmay
      exact hgone _ ⟨answer, hanswer, by rw [hdiffers, if_pos rfl]⟩ (habove (lt_irrefl _))
    · obtain ⟨answer, hanswer⟩ := law.answers s first
      cases hdiffers : differs events first answer with
      | false =>
        obtain ⟨s', hchecks, hnone⟩ := ih hrest hmay
        exact ⟨s', .cons ⟨answer, hanswer, by rw [hdiffers]; rfl⟩ hchecks, hnone⟩
      | true =>
        have hfirst : api.ChecksLedger events first s (api.rollbackBeforeLedger s first) :=
          ⟨answer, hanswer, by rw [hdiffers, if_pos rfl]⟩
        by_cases hbelow : ledger < first
        · obtain ⟨s', hchecks, hnone⟩ := ih hrest
            ((hroll.may_iff (decide_eq_true hbelow)).mpr hmay)
          exact ⟨s', .cons hfirst hchecks, hnone⟩
        · exact hgone _ hfirst (habove hbelow)

theorem exists_checks_keeping (hfree : ∀ fork ∈ ledgers, fork ≤ ledger → ¬ api.Must events s fork) :
    ∃ s', api.Checks events ledgers s s' ∧
      ∀ r ∈ api.rows s, r.ledger ≤ ledger → r ∈ api.rows s' := by
  induction ledgers generalizing s with
  | nil => exact ⟨s, .nil s, fun _ hr _ => hr⟩
  | cons first rest ih =>
    have hrest : ∀ fork ∈ rest, fork ≤ ledger → ¬ api.Must events s fork :=
      fun fork hfork => hfree fork (List.mem_cons_of_mem _ hfork)
    -- an answer that does not differ leaves the state as it is
    have hkeep : ∀ answer, api.getLedgerHash s first answer →
        differs events first answer = false → ∃ s', api.Checks events (first :: rest) s s' ∧
          ∀ r ∈ api.rows s, r.ledger ≤ ledger → r ∈ api.rows s' := by
      intro answer hanswer hdiffers
      obtain ⟨s', hchecks, hrows⟩ := ih hrest
      exact ⟨s', .cons ⟨answer, hanswer, by rw [hdiffers]; rfl⟩ hchecks, hrows⟩
    by_cases hbelow : first ≤ ledger
    · have hnot := hfree first List.mem_cons_self hbelow
      simp only [Must, not_forall, Bool.not_eq_true] at hnot
      obtain ⟨answer, hanswer, hdiffers⟩ := hnot
      exact hkeep answer hanswer hdiffers
    · obtain ⟨answer, hanswer⟩ := law.answers s first
      cases hdiffers : differs events first answer with
      | false => exact hkeep answer hanswer hdiffers
      | true =>
        have hroll := law.isCut_rollback s first
        have hlower : ∀ fork, fork ≤ ledger → fork < first :=
          fun fork hfork => hfork.trans_lt (not_le.mp hbelow)
        obtain ⟨s', hchecks, hrows⟩ := ih fun fork hfork hle hmust =>
          hrest fork hfork hle ((hroll.must_iff (decide_eq_true (hlower fork hle))).mp hmust)
        refine ⟨s', .cons ⟨answer, hanswer, by rw [hdiffers, if_pos rfl]⟩ hchecks, ?_⟩
        intro r hr hle
        apply hrows r _ hle
        rw [hroll.rows]
        exact List.mem_filter.mpr ⟨hr, decide_eq_true (hlower _ hle)⟩

theorem decided_of_converges (hone : Agree events events) (hconverges : api.Converges events s) :
    api.Decided events s := by
  intro ledger hledger hmay
  by_contra hfree
  obtain ⟨removing, hremoving, hnone⟩ := law.exists_checks_removing hledger hmay
  have hchoice : ∀ fork ∈ ledgersInBatch events, fork ≤ ledger → ¬ api.Must events s fork :=
    fun fork hfork hle hmust => hfree ⟨fork, hfork, hle, hmust⟩
  obtain ⟨keeping, hkeeping, hkept⟩ := law.exists_checks_keeping hchoice
  obtain ⟨answer, hanswer, hdiffers⟩ := hmay
  cases answer with
  | none => cases hdiffers
  | some hash =>
    obtain ⟨old, hold, hat, hhash⟩ := law.answer_some s ledger hash hanswer
    obtain ⟨first, hfirst, hfirstRows⟩ := law.inserts removing 0 events
    obtain ⟨second, hsecond, hsecondRows⟩ := law.inserts keeping 0 events
    have hsame := hconverges.same s first second _ _ .refl ⟨removing, 0, hremoving, hfirst⟩
      ⟨keeping, 0, hkeeping, hsecond⟩ old.toContractEventRecord
    have hstays : old.toContractEventRecord ∈ api.stored second := by
      apply List.mem_map_of_mem
      rw [hsecondRows]
      exact mem_insertAll_of_mem StoredEvent.key (hkept old hold hat.le) _
    obtain ⟨r, hr, hrecord⟩ := List.mem_map.mp (hsame.mpr hstays)
    have hledgerOf : r.ledger = ledger :=
      (congrArg ContractEventRecord.ledger hrecord).trans hat
    have hhashOf : r.ledgerHash = hash :=
      (congrArg ContractEventRecord.ledgerHash hrecord).trans hhash
    rw [hfirstRows] at hr
    rcases mem_insertAll StoredEvent.key hr with hleft | hnew
    · exact hnone r hleft hledgerOf
    · -- a row of the batch has the hash of the batch
      obtain ⟨event, hevent, rfl⟩ := List.mem_map.mp hnew
      rw [law.ledger_row] at hledgerOf
      rw [law.hash_row] at hhashOf
      rw [← hhashOf, ← hledgerOf] at hdiffers
      simp [differs, incomingHash_eq hone hevent] at hdiffers

theorem converges_iff_decided (hone : Agree events events) :
    api.Converges events s ↔ api.Decided events s :=
  ⟨law.decided_of_converges hone, law.converges_of_decided hone⟩

end Lawful

end ContractEventStore

/-! ## Both stores -/

section

variable {events : List ContractEventRecord}

theorem InMemoryContractEventStore.decided (store : InMemoryContractEventStore) :
    InMemoryContractEventStore.api.Decided events store := by
  rintro ledger hledger ⟨answer, hanswer, hdiffers⟩
  refine ⟨ledger, hledger, le_rfl, fun other hother => ?_⟩
  have hsame : other = answer := Eq.trans hother (Eq.symm hanswer)
  rw [hsame]
  exact hdiffers

/-- A row has another hash than the batch has for its ledger. -/
def StoredEvent.Outdated (events : List ContractEventRecord) (r : StoredEvent) : Prop :=
  r.ledgerHash ≠ "" ∧ r.ledgerHash ≠ incomingHash events r.ledger

/-- Where a ledger of the batch has an outdated row, that ledger or a lower one of the batch
has rows, and all of them are outdated. -/
def WholeForks (events : List ContractEventRecord) (rows : List StoredEvent) : Prop :=
  ∀ r ∈ rows, r.ledger ∈ ledgersInBatch events → r.Outdated events →
    ∃ first ∈ rows, first.ledger ∈ ledgersInBatch events ∧ first.ledger ≤ r.ledger ∧
      ∀ other ∈ rows, other.ledger = first.ledger → other.Outdated events

theorem differs_iff {r : StoredEvent} :
    differs events r.ledger (some r.ledgerHash) = true ↔ r.Outdated events := by
  simp [differs, StoredEvent.Outdated]

namespace PostgresContractEventStore

variable {store : PostgresContractEventStore} {ledger : ℕ}

theorem may_iff : api.May events store ledger ↔
    ∃ r ∈ store.rows, r.ledger = ledger ∧ r.Outdated events := by
  apply Iff.intro
  · rintro ⟨answer, hanswer, hdiffers⟩
    cases answer with
    | none => cases hdiffers
    | some =>
      obtain ⟨r, hr, rfl, rfl⟩ := hanswer
      exact ⟨r, hr, rfl, differs_iff.mp hdiffers⟩
  · rintro ⟨r, hr, rfl, houtdated⟩
    exact ⟨some r.ledgerHash, ⟨r, hr, rfl, rfl⟩, differs_iff.mpr houtdated⟩

theorem must_iff : api.Must events store ledger ↔
    (∃ first ∈ store.rows, first.ledger = ledger) ∧
      ∀ r ∈ store.rows, r.ledger = ledger → r.Outdated events := by
  apply Iff.intro
  · intro hmust
    apply And.intro
    · by_contra hnone
      have habsent := hmust none fun r hr hledger => hnone ⟨r, hr, hledger⟩
      cases habsent
    · rintro r hr rfl
      exact differs_iff.mp (hmust (some r.ledgerHash) ⟨r, hr, rfl, rfl⟩)
  · rintro ⟨⟨first, hfirst, hat⟩, hall⟩ answer hanswer
    cases answer with
    | none => exact absurd hat (hanswer first hfirst)
    | some =>
      obtain ⟨r, hr, rfl, rfl⟩ := hanswer
      exact differs_iff.mpr (hall r hr rfl)

theorem decided_iff : api.Decided events store ↔ WholeForks events store.rows := by
  apply Iff.intro
  · intro hdecided r hr hledger houtdated
    obtain ⟨fork, hfork, hle, hmust⟩ :=
      hdecided r.ledger hledger (may_iff.mpr ⟨r, hr, rfl, houtdated⟩)
    obtain ⟨⟨first, hfirst, rfl⟩, hall⟩ := must_iff.mp hmust
    exact ⟨first, hfirst, hfork, hle, hall⟩
  · intro hwhole ledger hledger hmay
    obtain ⟨r, hr, rfl, houtdated⟩ := may_iff.mp hmay
    obtain ⟨first, hfirst, hfork, hle, hall⟩ := hwhole r hr hledger houtdated
    exact ⟨first.ledger, hfork, hle, must_iff.mpr ⟨⟨first, hfirst, rfl⟩, hall⟩⟩

end PostgresContractEventStore

end

/-- A table with rows of ledger 7, by their ids and hashes. -/
def ledgerSevenTable (rows : List (String × String)) : PostgresContractEventStore :=
  ⟨codePointCollation, "contract_events", rows.map fun row => ⟨ledgerSevenRecord row.1 row.2, 0⟩⟩

theorem agree_singleton (event : ContractEventRecord) : Agree [event] [event] := by
  intro a ha b hb _
  rw [List.mem_singleton.mp ha, List.mem_singleton.mp hb]

end Fluxora.Indexer
