/-
# The bookkeeping of reorgs

The service remembers a reorg in three places: the flag with the height of the last one, the set
of the ledgers whose webhook deliveries are held back, and the watermark `lastSafeLedger` below
which consumers may rely on what is stored. They are to fit together: nothing is held back when no
reorg is flagged, and no ledger that was rolled back and not stored again lies at or below the
watermark.

A run keeps the ledgers that were rolled back so far.
-/

import Fluxora.Indexer.SingleChain

namespace Fluxora.Indexer

open Lib Lib.KeyedTable Lib.Transition

/-! ## What is held back -/

def IndexerState.isLedgerRolledBack (state : IndexerState) (ledger : ℕ) : Bool :=
  ledger ∈ state.rolledBackLedgers

/-- `dispatchWebhook` returns without a request. A caller that gives no ledger does not ask
for it. -/
def IndexerState.suppresses (state : IndexerState) (ledger : Option ℕ) : Bool :=
  ledger.any state.isLedgerRolledBack

/-- Nothing is held back unless a reorg is flagged. -/
def IndexerState.Settled (state : IndexerState) : Prop :=
  state.reorgDetected = false → ∀ ledger, state.suppresses (some ledger) = false

/-- The highest ledger of a batch. -/
def maxLedger (events : List ContractEventRecord) : ℕ := (events.map (·.ledger)).foldl max 0

/-- Where a batch settles the flagged reorg, no other ledger is held back. -/
def IndexerState.ClearsAll (state : IndexerState) (events : List ContractEventRecord) : Prop :=
  state.reorgDetected = true → ∀ height ∈ state.reorgHeight, height + 5 < maxLedger events →
    ∀ ledger ∈ state.rolledBackLedgers, ledger = height

theorem suppresses_some (state : IndexerState) (ledger : ℕ) :
    state.suppresses (some ledger) = false ↔ ledger ∉ state.rolledBackLedgers := by
  simp [IndexerState.suppresses, IndexerState.isLedgerRolledBack]

section

variable {state : IndexerState} {events : List ContractEventRecord}
  {result : InsertContractEventsResult}

theorem lastSafeLedger_recordInsert :
    (state.recordInsert events result).lastSafeLedger =
      max state.lastSafeLedger (maxLedger events - 1) := by
  unfold IndexerState.recordInsert
  split
  · dsimp only
    split_ifs <;> rfl
  · rfl

theorem settled_recordInsert_iff (hsettled : state.Settled) :
    (state.recordInsert events result).Settled ↔ state.ClearsAll events := by
  unfold IndexerState.recordInsert
  split
  · rename_i height hheight
    dsimp only
    split_ifs with hclears
    · obtain ⟨hdetected, hpassed⟩ := hclears
      apply Iff.intro
      · intro hafter _ other hother hpast ledger hledger
        rw [hheight] at hother
        cases hother
        have hgone := (suppresses_some _ _).mp (hafter rfl ledger)
        by_contra hne
        exact hgone (List.mem_filter.mpr ⟨hledger, decide_eq_true hne⟩)
      · intro hall _ ledger
        rw [suppresses_some]
        intro hmem
        obtain ⟨hledger, hne⟩ := List.mem_filter.mp hmem
        exact of_decide_eq_true hne (hall hdetected height hheight hpassed ledger hledger)
    · apply Iff.intro
      · intro _ hdetected other hother hpast
        rw [hheight] at hother
        cases hother
        exact absurd ⟨hdetected, hpast⟩ hclears
      · exact fun _ => hsettled
  · rename_i hheight
    apply Iff.intro
    · intro _ _ other hother
      rw [hheight] at hother
      cases hother
    · exact fun _ => hsettled

end

/-! ## Runs with the ledgers that were rolled back -/

section

variable {ι : Type} [DecidableEq ι] {parseDate : String → Option ℤ}

/-- The ledgers that a step rolls back: the fork and those of the events it removes. -/
def IngestSystem.rollsBack (s : IngestSystem ι) : IngestLabel ι → List ℕ
  | .rollback i =>
    match s.calls i with
    | .rollingBack _ ledger _ =>
      ledger :: (s.store.records.filter (ledger ≤ ·.ledger)).map (·.ledger)
    | _ => []
  | _ => []

structure ReorgRun (ι : Type) where
  system : IngestSystem ι
  rolledBack : List ℕ

namespace ReorgRun

def initial : ReorgRun ι := ⟨.initial, []⟩

def step (parseDate : String → Option ℤ) (r : ReorgRun ι) (label : IngestLabel ι) :
    Option (ReorgRun ι) :=
  (ingestStep parseDate r.system label).map fun s' =>
    ⟨s', r.rolledBack ++ r.system.rollsBack label⟩

/-- A ledger that was rolled back and is not stored again. -/
def Outstanding (r : ReorgRun ι) (ledger : ℕ) : Prop :=
  ledger ∈ r.rolledBack ∧ ∀ record ∈ r.system.store.records, record.ledger ≠ ledger

/-- The bookkeeping as it is promised. -/
structure Bookkept (r : ReorgRun ι) : Prop where
  settled : r.system.state.Settled
  safe : ∀ ledger, r.Outstanding ledger → r.system.state.lastSafeLedger < ledger

/-- Some event of a batch that is not stored yet is of the ledger. -/
def Restores (r : ReorgRun ι) (events : List ContractEventRecord) (ledger : ℕ) : Prop :=
  ∃ event ∈ events, event.ledger = ledger ∧
    event.eventId ∉ r.system.store.records.map StoredEvent.key

/-- A rollback is above the watermark; and a batch restores the missing ledgers below its
highest, and settles a reorg only when no other is held back. -/
def SettlesInTurn (r : ReorgRun ι) : IngestLabel ι → Prop
  | .rollback i => ∀ events ledger remaining,
      r.system.calls i = .rollingBack events ledger remaining →
        r.system.state.lastSafeLedger < ledger
  | .insert i _ => ∀ events, r.system.calls i = .checking events [] →
      r.system.state.ClearsAll events ∧
        ∀ ledger, r.Outstanding ledger → ledger < maxLedger events → r.Restores events ledger
  | _ => True

/-- The batches of the calls under way have no event id twice. -/
def Distinct (r : ReorgRun ι) : Prop :=
  ∀ i, ((r.system.calls i).events.map (·.eventId)).Nodup

variable {r : ReorgRun ι} {i : ι} {events : List ContractEventRecord} {ledger : ℕ}
  {remaining : List ℕ}

omit [DecidableEq ι] in
theorem bookkept_initial : (initial : ReorgRun ι).Bookkept where
  settled _ _ := rfl
  safe _ hout := nomatch hout.1

omit [DecidableEq ι] in
theorem distinct_initial : (initial : ReorgRun ι).Distinct := fun _ => List.nodup_nil

/-! ## The steps that keep the bookkeeping -/

omit [DecidableEq ι] in
theorem Bookkept.mono (h : r.Bookkept) {s' : IngestSystem ι} (hsettled : s'.state.Settled)
    (hsafe : s'.state.lastSafeLedger = r.system.state.lastSafeLedger)
    (hstored : ∀ record ∈ r.system.store.records, record ∈ s'.store.records) :
    Bookkept ⟨s', r.rolledBack ++ []⟩ where
  settled := hsettled
  safe ledger hout := by
    rw [hsafe]
    obtain ⟨hrolled, hnone⟩ := hout
    rw [List.append_nil] at hrolled
    exact h.safe ledger ⟨hrolled, fun record hrecord => hnone record (hstored record hrecord)⟩

theorem Bookkept.rollback_iff (h : r.Bookkept)
    (hphase : r.system.calls i = .rollingBack events ledger remaining) :
    Bookkept ⟨r.system.put i (r.system.store.rollbackBeforeLedger ledger) r.system.state
        (.checking events remaining), r.rolledBack ++ r.system.rollsBack (.rollback i)⟩ ↔
      r.system.state.lastSafeLedger < ledger := by
  have hrolls : r.system.rollsBack (.rollback i) =
      ledger :: (r.system.store.records.filter (ledger ≤ ·.ledger)).map (·.ledger) := by
    rw [IngestSystem.rollsBack, hphase]
  rw [hrolls]
  apply Iff.intro
  · intro hafter
    apply hafter.safe ledger
    refine ⟨List.mem_append_right _ List.mem_cons_self, fun record hrecord => ?_⟩
    exact Nat.ne_of_lt (InMemoryContractEventStore.mem_rollbackBeforeLedger.mp hrecord).2
  · intro habove
    refine ⟨h.settled, fun lost ⟨hrolled, hnone⟩ => ?_⟩
    by_cases hbelow : lost < ledger
    · -- below the fork nothing is rolled back and nothing is removed
      have hbefore : lost ∈ r.rolledBack := by
        rcases List.mem_append.mp hrolled with hold | hnew
        · exact hold
        · rcases List.mem_cons.mp hnew with heq | hremoved
          · exact absurd heq (Nat.ne_of_lt hbelow)
          · obtain ⟨record, hrecord, heq⟩ := List.mem_map.mp hremoved
            have hle := of_decide_eq_true (List.mem_filter.mp hrecord).2
            omega
      apply h.safe lost ⟨hbefore, fun record hrecord heq => ?_⟩
      apply hnone record _ heq
      exact InMemoryContractEventStore.mem_rollbackBeforeLedger.mpr ⟨hrecord, heq ▸ hbelow⟩
    · exact habove.trans_le (not_lt.mp hbelow)

variable {state : IndexerState}

theorem outstanding_insert_iff (hdistinct : (events.map (·.eventId)).Nodup) {now : ℤ}
    {missing : ℕ} :
    Outstanding ⟨r.system.put i (r.system.store.insertMany now events).1 state .idle,
        r.rolledBack ++ []⟩ missing ↔
      r.Outstanding missing ∧ ¬ r.Restores events missing := by
  have hkeys : ((events.map (StoredEvent.mk · now)).map StoredEvent.key).Nodup := by
    rw [List.map_map]
    exact hdistinct
  have hrecords : (r.system.store.insertMany now events).1.records =
      r.system.store.records ++ (events.map (StoredEvent.mk · now)).filter
        (StoredEvent.key · ∉ r.system.store.records.map StoredEvent.key) := by
    rw [InMemoryContractEventStore.insertMany_records,
      insertAll_eq_append StoredEvent.key hkeys]
  change (missing ∈ r.rolledBack ++ [] ∧
    ∀ record ∈ (r.system.store.insertMany now events).1.records, record.ledger ≠ missing) ↔ _
  rw [hrecords, List.append_nil]
  apply Iff.intro
  · rintro ⟨hrolled, hnone⟩
    refine ⟨⟨hrolled, fun record hrecord => hnone record (List.mem_append_left _ hrecord)⟩, ?_⟩
    rintro ⟨event, hevent, hledger, hfresh⟩
    apply hnone ⟨event, now⟩ _ hledger
    apply List.mem_append_right
    exact List.mem_filter.mpr ⟨List.mem_map_of_mem hevent, decide_eq_true hfresh⟩
  · rintro ⟨⟨hrolled, hnone⟩, hlost⟩
    refine ⟨hrolled, fun record hrecord heq => ?_⟩
    rcases List.mem_append.mp hrecord with hold | hnew
    · exact hnone record hold heq
    · obtain ⟨hmapped, hfresh⟩ := List.mem_filter.mp hnew
      obtain ⟨event, hevent, hrow⟩ := List.mem_map.mp hmapped
      cases hrow
      exact hlost ⟨event, hevent, heq, of_decide_eq_true hfresh⟩

theorem Bookkept.insert_iff (h : r.Bookkept) (hdistinct : (events.map (·.eventId)).Nodup)
    {now : ℤ} {result : InsertContractEventsResult} :
    Bookkept ⟨r.system.put i (r.system.store.insertMany now events).1
        (r.system.state.recordInsert events result) .idle, r.rolledBack ++ []⟩ ↔
      r.system.state.ClearsAll events ∧
        ∀ ledger, r.Outstanding ledger → ledger < maxLedger events →
          r.Restores events ledger := by
  have hsafe : (r.system.state.recordInsert events result).lastSafeLedger =
      max r.system.state.lastSafeLedger (maxLedger events - 1) := lastSafeLedger_recordInsert
  apply Iff.intro
  · intro hafter
    refine ⟨(settled_recordInsert_iff h.settled).mp hafter.settled, ?_⟩
    intro missing hmissing hpassed
    by_contra hlost
    have hbelow : (r.system.state.recordInsert events result).lastSafeLedger < missing :=
      hafter.safe missing ((outstanding_insert_iff hdistinct).mpr ⟨hmissing, hlost⟩)
    omega
  · rintro ⟨hclears, hrestores⟩
    refine ⟨(settled_recordInsert_iff h.settled).mpr hclears, fun missing hout => ?_⟩
    obtain ⟨hmissing, hlost⟩ := (outstanding_insert_iff hdistinct).mp hout
    have hbefore := h.safe missing hmissing
    have hnotPassed : ¬ missing < maxLedger events :=
      fun hpassed => hlost (hrestores missing hmissing hpassed)
    change (r.system.state.recordInsert events result).lastSafeLedger < missing
    omega

omit [DecidableEq ι] in
theorem startIngest_fst (parseDate : String → Option ℤ) (state : IndexerState) (body : Json)
    (actor : String) (now : ℕ) :
    ∃ rateLimits, (startIngest parseDate state body actor now).1 =
      { state with rateLimits := rateLimits } := by
  unfold startIngest
  split_ifs with hhealthy
  · exact ⟨state.rateLimits, rfl⟩
  · split
    · exact ⟨state.rateLimits, rfl⟩
    · rename_i counted hcounted
      unfold IndexerState.enforceRateLimit at hcounted
      dsimp only at hcounted
      split_ifs at hcounted with hmany
      cases hcounted
      exact ⟨_, rfl⟩

variable {store : InMemoryContractEventStore} {batch : List ContractEventRecord}
  {phase : IngestPhase}

theorem Distinct.put (h : r.Distinct) (hbatch : (batch.map (·.eventId)).Nodup)
    (hevents : phase.events = batch) {rolledBack : List ℕ} :
    Distinct ⟨r.system.put i store state phase, rolledBack⟩ := by
  intro j
  by_cases hj : j = i
  · rw [hj, IngestSystem.put_calls_self, hevents]
    exact hbatch
  · rw [IngestSystem.put_calls_of_ne hj]
    exact h j

theorem Distinct.finish (h : r.Distinct) {rolledBack : List ℕ} :
    Distinct ⟨r.system.put i store state .idle, rolledBack⟩ := by
  have hnone : (([] : List ContractEventRecord).map (·.eventId)).Nodup := List.nodup_nil
  exact h.put hnone rfl

omit [DecidableEq ι] in
theorem Distinct.ofPhase (h : r.Distinct) (hphase : r.system.calls i = phase)
    (hevents : phase.events = batch) : (batch.map (·.eventId)).Nodup := by
  rw [← hevents, ← hphase]
  exact h i

theorem bookkept_step_iff {label : IngestLabel ι} {r' : ReorgRun ι} (hdistinct : r.Distinct)
    (h : r.Bookkept) (hstep : r.step parseDate label = some r') :
    (r'.Bookkept ↔ r.SettlesInTurn label) ∧ r'.Distinct := by
  obtain ⟨s', hsystem, rfl⟩ := Option.map_eq_some_iff.mp hstep
  cases label with
  | begin _ body actor now =>
    simp only [ingestStep] at hsystem
    obtain ⟨rateLimits, hstate⟩ := startIngest_fst parseDate r.system.state body actor now
    split at hsystem
    · split at hsystem
      · rename_i events houtcome
        cases hsystem
        have hbatch := validateBatch_nodup (startIngest_eq_ok houtcome)
        refine ⟨iff_of_true (h.mono ?_ ?_ fun _ hr => hr) trivial, hdistinct.put hbatch rfl⟩
        · rw [IngestSystem.put, hstate]
          exact h.settled
        · rw [IngestSystem.put, hstate]
      · cases hsystem
        refine ⟨iff_of_true (h.mono ?_ ?_ fun _ hr => hr) trivial,
          hdistinct.finish⟩
        · rw [IngestSystem.put, hstate]
          exact h.settled
        · rw [IngestSystem.put, hstate]
    · cases hsystem
  | check =>
    simp only [ingestStep] at hsystem
    split at hsystem
    · rename_i events ledger remaining hphase
      have hbatch : (events.map (·.eventId)).Nodup := hdistinct.ofPhase hphase rfl
      split at hsystem
      · split_ifs at hsystem with hdiffers
        · -- the flag is set, so something may be held back
          cases hsystem
          have hflagged : (r.system.state.flagReorg ledger).Settled :=
            fun hclear => by cases hclear
          exact ⟨iff_of_true (h.mono hflagged rfl fun _ hr => hr) trivial,
            hdistinct.put hbatch rfl⟩
        · cases hsystem
          exact ⟨iff_of_true (h.mono h.settled rfl fun _ hr => hr) trivial,
            hdistinct.put hbatch rfl⟩
      · cases hsystem
        exact ⟨iff_of_true (h.mono h.settled rfl fun _ hr => hr) trivial,
          hdistinct.put hbatch rfl⟩
    · cases hsystem
  | rollback =>
    simp only [ingestStep] at hsystem
    split at hsystem
    · rename_i events ledger remaining hphase
      cases hsystem
      have hbatch : (events.map (·.eventId)).Nodup := hdistinct.ofPhase hphase rfl
      refine ⟨(h.rollback_iff hphase).trans ?_, hdistinct.put hbatch rfl⟩
      simp [SettlesInTurn, hphase]
    · cases hsystem
  | insert =>
    simp only [ingestStep] at hsystem
    split at hsystem
    · rename_i events hphase
      cases hsystem
      have hbatch : (events.map (·.eventId)).Nodup := hdistinct.ofPhase hphase rfl
      refine ⟨(h.insert_iff hbatch).trans ?_, hdistinct.finish⟩
      simp [SettlesInTurn, hphase]
    · cases hsystem
  | insertFails =>
    simp only [ingestStep] at hsystem
    split at hsystem
    · rename_i events hphase
      cases hsystem
      refine ⟨iff_of_true (h.mono h.settled rfl fun record hrecord => ?_) trivial,
        hdistinct.finish⟩
      exact List.mem_append_left _ hrecord
    · cases hsystem
  | abort =>
    cases hsystem
    exact ⟨iff_of_true (h.mono h.settled rfl fun _ hr => hr) trivial,
      hdistinct.finish⟩
  | setDependencyState =>
    cases hsystem
    exact ⟨iff_of_true (h.mono h.settled rfl fun _ hr => hr) trivial, hdistinct⟩

end ReorgRun

/-- Along every run, the bookkeeping is as promised in every state exactly as long as every
rollback is above the watermark, every batch restores the missing ledgers it passes, and no
reorg settles while another ledger is held back. -/
theorem bookkept_iff_settlesInTurn (parseDate : String → Option ℤ)
    (labels : List (IngestLabel ι)) :
    EveryStep (ReorgRun.step parseDate) (fun _ _ r' => r'.Bookkept) .initial labels ↔
      EveryStep (ReorgRun.step parseDate) (fun r label _ => r.SettlesInTurn label)
        .initial labels :=
  everyStep_iff_of_step ReorgRun.Distinct
    (fun _ _ _ hdistinct h hstep => ReorgRun.bookkept_step_iff hdistinct h hstep)
    ReorgRun.distinct_initial ReorgRun.bookkept_initial

end

/-! ## Two reorgs before one settles -/

/-- A batch with one event, as the chain worker sends it. -/
def ledgerBatch (eventId : String) (ledger : ℕ) (ledgerHash : String) : Json :=
  batchBody
    [.object
      [("eventId", .string eventId), ("ledger", .number ledger), ("contractId", .string "C"),
       ("topic", .string "stream.created"), ("txHash", .string "t"), ("txIndex", .number 0),
       ("operationIndex", .number 0), ("eventIndex", .number 0), ("payload", .object []),
       ("happenedAt", .string "1970-01-01T00:00:00.000Z"), ("ledgerHash", .string ledgerHash)]]

/-- Ingest a batch with one event of a ledger that is new, or has the same hash. -/
def ingestLedger (eventId : String) (ledger : ℕ) : List (IngestLabel Unit) :=
  [.begin () (ledgerBatch eventId ledger "aa") "worker" 0, .check (), .insert () 0]

/-- Ingest a batch with one event of a ledger that is stored with another hash. -/
def ingestFork (eventId : String) (ledger : ℕ) : List (IngestLabel Unit) :=
  [.begin () (ledgerBatch eventId ledger "bb") "worker" 0, .check (), .rollback (), .insert () 0]

/-- Ledger 1 is reorganised, then ledger 2, and then both are settled. -/
def twoForks : List (IngestLabel Unit) :=
  ingestLedger "a" 1 ++ ingestFork "b" 1 ++ ingestLedger "c" 2 ++ ingestFork "d" 2 ++
    ingestLedger "e" 8

/-- No reorg is flagged any more, every event is there, and ledger 1 is still held back. -/
theorem twoForks_heldBack :
    ∃ r : ReorgRun Unit, run (ReorgRun.step parseEpoch) .initial twoForks = some r ∧
      r.system.state.reorgDetected = false ∧ r.system.state.suppresses (some 1) = true ∧
      ¬ r.Bookkept := by
  refine ⟨_, rfl, rfl, rfl, fun hbookkept => ?_⟩
  exact absurd (hbookkept.settled rfl 1) (by decide)

end Fluxora.Indexer
