/-
# One version of every ledger

A ledger that was reorganised has two versions with different hashes, and the store must not hold
events of both. The reorg detection reads one hash per ledger from the batch and one from the
store. That is enough as long as a batch has one hash for each of its ledgers and no call that is
under way brings another version of a ledger the batch has: then every event that is inserted
carries the hash of what was stored at its ledger when the ledger was checked, and nothing with
another hash has come in since.

Neither is checked by the code.
-/

import Fluxora.Indexer.Ingestion

namespace Fluxora.Indexer

open Lib Lib.Transition

/-- Two events of one ledger carry one hash. -/
def SameVersion (a b : ContractEventRecord) : Prop :=
  a.ledger = b.ledger → a.ledgerHash = b.ledgerHash

/-- Two batches have the same version of every ledger they share. -/
def Agree (xs ys : List ContractEventRecord) : Prop := ∀ a ∈ xs, ∀ b ∈ ys, SameVersion a b

/-- All stored events of one ledger carry the same hash. -/
def SingleChain (store : InMemoryContractEventStore) : Prop :=
  ∀ a ∈ store.records, ∀ b ∈ store.records,
    SameVersion a.toContractEventRecord b.toContractEventRecord

theorem SameVersion.symm {a b : ContractEventRecord} (h : SameVersion a b) :
    SameVersion b a := fun hledger => (h hledger.symm).symm

theorem Agree.symm {xs ys : List ContractEventRecord} (h : Agree xs ys) : Agree ys xs :=
  fun b hb a ha => (h a ha b hb).symm

/-- The batch of a call that is under way. -/
def IngestPhase.events : IngestPhase → List ContractEventRecord
  | .idle => []
  | .checking events _ => events
  | .rollingBack events _ _ => events

/-- The ledgers whose stored events may still be of another version. -/
def IngestPhase.unchecked : IngestPhase → List ℕ
  | .idle => []
  | .checking _ remaining => remaining
  | .rollingBack _ ledger remaining => ledger :: remaining

section

variable {ι : Type} [DecidableEq ι] {parseDate : String → Option ℤ} {s : IngestSystem ι} {i : ι}

/-- A batch that begins has one version of every ledger, and it is the version of the
calls under way. -/
def DeliversOneVersion (parseDate : String → Option ℤ) (s : IngestSystem ι) :
    IngestLabel ι → Prop
  | .begin _ body _ _ =>
    ∀ events, validateBatch parseDate body = .ok events →
      Agree events events ∧ ∀ j, Agree events (s.calls j).events
  | _ => True

/-! ## The invariant -/

@[simp]
theorem IngestSystem.put_calls_self (s : IngestSystem ι) (i : ι)
    (store : InMemoryContractEventStore) (state : IndexerState) (phase : IngestPhase) :
    (s.put i store state phase).calls i = phase := Function.update_self ..

variable {state : IndexerState} {store : InMemoryContractEventStore} {phase : IngestPhase}

theorem IngestSystem.put_calls_of_ne {j : ι} (hne : j ≠ i) :
    (s.put i store state phase).calls j = s.calls j := Function.update_of_ne hne ..

/-- What holds of a call between its steps: a ledger it has checked holds no other
version than its own. -/
structure CallInv (store : InMemoryContractEventStore) (phase : IngestPhase) : Prop where
  hashed : ∀ event ∈ phase.events, event.ledgerHash ≠ ""
  checked : ∀ event ∈ phase.events, event.ledger ∉ phase.unchecked →
    ∀ record ∈ store.records, SameVersion record.toContractEventRecord event

structure ChainInv (s : IngestSystem ι) : Prop where
  stored : SingleChain s.store
  hashed : ∀ record ∈ s.store.records, record.ledgerHash ≠ ""
  calls : ∀ i, CallInv s.store (s.calls i)
  agree : ∀ i j, Agree (s.calls i).events (s.calls j).events

theorem CallInv.idle (store : InMemoryContractEventStore) : CallInv store .idle :=
  ⟨fun _ h => absurd h List.not_mem_nil, fun _ h => absurd h List.not_mem_nil⟩

theorem CallInv.mono {store' : InMemoryContractEventStore} (h : CallInv store phase)
    (hsub : store'.records ⊆ store.records) : CallInv store' phase :=
  ⟨h.hashed, fun event he hun record hr => h.checked event he hun record (hsub hr)⟩

theorem ChainInv.put (h : ChainInv s) (hbatch : ∀ j, Agree phase.events (s.calls j).events)
    (hself : Agree phase.events phase.events) (hstored : SingleChain store)
    (hhashed : ∀ record ∈ store.records, record.ledgerHash ≠ "") (hcall : CallInv store phase)
    (hothers : ∀ j, CallInv store (s.calls j)) : ChainInv (s.put i store state phase) where
  stored := hstored
  hashed := hhashed
  calls j := by
    by_cases hj : j = i
    · rw [hj, IngestSystem.put_calls_self]
      exact hcall
    · rw [IngestSystem.put_calls_of_ne hj]
      exact hothers j
  agree j k := by
    by_cases hj : j = i
    · by_cases hk : k = i
      · rw [hj, hk, IngestSystem.put_calls_self]
        exact hself
      · rw [hj, IngestSystem.put_calls_self, IngestSystem.put_calls_of_ne hk]
        exact hbatch k
    · by_cases hk : k = i
      · rw [hk, IngestSystem.put_calls_self, IngestSystem.put_calls_of_ne hj]
        exact (hbatch j).symm
      · rw [IngestSystem.put_calls_of_ne hj, IngestSystem.put_calls_of_ne hk]
        exact h.agree j k

theorem ChainInv.finish (h : ChainInv s) (i : ι) (state : IndexerState) :
    ChainInv (s.put i s.store state .idle) :=
  h.put (fun _ _ ha => absurd ha List.not_mem_nil) (fun _ ha => absurd ha List.not_mem_nil)
    h.stored h.hashed (CallInv.idle _) h.calls

omit [DecidableEq ι] in
theorem ChainInv.ofPhase (h : ChainInv s) (hphase : s.calls i = phase) :
    CallInv s.store phase ∧ Agree phase.events phase.events ∧
      ∀ j, Agree phase.events (s.calls j).events := by
  rw [← hphase]
  exact ⟨h.calls i, h.agree i i, h.agree i⟩

theorem ChainInv.advance (h : ChainInv s) {phase' : IngestPhase} (hphase : s.calls i = phase)
    (hevents : phase'.events = phase.events) (hsub : store.records ⊆ s.store.records)
    (hchecked : ∀ event ∈ phase.events, event.ledger ∉ phase'.unchecked → ∀ record ∈ store.records,
      SameVersion record.toContractEventRecord event) : ChainInv (s.put i store state phase') := by
  obtain ⟨hcall, hself, hagree⟩ := h.ofPhase hphase
  apply h.put
  · rw [hevents]
    exact hagree
  · rw [hevents]
    exact hself
  · exact fun a ha b hb => h.stored a (hsub ha) b (hsub hb)
  · exact fun record hr => h.hashed record (hsub hr)
  · refine ⟨?_, ?_⟩
    · rw [hevents]
      exact hcall.hashed
    · rw [hevents]
      exact hchecked
  · exact fun j => (h.calls j).mono hsub

/-! ## One step -/

theorem incomingHash_eq {events : List ContractEventRecord} (hagree : Agree events events)
    {event : ContractEventRecord} (hevent : event ∈ events) :
    incomingHash events event.ledger = event.ledgerHash := by
  obtain ⟨first, hfirst⟩ : ∃ first, events.find? (·.ledger = event.ledger) = some first := by
    rw [← Option.isSome_iff_exists, List.find?_isSome]
    exact ⟨event, hevent, decide_eq_true rfl⟩
  have hledger : first.ledger = event.ledger := by simpa using List.find?_some hfirst
  rw [incomingHash, hfirst]
  exact hagree first (List.mem_of_find?_eq_some hfirst) event hevent hledger

theorem ChainInv.begin (h : ChainInv s) {body : Json} {events : List ContractEventRecord}
    (haccept : validateBatch parseDate body = .ok events) (hself : Agree events events)
    (hothers : ∀ j, Agree events (s.calls j).events) :
    ChainInv (s.put i s.store state (.checking events (ledgersInBatch events))) := by
  have hcall : CallInv s.store (.checking events (ledgersInBatch events)) := by
    refine ⟨validateBatch_ledgerHash_ne haccept, ?_⟩
    intro event hevent hunchecked
    -- at the start no ledger of the batch is checked
    apply absurd _ hunchecked
    exact List.mem_eraseDups.mpr (List.mem_map_of_mem hevent)
  exact ChainInv.put h hothers hself h.stored h.hashed hcall h.calls

variable {remaining : List ℕ} {ledger : ℕ}

theorem ChainInv.check (h : ChainInv s) {events : List ContractEventRecord}
    (hphase : s.calls i = .checking events (ledger :: remaining))
    (hhash : ∀ hash, s.store.getLedgerHash ledger = some hash → hash = incomingHash events ledger) :
    ChainInv (s.put i s.store state (.checking events remaining)) := by
  obtain ⟨hcall, hself, _⟩ := h.ofPhase hphase
  apply h.advance hphase (by rfl) (List.Subset.refl _)
  intro event hevent hunchecked record hrecord
  by_cases hledger : event.ledger = ledger
  · intro hsame
    have hfound : s.store.getLedgerHash ledger ≠ none := fun hnone =>
      InMemoryContractEventStore.getLedgerHash_eq_none.mp hnone record hrecord
        (hsame.trans hledger)
    obtain ⟨hash, hgot⟩ := Option.ne_none_iff_exists'.mp hfound
    obtain ⟨first, hfirst, hat, hcarried⟩ :=
      InMemoryContractEventStore.exists_of_getLedgerHash hgot
    calc record.ledgerHash
        = first.ledgerHash := h.stored record hrecord first hfirst (by rw [hsame, hledger, hat])
      _ = hash := hcarried
      _ = incomingHash events event.ledger := by rw [hledger]; exact hhash hash hgot
      _ = event.ledgerHash := incomingHash_eq hself hevent
  · exact hcall.checked event hevent
      (List.not_mem_cons_of_ne_of_not_mem hledger hunchecked) record hrecord

theorem ChainInv.flag (h : ChainInv s) {events : List ContractEventRecord}
    (hphase : s.calls i = .checking events (ledger :: remaining)) :
    ChainInv (s.put i s.store state (.rollingBack events ledger remaining)) :=
  h.advance hphase rfl (List.Subset.refl _) (h.ofPhase hphase).1.checked

theorem ChainInv.rollback (h : ChainInv s) {events : List ContractEventRecord}
    (hphase : s.calls i = .rollingBack events ledger remaining) :
    ChainInv (s.put i (s.store.rollbackBeforeLedger ledger) state
      (.checking events remaining)) := by
  apply h.advance hphase (by rfl)
  · exact fun record hr => (InMemoryContractEventStore.mem_rollbackBeforeLedger.mp hr).1
  · intro event hevent hunchecked record hrecord
    obtain ⟨hold, hbelow⟩ := InMemoryContractEventStore.mem_rollbackBeforeLedger.mp hrecord
    by_cases hledger : event.ledger = ledger
    · intro hsame
      exact absurd (hsame.trans hledger) (Nat.ne_of_lt hbelow)
    · exact (h.ofPhase hphase).1.checked event hevent
        (List.not_mem_cons_of_ne_of_not_mem hledger hunchecked) record hold

theorem ChainInv.insert (h : ChainInv s) {events written : List ContractEventRecord} (now : ℤ)
    (hphase : s.calls i = .checking events []) (hwritten : written ⊆ events) :
    ChainInv (s.put i (s.store.insertMany now written).1 state .idle) := by
  obtain ⟨hcall, hself, hagree⟩ := h.ofPhase hphase
  have hchecked : ∀ event ∈ written, ∀ record ∈ s.store.records,
      SameVersion record.toContractEventRecord event :=
    fun event hevent => hcall.checked event (hwritten hevent) List.not_mem_nil
  apply h.put (fun _ _ ha => absurd ha List.not_mem_nil) fun _ ha => absurd ha List.not_mem_nil
  · intro a ha b hb
    rcases InMemoryContractEventStore.mem_insertMany ha with hold | hnew
    · rcases InMemoryContractEventStore.mem_insertMany hb with hold' | hnew'
      · exact h.stored a hold b hold'
      · exact hchecked _ hnew' a hold
    · rcases InMemoryContractEventStore.mem_insertMany hb with hold' | hnew'
      · exact (hchecked _ hnew b hold').symm
      · exact hself _ (hwritten hnew) _ (hwritten hnew')
  · intro record hr
    rcases InMemoryContractEventStore.mem_insertMany hr with hold | hnew
    · exact h.hashed record hold
    · exact hcall.hashed record.toContractEventRecord (hwritten hnew)
  · exact CallInv.idle _
  · -- what the other calls have checked keeps its version: the batches agree
    intro j
    refine ⟨(h.calls j).hashed, ?_⟩
    intro event hevent hunchecked record hr
    rcases InMemoryContractEventStore.mem_insertMany hr with hold | hnew
    · exact (h.calls j).checked event hevent hunchecked record hold
    · exact hagree j _ (hwritten hnew) event hevent

theorem ChainInv.step {s' : IngestSystem ι} {label : IngestLabel ι} (h : ChainInv s)
    (hallowed : DeliversOneVersion parseDate s label)
    (hstep : ingestStep parseDate s label = some s') : ChainInv s' := by
  cases label with
  | begin i =>
    simp only [ingestStep] at hstep
    split at hstep
    · split at hstep
      · rename_i events houtcome
        cases hstep
        have haccept := startIngest_eq_ok houtcome
        obtain ⟨hself, hothers⟩ := hallowed events haccept
        exact h.begin haccept hself hothers
      · cases hstep
        exact h.finish i _
    · cases hstep
  | check =>
    simp only [ingestStep] at hstep
    split at hstep
    · rename_i events ledger remaining hphase
      split at hstep
      · rename_i existing hgot
        split_ifs at hstep with hdiffers
        · cases hstep
          exact h.flag hphase
        · cases hstep
          apply h.check hphase
          intro hash hhash
          have heq : existing = hash := Option.some_inj.mp (hgot.symm.trans hhash)
          obtain ⟨first, hfirst, _, hcarried⟩ :=
            InMemoryContractEventStore.exists_of_getLedgerHash hgot
          have hnonempty : existing ≠ "" := hcarried ▸ h.hashed first hfirst
          rw [← heq]
          exact not_not.mp fun hne => hdiffers ⟨hnonempty, hne⟩
      · rename_i hnone
        cases hstep
        apply h.check hphase
        intro hash hhash
        rw [hnone] at hhash
        cases hhash
    · cases hstep
  | rollback =>
    simp only [ingestStep] at hstep
    split at hstep
    · rename_i events ledger remaining hphase
      cases hstep
      exact h.rollback hphase
    · cases hstep
  | insert _ now =>
    simp only [ingestStep] at hstep
    split at hstep
    · rename_i events hphase
      cases hstep
      exact h.insert now hphase (List.Subset.refl _)
    · cases hstep
  | insertFails _ now rows =>
    simp only [ingestStep] at hstep
    split at hstep
    · rename_i events hphase
      cases hstep
      exact h.insert now hphase (List.take_subset rows events)
    · cases hstep
  | abort i =>
    cases hstep
    exact h.finish i _
  | setDependencyState =>
    cases hstep
    exact ⟨h.stored, h.hashed, h.calls, h.agree⟩

omit [DecidableEq ι] in
theorem ChainInv.initial : ChainInv (IngestSystem.initial : IngestSystem ι) where
  stored _ ha := absurd ha List.not_mem_nil
  hashed _ hr := absurd hr List.not_mem_nil
  calls _ := CallInv.idle _
  agree _ _ _ ha := absurd ha List.not_mem_nil

/-! ## All runs -/

/-- In every run in which the batches that begin have one version of every ledger, the
store has one version of every ledger in every state. -/
theorem single_chain {s : IngestSystem ι}
    (hrun : Reaches (ingestStep parseDate) (DeliversOneVersion parseDate) .initial s) :
    SingleChain s.store :=
  (Reaches.invariant (fun _ _ _ h hallowed hstep => h.step hallowed hstep)
    ChainInv.initial hrun).stored

end

/-! ## Runs that fork and runs that do not -/

/-- `Date.parse` on the one time the examples use. -/
def parseEpoch (text : String) : Option ℤ :=
  if text = "1970-01-01T00:00:00.000Z" then some 0 else none

/-- An event of ledger 7 as the chain worker sends it. -/
def ledgerSevenEvent (eventId ledgerHash : String) : Json :=
  .object
    [("eventId", .string eventId), ("ledger", .number 7), ("contractId", .string "C"),
     ("topic", .string "stream.created"), ("txHash", .string "t"), ("txIndex", .number 0),
     ("operationIndex", .number 0), ("eventIndex", .number 0), ("payload", .object []),
     ("happenedAt", .string "1970-01-01T00:00:00.000Z"), ("ledgerHash", .string ledgerHash)]

def batchBody (events : List Json) : Json := .object [("events", .array events)]

/-- The record of such an event. -/
def ledgerSevenRecord (eventId ledgerHash : String) : ContractEventRecord :=
  ⟨eventId, 7, "C", "stream.created", "t", 0, 0, 0, [], 0, ledgerHash⟩

/-- A batch with two versions of ledger 7 passes the validation and is stored. -/
theorem single_chain_fails :
    ¬ ∀ s : IngestSystem Unit,
      Reaches (ingestStep parseEpoch) (fun _ _ => True) .initial s →
        SingleChain s.store := by
  intro hclaim
  have hrun := Reaches.of_run (fun _ _ _ => trivial)
    (show run (ingestStep parseEpoch) .initial
      [.begin () (batchBody [ledgerSevenEvent "a" "aa", ledgerSevenEvent "b" "bb"]) "worker" 0,
       .check (), .insert () 0] = some _ from rfl)
  have hsame := hclaim _ hrun ⟨ledgerSevenRecord "a" "aa", 0⟩ (List.Mem.head _)
    ⟨ledgerSevenRecord "b" "bb", 0⟩ (List.Mem.tail _ (List.Mem.head _)) rfl
  exact absurd hsame (by decide)

/-- A second version that begins when the first is stored replaces it. -/
theorem single_chain_reorg :
    ∃ s : IngestSystem Unit,
      Reaches (ingestStep parseEpoch) (DeliversOneVersion parseEpoch) .initial s ∧
      s.store.records.map (fun r => (r.eventId, r.ledgerHash)) = [("b", "bb")] ∧
      SingleChain s.store := by
  have hone : ∀ (s : IngestSystem Unit) (eventId hash : String), s.calls () = .idle →
      validateBatch parseEpoch (batchBody [ledgerSevenEvent eventId hash]) =
        .ok [ledgerSevenRecord eventId hash] →
      DeliversOneVersion parseEpoch s
        (.begin () (batchBody [ledgerSevenEvent eventId hash]) "worker" 0) := by
    intro s eventId hash hidle hvalid events haccept
    rw [hvalid] at haccept
    cases haccept
    apply And.intro
    · simp [Agree, SameVersion]
    · intro j
      rw [show s.calls j = .idle from hidle]
      simp [Agree, IngestPhase.events]
  have hquiet : ∀ (s : IngestSystem Unit) label, label ∈ [.check (), .rollback (), .insert () 0] →
      DeliversOneVersion parseEpoch s label := by
    intro s label hmem
    simp only [List.mem_cons, List.not_mem_nil, or_false] at hmem
    rcases hmem with hlabel | hlabel | hlabel
    all_goals
      rw [hlabel]
      exact trivial
  have hshort : ([.check (), .insert () 0] : List (IngestLabel Unit)) ⊆
      [.check (), .rollback (), .insert () 0] := by simp
  have hfirst := ((Reaches.refl IngestSystem.initial).tail (hone _ "a" "aa" rfl rfl) rfl).trans
    (Reaches.of_run (fun s label hl => hquiet s label (hshort hl))
      (show run (ingestStep parseEpoch) _ [.check (), .insert () 0] = some _ from rfl))
  have hrun := (hfirst.tail (hone _ "b" "bb" rfl rfl) rfl).trans
    (Reaches.of_run hquiet (show run (ingestStep parseEpoch) _ _ = some _ from rfl))
  exact ⟨_, hrun, rfl, single_chain hrun⟩

end Fluxora.Indexer
