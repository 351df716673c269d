/-
# Counting failures

A failure is counted by reading the record and writing it with one failure more. When another
operation writes in between, one of the two failures is lost. The breaker has counted all
failures exactly when every operation still finds what it has read when it writes.
-/

import Fluxora.Lib.Split
import Fluxora.Webhooks.BreakerCalls

namespace Fluxora.Webhooks

open Lib.TtlTable Lib.Transition Lib.Split

/-! ## Runs of failures -/

def BreakerRequest.isFailure : BreakerRequest → Bool
  | failure _ _ => true
  | _ => false

/-- The record is written next. -/
def BreakerProgress.isWriting : BreakerProgress → Bool
  | writing _ => true
  | _ => false

section

variable (key : String) (threshold : ℕ)

/-- All that happens to a breaker are failures, under a threshold, and its record does not expire
before it is read. -/
def OnlyFails (w : BreakerWorld) : BreakerStep → Prop
  | .start key' policy request =>
    key' = key → policy.threshold = threshold ∧ request.isFailure = true
  | .proceed i => ∀ call ∈ w.calls[i]?, call.key = key → call.progress = .reading →
      ∀ entry ∈ w.states key, w.clock ≤ entry.expireAt
  | .tick _ => True

/-- An operation writes the record after the one it has read. -/
def WritesNext (w : BreakerWorld) : BreakerStep → Prop
  | .proceed i => ∀ call ∈ w.calls[i]?, call.key = key → call.progress.isWriting = true →
      call.seen = w.writes key
  | _ => True

instance (w : BreakerWorld) : DecidablePred (OnlyFails key threshold w)
  | .start key' policy request => inferInstanceAs (Decidable
      (key' = key → policy.threshold = threshold ∧ request.isFailure = true))
  | .proceed i => inferInstanceAs (Decidable (∀ call ∈ w.calls[i]?, call.key = key →
      call.progress = .reading → ∀ entry ∈ w.states key, w.clock ≤ entry.expireAt))
  | .tick _ => .isTrue trivial

instance (w : BreakerWorld) : DecidablePred (WritesNext key w)
  | .start _ _ _ => .isTrue trivial
  | .proceed i => inferInstanceAs (Decidable (∀ call ∈ w.calls[i]?, call.key = key →
      call.progress.isWriting = true → call.seen = w.writes key))
  | .tick _ => .isTrue trivial

/-- The last record of a breaker. -/
def BreakerWorld.lastRecord (w : BreakerWorld) : WebhookCircuitBreakerRecord :=
  ((w.states key).map Entry.value).getD closedRecord

/-- The operations on a breaker. -/
def BreakerWorld.callsOn (w : BreakerWorld) : List BreakerCall :=
  w.calls.filter (·.key = key)

/-- The operation has been carried out. -/
def BreakerCall.isDone (call : BreakerCall) : Bool :=
  match call.progress with
  | .checked _ | .recorded _ => true
  | _ => false

/-- The record has been written. -/
def BreakerProgress.hasWritten : BreakerProgress → Bool
  | releasing _ | recorded _ => true
  | _ => false

/-- All operations on the breaker have been counted, and its circuit is open when their number
has reached the threshold. -/
def CountsAll (w : BreakerWorld) : Prop :=
  (w.lastRecord key).consecutiveFailures = (w.callsOn key).length ∧
    ((w.lastRecord key).state = .opened ↔ threshold ≤ (w.callsOn key).length)

/-! ## What the operations do -/

/-- The circuit is open from the threshold on. -/
def OpenFrom (record : WebhookCircuitBreakerRecord) : Prop :=
  record.state ≠ .halfOpen ∧ (record.state = .opened ↔ threshold ≤ record.consecutiveFailures)

/-- What holds of an operation on the breaker: a count that it is going to write is at most one
more than the writes it has seen, and one more than the count that is there if nobody has written
since. -/
def SoundCall (w : BreakerWorld) (call : BreakerCall) : Prop :=
  call.policy.threshold = threshold ∧ (∃ now of, call.request = .failure now of) ∧
    match call.progress with
    | .reading => True
    | .writing next => OpenFrom threshold next ∧ call.seen ≤ w.writes key ∧
        next.consecutiveFailures ≤ call.seen + 1 ∧ (call.seen = w.writes key →
          next.consecutiveFailures = (w.lastRecord key).consecutiveFailures + 1)
    | .releasing _ | .recorded _ => True
    | _ => False

/-- A run in which `all` tells whether every operation has written the record after the one it
had read. -/
structure Counting (w : BreakerWorld) (all : Prop) : Prop where
  openFrom : OpenFrom threshold (w.lastRecord key)
  le_writes : (w.lastRecord key).consecutiveFailures ≤ w.writes key
  eq_iff : (w.lastRecord key).consecutiveFailures = w.writes key ↔ all
  calls : ∀ call ∈ w.calls, call.key = key → SoundCall key threshold w call
  written : w.writes key = w.calls.countP fun call => call.key = key && call.progress.hasWritten

end

section

variable {key : String} {threshold : ℕ} {w w' : BreakerWorld} {all : Prop} {i : ℕ}

theorem exists_of_isFailure {request : BreakerRequest} (h : request.isFailure = true) :
    ∃ now of, request = .failure now of := by
  cases request with
  | failure now of => exact ⟨now, of, rfl⟩
  | _ => cases h

theorem openFrom_closedRecord (hthreshold : threshold ≠ 0) : OpenFrom threshold closedRecord :=
  ⟨nofun, nofun, fun h => absurd (Nat.le_zero.mp h) hthreshold⟩

theorem Counting.init (key : String) (hthreshold : threshold ≠ 0) :
    Counting key threshold {} True where
  openFrom := openFrom_closedRecord hthreshold
  le_writes := Nat.le_refl 0
  eq_iff := ⟨fun _ => trivial, fun _ => rfl⟩
  calls := fun _ hcall => absurd hcall List.not_mem_nil
  written := rfl

theorem failureRecord_openFrom {policy : CircuitBreakerPolicy} (now : ℤ)
    {record : WebhookCircuitBreakerRecord} (hrecord : OpenFrom threshold record)
    (hpolicy : policy.threshold = threshold) :
    OpenFrom threshold (failureRecord policy now record) ∧
      (failureRecord policy now record).consecutiveFailures = record.consecutiveFailures + 1 := by
  rw [failureRecord, if_neg hrecord.1, hpolicy]
  by_cases hreached : threshold ≤ record.consecutiveFailures + 1
  · rw [if_pos hreached]
    exact ⟨⟨nofun, fun _ => hreached, fun _ => rfl⟩, rfl⟩
  · rw [if_neg hreached]
    exact ⟨⟨nofun, nofun, fun h => absurd h hreached⟩, rfl⟩

theorem Counting.of_same (h : Counting key threshold w all)
    (hrecord : w'.lastRecord key = w.lastRecord key) (hwrites : w'.writes key = w.writes key)
    (hcalls : w'.calls = w.calls) : Counting key threshold w' all where
  openFrom := hrecord ▸ h.openFrom
  le_writes := by rw [hrecord, hwrites]; exact h.le_writes
  eq_iff := by rw [hrecord, hwrites]; exact h.eq_iff
  calls := by
    intro call hcall hkey
    rw [hcalls] at hcall
    have hsound := h.calls call hcall hkey
    rw [SoundCall] at hsound ⊢
    rw [hrecord, hwrites]
    exact hsound
  written := by rw [hwrites, hcalls]; exact h.written

variable {call : BreakerCall}

theorem Counting.put (h : Counting key threshold w all) {call' : BreakerCall}
    (hcall : w.calls[i]? = some call) (hkey : call'.key = call.key)
    (hwritten : call.key = key → call'.progress.hasWritten = call.progress.hasWritten)
    (hsound : call'.key = key → SoundCall key threshold w call') :
    Counting key threshold (w.put i call') all := by
  obtain ⟨before, after, hsplit, rfl⟩ := exists_split hcall
  have hcalls : (w.put before.length call').calls = before ++ call' :: after := by
    rw [BreakerWorld.put_calls, hsplit, List.set_eq_modify, modify_split]
  refine ⟨h.openFrom, h.le_writes, h.eq_iff, ?_, ?_⟩
  · rw [hcalls]
    exact forall_split (fun other hother => h.calls other (hsplit ▸ hother)) hsound
  · have hold := h.written
    rw [hsplit] at hold
    have hsame : (call'.key = key && call'.progress.hasWritten) =
        (call.key = key && call.progress.hasWritten) := by
      rw [hkey]
      by_cases hon : call.key = key
      · rw [hwritten hon]
      · simp [hon]
    rw [hcalls]
    simp only [List.countP_append, List.countP_cons, hsame] at hold ⊢
    exact hold

theorem Counting.markReported (h : Counting key threshold w all) (i : ℕ) :
    Counting key threshold (w.markReported i) all := by
  cases hcall : w.calls[i]? with
  | none =>
    have hcalls : (w.markReported i).calls = w.calls :=
      List.modify_eq_self (List.getElem?_eq_none_iff.mp hcall)
    exact h.of_same rfl rfl hcalls
  | some call =>
    have hcalls : w.markReported i = w.put i { call with reported := true } := by
      rw [BreakerWorld.markReported, BreakerWorld.put]
      congr 1
      obtain ⟨before, after, hsplit, rfl⟩ := exists_split hcall
      rw [hsplit, modify_split, List.set_eq_modify, modify_split]
    rw [hcalls]
    exact h.put hcall rfl (fun _ => rfl)
      fun hkey => h.calls call (List.mem_of_getElem? hcall) hkey

theorem Counting.elsewhere (h : Counting key threshold w all) (hcall : w.calls[i]? = some call)
    (hkey : call.key ≠ key) (hproceeds : Proceeds w i call w') : Counting key threshold w' all := by
  have hput : ∀ {w₁ : BreakerWorld} {call' : BreakerCall}, call'.key = call.key →
      w₁.states key = w.states key → w₁.writes key = w.writes key → w₁.calls = w.calls →
        Counting key threshold (w₁.put i call') all := by
    intro w₁ call' hkey' hstates hwrites hcalls
    have hrecord : w₁.lastRecord key = w.lastRecord key := by
      rw [BreakerWorld.lastRecord, BreakerWorld.lastRecord, hstates]
    exact (h.of_same hrecord hwrites hcalls).put (hcalls ▸ hcall) hkey' (fun hon => absurd hon hkey)
      fun hon => absurd (hkey' ▸ hon) hkey
  have hwrite : ∀ record, (w.writeState call record).states key = w.states key ∧
      (w.writeState call record).writes key = w.writes key := fun record =>
    ⟨set_of_ne (Ne.symm hkey), Function.update_of_ne (Ne.symm hkey) _ _⟩
  cases hproceeds with
  | read | refused | locked => exact hput rfl rfl rfl rfl
  | opened | written => exact hput rfl (hwrite _).1 (hwrite _).2 rfl
  | released => exact hput rfl rfl rfl rfl
  | reported =>
    apply Counting.markReported
    exact hput rfl rfl rfl rfl

theorem Counting.read (h : Counting key threshold w all) (hcall : w.calls[i]? = some call)
    (hkey : call.key = key) (hreading : call.progress = .reading)
    (hlives : ∀ entry, w.states key = some entry → w.clock ≤ entry.expireAt) :
    Counting key threshold (w.put i { call with
      progress := w.decide call ((get w.states w.clock call.key).getD closedRecord)
      seen := w.writes call.key }) all := by
  have hrecord : (get w.states w.clock call.key).getD closedRecord = w.lastRecord key := by
    rw [hkey, BreakerWorld.lastRecord, Lib.TtlTable.get]
    cases hentry : w.states key with
    | none => rfl
    | some entry => rw [Option.filter_some, if_pos (decide_eq_true (hlives entry hentry))]
  obtain ⟨hpolicy, ⟨now, of, hrequest⟩, -⟩ := h.calls call (List.mem_of_getElem? hcall) hkey
  have hnext : w.decide call (w.lastRecord key) =
      .writing (failureRecord call.policy now (w.lastRecord key)) := by
    rw [BreakerWorld.decide, hrequest]
  obtain ⟨hopen, hcount⟩ := failureRecord_openFrom now h.openFrom hpolicy
  rw [hrecord, hnext, hkey]
  refine h.put hcall hkey.symm (fun _ => by rw [hreading]; rfl) fun _ => ?_
  refine ⟨hpolicy, ⟨now, of, hrequest⟩, hopen, Nat.le_refl _, ?_, fun _ => hcount⟩
  rw [hcount]
  exact Nat.succ_le_succ h.le_writes

variable {next : WebhookCircuitBreakerRecord}

theorem Counting.write (h : Counting key threshold w all) (hcall : w.calls[i]? = some call)
    (hkey : call.key = key) (hwriting : call.progress = .writing next) :
    Counting key threshold
      ((w.writeState call next).put i { call with progress := .releasing next })
      (all ∧ call.seen = w.writes key) := by
  obtain ⟨hpolicy, hrequest, hprogress⟩ := h.calls call (List.mem_of_getElem? hcall) hkey
  rw [hwriting] at hprogress
  obtain ⟨hopen, hseen, hcount, hfresh⟩ := hprogress
  obtain ⟨before, after, hsplit, rfl⟩ := exists_split hcall
  generalize hresult : (w.writeState call next).put before.length
    { call with progress := .releasing next } = w₁
  have hcalls : w₁.calls = before ++ { call with progress := .releasing next } :: after := by
    rw [← hresult, BreakerWorld.put_calls, BreakerWorld.writeState, hsplit, List.set_eq_modify,
      modify_split]
  have hrecord : w₁.lastRecord key = next := by
    have hstates : w₁.states key = some ⟨next, w.clock + call.policy.ttlMs⟩ := by
      rw [← hresult, ← hkey]
      exact set_self
    rw [BreakerWorld.lastRecord, hstates]
    rfl
  have hwrites : w₁.writes key = w.writes key + 1 := by
    rw [← hresult, BreakerWorld.put, BreakerWorld.writeState, hkey]
    exact Function.update_self _ _ _
  refine ⟨hrecord ▸ hopen, by rw [hrecord, hwrites]; omega, ?_, ?_, ?_⟩
  · rw [hrecord, hwrites]
    apply Iff.intro
    · intro hall
      have hlast : call.seen = w.writes key := by omega
      exact ⟨h.eq_iff.mp (by have := hfresh hlast; omega), hlast⟩
    · rintro ⟨hall, hlast⟩
      rw [hfresh hlast, h.eq_iff.mpr hall]
  · rw [hcalls]
    refine forall_split (a := call) (fun other hother hon => ?_) fun _ =>
      ⟨hpolicy, hrequest, trivial⟩
    -- what another operation has read is no longer there
    obtain ⟨hpolicy', hrequest', hprogress'⟩ := h.calls other (hsplit ▸ hother) hon
    refine ⟨hpolicy', hrequest', ?_⟩
    rw [hwrites]
    split at hprogress'
    · trivial
    · exact ⟨hprogress'.1, by omega, hprogress'.2.2.1, fun hsame => by omega⟩
    · trivial
    · trivial
    · exact hprogress'
  · have hold := h.written
    rw [hsplit] at hold
    rw [hcalls, hwrites, hold]
    simp only [List.countP_append, List.countP_cons, hkey, hwriting, BreakerProgress.hasWritten]
    simp
    omega

theorem Counting.release (h : Counting key threshold w all) (hcall : w.calls[i]? = some call)
    (hkey : call.key = key) (hreleasing : call.progress = .releasing next) :
    Counting key threshold (BreakerWorld.put { w with probes := del w.probes call.key } i
      { call with progress := .recorded next }) all := by
  obtain ⟨hpolicy, hrequest, -⟩ := h.calls call (List.mem_of_getElem? hcall) hkey
  exact Counting.put (w := { w with probes := del w.probes call.key }) (h.of_same rfl rfl rfl) hcall
    rfl (fun _ => by rw [hreleasing]; rfl) fun _ => ⟨hpolicy, hrequest, trivial⟩

theorem Counting.step {label : BreakerStep} (h : Counting key threshold w all)
    (hthreshold : threshold ≠ 0) (honly : OnlyFails key threshold w label)
    (hstep : w.step label = some w') :
    Counting key threshold w' (all ∧ WritesNext key w label) := by
  -- a label that writes nothing loses nothing
  have hsilent : WritesNext key w label → Counting key threshold w' all →
      Counting key threshold w' (all ∧ WritesNext key w label) := by
    intro hnext hcounting
    rwa [and_iff_left hnext]
  cases label with
  | start key' policy request =>
    refine hsilent trivial ?_
    rw [eq_of_start hstep]
    refine ⟨h.openFrom, h.le_writes, h.eq_iff, ?_, ?_⟩
    · intro call hcall hkey
      rcases List.mem_append.mp hcall with hold | hnew
      · exact h.calls call hold hkey
      · obtain rfl := List.mem_singleton.mp hnew
        obtain ⟨hpolicy, hfailure⟩ := honly hkey
        obtain ⟨now, of, rfl⟩ := exists_of_isFailure hfailure
        refine ⟨hpolicy, ⟨now, of, rfl⟩, ?_⟩
        rw [firstProgress, if_neg (hpolicy ▸ hthreshold)]
        trivial
    · have hnew : (key' = key && (firstProgress policy request).hasWritten) = false := by
        by_cases hkey : key' = key
        · obtain ⟨hpolicy, hfailure⟩ := honly hkey
          obtain ⟨now, of, rfl⟩ := exists_of_isFailure hfailure
          rw [firstProgress, if_neg (hpolicy ▸ hthreshold)]
          exact Bool.and_false _
        · rw [decide_eq_false hkey, Bool.false_and]
      rw [List.countP_append, ← h.written, List.countP_singleton, if_neg (by simp [hnew])]
      rfl
  | tick =>
    cases hstep
    exact hsilent trivial (h.of_same rfl rfl rfl)
  | proceed i =>
    obtain ⟨call, hcall, hproceeds⟩ := exists_of_proceed hstep
    by_cases hkey : call.key = key
    · have hnoWrite : call.progress.isWriting = false → WritesNext key w (.proceed i) := by
        intro hprogress other hother _ hwriting
        cases hcall.symm.trans hother
        rw [hprogress] at hwriting
        cases hwriting
      obtain ⟨-, ⟨now, of, hrequest⟩, hprogress⟩ :=
        h.calls call (List.mem_of_getElem? hcall) hkey
      cases hproceeds with
      | read hreading =>
        exact hsilent (hnoWrite (by rw [hreading]; rfl))
          (h.read hcall hkey hreading (honly call hcall hkey hreading))
      | refused hclaiming | locked hclaiming =>
        rw [hclaiming] at hprogress
        exact hprogress.elim
      | opened hopening =>
        rw [hopening] at hprogress
        exact hprogress.elim
      | written hwriting =>
        have hnext : WritesNext key w (.proceed i) ↔ call.seen = w.writes key := by
          apply Iff.intro
          · exact fun hnext => hnext call hcall hkey (by rw [hwriting]; rfl)
          · intro hlast other hother _ _
            cases hcall.symm.trans hother
            exact hlast
        rw [hnext]
        exact h.write hcall hkey hwriting
      | released hreleasing =>
        exact hsilent (hnoWrite (by rw [hreleasing]; rfl))
          (h.release hcall hkey hreleasing)
      | reported hreleasing =>
        exact hsilent (hnoWrite (by rw [hreleasing]; rfl))
          ((h.release hcall hkey hreleasing).markReported _)
    · refine hsilent ?_ (h.elsewhere hcall hkey hproceeds)
      intro other hother hon
      cases hcall.symm.trans hother
      exact absurd hon hkey

theorem Counting.run {labels : List BreakerStep} (h : Counting key threshold w all)
    (hthreshold : threshold ≠ 0) (hrun : run BreakerWorld.step w labels = some w')
    (honly : EveryStep BreakerWorld.step (fun w label _ => OnlyFails key threshold w label)
      w labels) :
    Counting key threshold w'
      (all ∧ EveryStep BreakerWorld.step (fun w label _ => WritesNext key w label) w labels) := by
  induction labels generalizing w all with
  | nil =>
    cases hrun
    rwa [and_iff_left (show EveryStep _ _ w' [] from trivial)]
  | cons _ _ ih =>
    obtain ⟨w₁, hstep, hrest⟩ := Option.bind_eq_some_iff.mp hrun
    obtain ⟨hfirst, honly'⟩ := (everyStep_cons hstep).mp honly
    rw [everyStep_cons hstep, ← and_assoc]
    exact ih (h.step hthreshold hfirst hstep) hrest honly'

/-! ## The rule -/

/-- When the operations on a breaker are done, all of them have been counted exactly if each has
written the record after the one it had read. -/
theorem countsAll_iff {labels : List BreakerStep} (hthreshold : threshold ≠ 0)
    (hrun : run BreakerWorld.step {} labels = some w)
    (honly : EveryStep BreakerWorld.step (fun w label _ => OnlyFails key threshold w label)
      {} labels)
    (hdone : ∀ call ∈ w.callsOn key, call.isDone = true) :
    CountsAll key threshold w ↔
      EveryStep BreakerWorld.step (fun w label _ => WritesNext key w label) {} labels := by
  have h := (Counting.init key hthreshold).run hthreshold hrun honly
  rw [true_and] at h
  have hall : w.writes key = (w.callsOn key).length := by
    rw [h.written, List.countP_eq_length_filter, BreakerWorld.callsOn]
    congr 1
    refine List.filter_congr fun call hcall => ?_
    by_cases hkey : call.key = key
    · have hcallDone := hdone call (List.mem_filter.mpr ⟨hcall, decide_eq_true hkey⟩)
      obtain ⟨-, -, hprogress⟩ := h.calls call hcall hkey
      cases hcase : call.progress <;> simp_all [BreakerCall.isDone, BreakerProgress.hasWritten]
    · rw [decide_eq_false hkey, Bool.false_and]
  rw [CountsAll, ← hall, ← h.eq_iff]
  refine and_iff_left_of_imp fun hcount => ?_
  rw [← hcount]
  exact h.openFrom.2

end

/-- Two failures one after the other open the circuit. -/
theorem twoFailures_counted : ∃ w, CountsAll "k" 2 w := by
  let policy : CircuitBreakerPolicy := ⟨some 2, none⟩
  let labels : List BreakerStep :=
    [.start "k" policy (.failure 0 none), .proceed 0, .proceed 0, .proceed 0,
      .start "k" policy (.failure 5 none), .proceed 1, .proceed 1, .proceed 1]
  obtain ⟨w, hw, hdone⟩ : ∃ w, runUnder BreakerWorld.step (OnlyFails "k" 2) {} labels = some w ∧
      ∀ call ∈ w.callsOn "k", call.isDone = true := ⟨_, rfl, by decide⟩
  obtain ⟨_, hnext⟩ : ∃ w, runUnder BreakerWorld.step (WritesNext "k") {} labels = some w :=
    ⟨_, rfl⟩
  exact ⟨w, (countsAll_iff (by decide) (run_of_runUnder hw) (EveryStep.of_runUnder hw) hdone).mpr
    (EveryStep.of_runUnder hnext)⟩

/-- The steps of two failures that both read the record before either writes it. -/
def overlappingFailures : List BreakerStep :=
  let policy : CircuitBreakerPolicy := ⟨some 2, none⟩
  [.start "k" policy (.failure 0 none), .start "k" policy (.failure 5 none), .proceed 0,
    .proceed 1, .proceed 0, .proceed 1, .proceed 0, .proceed 1]

/-- One of the two is lost, and the circuit stays closed. -/
theorem overlappingFailures_lost : ¬ ∀ (key : String) (threshold : ℕ) (labels : List BreakerStep)
    (w : BreakerWorld), threshold ≠ 0 → run BreakerWorld.step {} labels = some w →
      EveryStep BreakerWorld.step (fun w label _ => OnlyFails key threshold w label) {} labels →
        (∀ call ∈ w.callsOn key, call.isDone = true) → CountsAll key threshold w := by
  intro h
  obtain ⟨w, hw, hdone, hcount⟩ : ∃ w,
      runUnder BreakerWorld.step (OnlyFails "k" 2) {} overlappingFailures = some w ∧
        (∀ call ∈ w.callsOn "k", call.isDone = true) ∧
          (w.lastRecord "k").consecutiveFailures ≠ (w.callsOn "k").length :=
    ⟨_, rfl, by decide, by decide⟩
  exact hcount (h "k" 2 overlappingFailures w (by decide) (run_of_runUnder hw)
    (EveryStep.of_runUnder hw) hdone).1

end Fluxora.Webhooks
