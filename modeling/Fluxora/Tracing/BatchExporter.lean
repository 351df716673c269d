/-
# Draining the span exporter

Spans are queued and passed to the export handler in batches. One flush at a time takes batches
from the queue until it is empty, and waits for the handler in between; a flush that finds another
one under way returns at once, and so does what waits for it.
-/

import Fluxora.Lib.Transition
import Mathlib.Data.Int.Order.Basic
import Mathlib.Data.List.Nodup

namespace Fluxora.Tracing

open Lib.Transition

/-! ## The queue and the handler -/

/-- What a call of the handler does: it returns, it throws, or it returns a promise. -/
inductive Handling
  | returned
  | thrown
  | promise
  deriving DecidableEq

/-- Spans are numbered in the order in which they end. -/
structure BatchSpanExporterConfig where
  maxBatchSize : ℕ
  maxQueueSize : ℕ
  scheduledDelayMs : ℤ
  exportHandler : List ℕ → Handling

/-- The queue, the batch that a flush waits for, all spans that were passed to the handler, and
those of batches whose export has settled. -/
structure Exports where
  queue : List ℕ := []
  inFlight : Option (List ℕ) := none
  passed : List ℕ := []
  settled : List ℕ := []

structure BatchSpanExporter extends Exports where
  timer : Bool := false
  isShutdown : Bool := false
  ended : ℕ := 0
  enqueued : List ℕ := []
  /-- What had been enqueued before the call that waits for the flush under way. -/
  awaited : Option (List ℕ) := none
  /-- What had been enqueued before each call of `flush` or `shutdown` that has been resolved. -/
  resolved : List (List ℕ) := []

inductive ExporterLabel
  | onSpanEnd
  | timer
  | flush
  | shutdown
  /-- The promise of the batch in flight is fulfilled or rejected. -/
  | settles
  deriving DecidableEq

/-- The loop of a flush, as far as the next promise. -/
def Exports.drain (c : BatchSpanExporterConfig) : ℕ → Exports → Exports
  | 0, e => e
  | fuel + 1, e =>
    let batch := e.queue.take c.maxBatchSize
    if batch = [] then e
    else
      let e' := { e with queue := e.queue.drop c.maxBatchSize, passed := e.passed ++ batch }
      match c.exportHandler batch with
      | .promise => { e' with inFlight := some batch }
      | .returned | .thrown => Exports.drain c fuel { e' with settled := e'.settled ++ batch }

namespace BatchSpanExporter

variable (c : BatchSpanExporterConfig) (s : BatchSpanExporter)

def scheduleTimer : BatchSpanExporter :=
  if s.timer ∨ c.scheduledDelayMs ≤ 0 then s else { s with timer := true }

/-- The promise of the call is resolved. -/
def resolve (call : Option (List ℕ)) : BatchSpanExporter :=
  { s with resolved := call.toList ++ s.resolved }

/-- Go on with the loop of the flush, and end the flush unless it waits again. -/
def runFlush : BatchSpanExporter :=
  let s := { s with toExports := s.drain c s.queue.length }
  if s.inFlight.isSome then s
  else
    let s := { s with awaited := none }.resolve s.awaited
    if s.queue ≠ [] ∧ s.timer = false ∧ s.isShutdown = false then s.scheduleTimer c else s

/-- A flush, and the call that waits for it, if any. -/
def startFlush (call : Option (List ℕ)) : BatchSpanExporter :=
  let s := { s with timer := false }
  if s.inFlight.isSome ∨ s.queue = [] then s.resolve call
  else { s with awaited := call }.runFlush c

def directExport : BatchSpanExporter :=
  { s with passed := s.passed ++ [s.ended], ended := s.ended + 1 }

def onSpanEnd : BatchSpanExporter :=
  if s.isShutdown then s.directExport
  else if c.maxQueueSize ≤ s.queue.length then s.directExport
  else
    let s := { s with queue := s.queue ++ [s.ended], enqueued := s.enqueued ++ [s.ended],
                      ended := s.ended + 1 }
    if c.maxBatchSize ≤ s.queue.length then s.startFlush c none
    else if !s.timer then s.scheduleTimer c
    else s

def step : ExporterLabel → Option BatchSpanExporter
  | .onSpanEnd => some (s.onSpanEnd c)
  | .timer => if s.timer then some (s.startFlush c none) else none
  | .flush => some (s.startFlush c (some s.enqueued))
  | .shutdown =>
    some (if s.isShutdown then s.resolve (some s.enqueued)
      else { s with isShutdown := true }.startFlush c (some s.enqueued))
  | .settles => s.inFlight.map fun batch =>
    { s with inFlight := none, settled := s.settled ++ batch }.runFlush c

/-! ## The promises -/

/-- A resolved call finds the export of what was enqueued before it settled. -/
def Drained : Prop := ∀ spans ∈ s.resolved, spans ⊆ s.settled

structure Sound : Prop where
  drained : s.Drained
  /-- Each span waits in the queue, or it was passed once. -/
  once : (s.queue ++ s.passed).Perm (List.range s.ended)
  bounded : s.queue.length ≤ c.maxQueueSize

/-- A call of `flush` or `shutdown` finds no flush under way, and takes what waits. -/
def FindsIdle : ExporterLabel → Prop
  | .flush | .shutdown => s.inFlight = none ∧ (s.queue = [] ∨ 0 < c.maxBatchSize)
  | _ => True

end BatchSpanExporter

/-- What is queued, in flight or settled was enqueued, and what was passed is not queued. -/
structure Exports.Kept (c : BatchSpanExporterConfig) (enqueued : List ℕ) (ended : ℕ) (e : Exports) :
    Prop where
  once : (e.queue ++ e.passed).Perm (List.range ended)
  enqueued : (e.queue ++ (e.inFlight.getD [] ++ e.settled)).Perm enqueued
  nonempty : e.inFlight ≠ some []
  size : 0 < c.maxBatchSize ∨ e.inFlight = none

variable {c : BatchSpanExporterConfig}

theorem Exports.Kept.drain_spec {enqueued : List ℕ} {ended : ℕ} {e : Exports}
    (h : e.Kept c enqueued ended) (fuel : ℕ) (hidle : e.inFlight = none) :
    (e.drain c fuel).Kept c enqueued ended ∧ e.settled ⊆ (e.drain c fuel).settled ∧
      (e.drain c fuel).queue.length ≤ e.queue.length ∧
        (e.queue.length ≤ fuel → 0 < c.maxBatchSize → (e.drain c fuel).inFlight = none →
          (e.drain c fuel).queue = []) := by
  induction fuel generalizing e with
  | zero =>
    refine ⟨h, List.Subset.refl _, Nat.le_refl _, fun hle _ _ => ?_⟩
    exact List.length_eq_zero_iff.mp (Nat.le_zero.mp hle)
  | succ fuel ih =>
    rw [Exports.drain]
    split_ifs with hbatch
    · refine ⟨h, List.Subset.refl _, Nat.le_refl _, fun _ hpos _ => ?_⟩
      exact (List.take_eq_nil_iff.mp hbatch).resolve_left (Nat.ne_of_gt hpos)
    · have hpos : 0 < c.maxBatchSize :=
        Nat.pos_of_ne_zero fun hzero => hbatch (List.take_eq_nil_iff.mpr (.inl hzero))
      have hsplit := List.take_append_drop c.maxBatchSize e.queue
      have honce := h.once
      have henqueued := h.enqueued
      rw [hidle, Option.getD_none, List.nil_append] at henqueued
      rw [← hsplit] at honce henqueued
      have hshorter : (e.queue.drop c.maxBatchSize).length < e.queue.length := by
        have hne : e.queue ≠ [] := fun hnil => hbatch (by rw [hnil, List.take_nil])
        have hlength := List.length_pos_iff.mpr hne
        rw [List.length_drop]
        omega
      generalize e.queue.take c.maxBatchSize = batch at hbatch honce henqueued
      generalize e.queue.drop c.maxBatchSize = rest at honce henqueued hshorter
      have hmove : ∀ other : List ℕ, (rest ++ (other ++ batch)).Perm (batch ++ rest ++ other) := by
        intro other
        rw [← List.append_assoc, List.append_assoc batch]
        exact List.perm_append_comm
      cases c.exportHandler batch with
      | promise =>
        refine ⟨⟨(hmove e.passed).trans honce, ?_, ?_, .inl hpos⟩, List.Subset.refl _,
          Nat.le_of_lt hshorter, fun _ _ hwaits => by cases hwaits⟩
        · rw [Option.getD_some, ← List.append_assoc]
          exact (List.perm_append_comm.append_right _).trans henqueued
        · exact fun hempty => hbatch (Option.some.inj hempty)
      | returned | thrown =>
        have hnext : Exports.Kept c enqueued ended
            ⟨rest, e.inFlight, e.passed ++ batch, e.settled ++ batch⟩ := by
          refine ⟨(hmove e.passed).trans honce, ?_, h.nonempty, .inl hpos⟩
          rw [hidle]
          exact (hmove e.settled).trans henqueued
        obtain ⟨hkept, hsettled, hle, hempty⟩ := ih hnext hidle
        refine ⟨hkept, fun _ hmem => hsettled (List.mem_append_left _ hmem),
          Nat.le_trans hle (Nat.le_of_lt hshorter), fun hfuel => hempty ?_⟩
        exact Nat.le_of_lt_succ (Nat.lt_of_lt_of_le hshorter hfuel)

namespace BatchSpanExporter

variable {s s' : BatchSpanExporter}

structure Consistent (c : BatchSpanExporterConfig) (s : BatchSpanExporter) : Prop where
  kept : s.toExports.Kept c s.enqueued s.ended
  numbered : s.enqueued.Sublist (List.range s.ended)
  bounded : s.queue.length ≤ c.maxQueueSize
  awaited : ∀ spans ∈ s.awaited, spans ⊆ s.enqueued
  idle : s.inFlight = none → s.awaited = none

structure Inv (c : BatchSpanExporterConfig) (s : BatchSpanExporter) : Prop
    extends s.Consistent c where
  closed : s.isShutdown = true → s.inFlight = none → 0 < c.maxBatchSize → s.queue = []

theorem Inv.sound (h : s.Inv c) (hdrained : s.Drained) : s.Sound c :=
  ⟨hdrained, h.kept.once, h.bounded⟩

theorem Inv.scheduleTimer (h : s.Inv c) : (s.scheduleTimer c).Inv c := by
  rw [BatchSpanExporter.scheduleTimer]
  split_ifs
  · exact h
  · exact ⟨⟨h.kept, h.numbered, h.bounded, h.awaited, h.idle⟩, h.closed⟩

theorem Drained.scheduleTimer (h : s.Drained) : (s.scheduleTimer c).Drained := by
  rw [BatchSpanExporter.scheduleTimer]
  split_ifs <;> exact h

theorem Consistent.not_settled (h : s.Consistent c)
    (hwaits : ¬ (s.inFlight = none ∧ s.queue = [])) : ¬ s.enqueued ⊆ s.settled := by
  intro hsub
  have hperm := h.kept.enqueued
  have hnodup : (s.queue ++ (s.inFlight.getD [] ++ s.settled)).Nodup :=
    hperm.nodup_iff.mpr (h.numbered.nodup List.nodup_range)
  rw [← List.append_assoc] at hperm hnodup
  have hne : s.queue ++ s.inFlight.getD [] ≠ [] := by
    intro hnil
    obtain ⟨hqueue, hbatch⟩ := List.append_eq_nil_iff.mp hnil
    cases hflight : s.inFlight with
    | none => exact hwaits ⟨hflight, hqueue⟩
    | some batch =>
      rw [hflight, Option.getD_some] at hbatch
      exact h.kept.nonempty (hbatch ▸ hflight)
  obtain ⟨span, hspan⟩ := List.exists_mem_of_ne_nil _ hne
  have hsettled := hsub (hperm.subset (List.mem_append_left _ hspan))
  exact (List.nodup_append.mp hnodup).2.2 span hspan span hsettled rfl

theorem Consistent.settled (h : s.Consistent c) (hidle : s.inFlight = none)
    (hempty : s.queue = []) : s.enqueued ⊆ s.settled := by
  have hperm := h.kept.enqueued
  rw [hidle, hempty] at hperm
  exact hperm.symm.subset

theorem runFlush_spec (hkept : s.toExports.Kept c s.enqueued s.ended)
    (hnumbered : s.enqueued.Sublist (List.range s.ended))
    (hbounded : s.queue.length ≤ c.maxQueueSize) (hidle : s.inFlight = none)
    (hawaited : ∀ spans ∈ s.awaited, spans ⊆ s.enqueued ∧ 0 < c.maxBatchSize) :
    (s.runFlush c).Inv c ∧ (s.Drained → (s.runFlush c).Drained) := by
  obtain ⟨hkept', hsettled, hle, hempty⟩ := hkept.drain_spec s.queue.length hidle
  rw [runFlush]
  generalize s.drain c s.queue.length = e at hkept' hsettled hle hempty
  dsimp only
  cases hflight : e.inFlight with
  | some batch =>
    rw [if_pos Option.isSome_some]
    refine ⟨⟨⟨hkept', hnumbered, Nat.le_trans hle hbounded,
      fun spans hcall => (hawaited spans hcall).1, fun hnone => ?_⟩, fun _ hnone => ?_⟩,
      fun hdrained spans hmem => ?_⟩
    · cases hflight.symm.trans hnone
    · cases hflight.symm.trans hnone
    · exact List.Subset.trans (hdrained spans hmem) hsettled
  | none =>
    rw [if_neg (by simp)]
    have hended : ({ s with toExports := e, awaited := none }.resolve s.awaited).Inv c :=
      ⟨⟨hkept', hnumbered, Nat.le_trans hle hbounded, by simp [resolve], fun _ => rfl⟩,
        fun _ _ hpos => hempty (Nat.le_refl _) hpos hflight⟩
    have hdrained : s.Drained →
        ({ s with toExports := e, awaited := none }.resolve s.awaited).Drained := by
      intro hdrained spans hmem
      rcases List.mem_append.mp hmem with hcall | hold
      · obtain ⟨hsub, hpos⟩ := hawaited spans (Option.mem_toList.mp hcall)
        exact List.Subset.trans hsub
          (hended.settled hflight (hempty (Nat.le_refl _) hpos hflight))
      · exact List.Subset.trans (hdrained spans hold) hsettled
    split_ifs
    · exact ⟨hended.scheduleTimer, fun h => (hdrained h).scheduleTimer⟩
    · exact ⟨hended, hdrained⟩

theorem startFlush_spec (h : s.Consistent c) (call : Option (List ℕ))
    (hcall : ∀ spans ∈ call, spans ⊆ s.enqueued ∧ s.inFlight = none ∧
      (s.queue = [] ∨ 0 < c.maxBatchSize)) :
    (s.startFlush c call).Inv c ∧ (s.Drained → (s.startFlush c call).Drained) := by
  rw [startFlush]
  dsimp only
  split_ifs with hreturns
  · refine ⟨⟨⟨h.kept, h.numbered, h.bounded, h.awaited, h.idle⟩, fun _ hnone _ => ?_⟩,
      fun hdrained spans hmem => ?_⟩
    · have hidle : s.inFlight = none := hnone
      exact hreturns.resolve_left (by simp [hidle])
    rcases List.mem_append.mp hmem with hnew | hold
    · obtain ⟨hsub, hidle, -⟩ := hcall spans (Option.mem_toList.mp hnew)
      have hempty : s.queue = [] := hreturns.resolve_left (by simp [hidle])
      exact List.Subset.trans hsub (h.settled hidle hempty)
    · exact hdrained spans hold
  · obtain ⟨hflight, hqueue⟩ := not_or.mp hreturns
    have hidle : s.inFlight = none := by simpa using hflight
    exact runFlush_spec h.kept h.numbered h.bounded hidle fun spans hmem =>
      ⟨(hcall spans hmem).1, (hcall spans hmem).2.2.resolve_left hqueue⟩

theorem Inv.onSpanEnd (h : s.Inv c) :
    (s.onSpanEnd c).Inv c ∧ (s.Drained → (s.onSpanEnd c).Drained) := by
  have hdirect : s.directExport.Inv c := by
    refine ⟨⟨⟨?_, h.kept.enqueued, h.kept.nonempty, h.kept.size⟩, ?_, h.bounded, h.awaited,
      h.idle⟩, h.closed⟩
    · dsimp only [directExport]
      rw [List.range_succ, ← List.append_assoc]
      exact h.kept.once.append_right _
    · dsimp only [directExport]
      rw [List.range_succ]
      exact h.numbered.trans (List.sublist_append_left _ _)
  rw [BatchSpanExporter.onSpanEnd]
  split_ifs with hshut hfull
  · exact ⟨hdirect, id⟩
  · exact ⟨hdirect, id⟩
  · dsimp only
    have hpush : ({ s with queue := s.queue ++ [s.ended], enqueued := s.enqueued ++ [s.ended],
                           ended := s.ended + 1 } : BatchSpanExporter).Inv c := by
      have hmove : ∀ (others : List ℕ),
          (s.queue ++ [s.ended] ++ others).Perm (s.queue ++ others ++ [s.ended]) := by
        intro others
        rw [List.append_assoc, List.append_assoc]
        exact List.perm_append_comm.append_left _
      refine ⟨⟨⟨?_, ?_, h.kept.nonempty, h.kept.size⟩, ?_, ?_, fun spans hmem => ?_, h.idle⟩,
        fun hclosed => absurd hclosed hshut⟩
      · dsimp only
        rw [List.range_succ]
        exact (hmove _).trans (h.kept.once.append_right _)
      · exact (hmove _).trans (h.kept.enqueued.append_right _)
      · dsimp only
        rw [List.range_succ]
        exact h.numbered.append_right _
      · dsimp only
        rw [List.length_append, List.length_singleton]
        omega
      · exact List.Subset.trans (h.awaited spans hmem) (List.subset_append_left _ _)
    split_ifs
    · exact startFlush_spec hpush.toConsistent none (by simp)
    · exact ⟨hpush.scheduleTimer, fun h => Drained.scheduleTimer h⟩
    · exact ⟨hpush, id⟩

theorem Inv.step (h : s.Inv c) (hdrained : s.Drained) {label : ExporterLabel}
    (hidle : s.FindsIdle c label) (hstep : s.step c label = some s') : s'.Inv c ∧ s'.Drained := by
  cases label with
  | onSpanEnd =>
    cases hstep
    exact ⟨h.onSpanEnd.1, h.onSpanEnd.2 hdrained⟩
  | timer =>
    obtain ⟨-, ⟨⟩⟩ := Option.ite_none_right_eq_some.mp hstep
    have hspec := startFlush_spec h.toConsistent none (by simp)
    exact ⟨hspec.1, hspec.2 hdrained⟩
  | flush =>
    cases hstep
    obtain ⟨hflight, hqueue⟩ := hidle
    have hspec := startFlush_spec h.toConsistent (some s.enqueued) (by simp [hflight, hqueue])
    exact ⟨hspec.1, hspec.2 hdrained⟩
  | shutdown =>
    cases hstep
    obtain ⟨hflight, hqueue⟩ := hidle
    split_ifs with hshut
    · have hempty : s.queue = [] := hqueue.elim id (h.closed hshut hflight)
      refine ⟨⟨⟨h.kept, h.numbered, h.bounded, h.awaited, h.idle⟩, h.closed⟩, ?_⟩
      exact List.forall_mem_cons.mpr ⟨h.settled hflight hempty, hdrained⟩
    · have hshutdown : ({ s with isShutdown := true } : BatchSpanExporter).Consistent c :=
        ⟨h.kept, h.numbered, h.bounded, h.awaited, h.idle⟩
      have hspec := startFlush_spec hshutdown (some s.enqueued) (by simp [hflight, hqueue])
      exact ⟨hspec.1, hspec.2 hdrained⟩
  | settles =>
    obtain ⟨batch, hflight, rfl⟩ := Option.map_eq_some_iff.mp hstep
    have hpos := h.kept.size.resolve_right (by simp [hflight])
    have henqueued := h.kept.enqueued
    rw [hflight, Option.getD_some] at henqueued
    have hleft : (s.queue ++ ([] ++ (s.settled ++ batch))).Perm s.enqueued := by
      rw [List.nil_append]
      exact (List.perm_append_comm.append_left _).trans henqueued
    have hspec := @runFlush_spec c { s with inFlight := none, settled := s.settled ++ batch }
      ⟨h.kept.once, hleft, by simp, .inr rfl⟩ h.numbered h.bounded rfl
      fun spans hcall => ⟨h.awaited spans hcall, hpos⟩
    refine ⟨hspec.1, hspec.2 fun spans hmem => ?_⟩
    exact List.Subset.trans (hdrained spans hmem) (List.subset_append_left _ _)

theorem drain_of_zero (hzero : c.maxBatchSize = 0) (fuel : ℕ) (e : Exports) :
    e.drain c fuel = e := by
  cases fuel with
  | zero => rfl
  | succ => rw [Exports.drain, if_pos (by rw [hzero, List.take_zero])]

theorem startFlush_stuck (spans : List ℕ)
    (hstuck : ¬ (s.inFlight = none ∧ (s.queue = [] ∨ 0 < c.maxBatchSize))) :
    spans ∈ (s.startFlush c (some spans)).resolved ∧
      (s.startFlush c (some spans)).settled = s.settled := by
  rw [startFlush]
  dsimp only
  split_ifs with hreturns
  · exact ⟨List.mem_cons_self, rfl⟩
  · obtain ⟨hflight, hqueue⟩ := not_or.mp hreturns
    have hidle : s.inFlight = none := by simpa using hflight
    have hzero : c.maxBatchSize = 0 :=
      Nat.eq_zero_of_not_pos fun hpos => hstuck ⟨hidle, .inr hpos⟩
    simp only [runFlush, drain_of_zero hzero, hidle, Option.isSome_none]
    rw [if_neg Bool.false_ne_true, scheduleTimer]
    split_ifs <;> exact ⟨List.mem_cons_self, rfl⟩

theorem Inv.not_drained (h : s.Inv c) {label : ExporterLabel} (hidle : ¬ s.FindsIdle c label)
    (hstep : s.step c label = some s') : ¬ s'.Drained := by
  have hresolved : s.enqueued ∈ s'.resolved ∧ s'.settled = s.settled ∧
      ¬ (s.inFlight = none ∧ s.queue = []) := by
    cases label with
    | onSpanEnd | timer | settles => exact absurd trivial hidle
    | flush =>
      cases hstep
      have hstuck := startFlush_stuck s.enqueued hidle
      exact ⟨hstuck.1, hstuck.2, fun hempty => hidle ⟨hempty.1, .inl hempty.2⟩⟩
    | shutdown =>
      cases hstep
      split_ifs
      · exact ⟨List.mem_cons_self, rfl, fun hempty => hidle ⟨hempty.1, .inl hempty.2⟩⟩
      · have hstuck := @startFlush_stuck c { s with isShutdown := true } s.enqueued hidle
        exact ⟨hstuck.1, hstuck.2, fun hempty => hidle ⟨hempty.1, .inl hempty.2⟩⟩
  obtain ⟨hmem, hsettled, hwaits⟩ := hresolved
  intro hdrained
  exact h.not_settled hwaits (hsettled ▸ hdrained _ hmem)

/-- **Draining.** Along a run of a new exporter every call that has been resolved finds the exports
of what was enqueued before it settled, every span is queued or was passed once, and the queue
keeps to its size, exactly when each call of `flush` and `shutdown` finds no flush under way. -/
theorem exporter_sound_iff (c : BatchSpanExporterConfig) (labels : List ExporterLabel) :
    EveryStep (step c) (fun _ _ s' => s'.Sound c) {} labels ↔
      EveryStep (step c) (fun s label _ => s.FindsIdle c label) {} labels := by
  have hstart : ({} : BatchSpanExporter).Inv c := by
    refine ⟨⟨⟨List.Perm.nil, List.Perm.nil, by simp, .inr rfl⟩, List.Sublist.refl _, Nat.zero_le _,
      by simp, fun _ => rfl⟩, fun _ _ _ => rfl⟩
  refine everyStep_iff_of_step (fun s => s.Sound c → s.Inv c) ?_ (fun _ => hstart)
    (hstart.sound (by simp [Drained]))
  intro s label s' hinv hsound hstep
  have h := hinv hsound
  by_cases hidle : s.FindsIdle c label
  · obtain ⟨hnext, hdrained⟩ := h.step hsound.drained hidle hstep
    exact ⟨iff_of_true (hnext.sound hdrained) hidle, fun _ => hnext⟩
  · have hbroken := h.not_drained hidle hstep
    exact ⟨iff_of_false (fun hsound' => hbroken hsound'.drained) hidle,
      fun hsound' => absurd hsound'.drained hbroken⟩

/-- A span is in flight when the exporter is shut down, and the shutdown does not wait for it. -/
theorem exporter_sound_fails_shutdown :
    ¬ ∀ (c : BatchSpanExporterConfig) (labels : List ExporterLabel),
      EveryStep (step c) (fun _ _ s' => s'.Sound c) {} labels := by
  intro hsound
  obtain ⟨_, hlast⟩ := EveryStep.last rfl (hsound ⟨1, 10, 5000, fun _ => .promise⟩
    ([.onSpanEnd] ++ [.shutdown]))
  have hmem := hlast.drained [0] List.mem_cons_self (List.mem_singleton_self 0)
  cases hmem

end BatchSpanExporter

end Fluxora.Tracing
