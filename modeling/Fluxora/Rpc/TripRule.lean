/-
# When the breaker trips

The breaker is to open when enough failures since the last success lie in the window before the
last of them. It counts those it has kept, and it keeps a failure until a call starts that finds
it too old.
-/

import Fluxora.Rpc.CircuitBreaker

namespace Fluxora.Rpc

open Lib.Transition

namespace RpcState

variable {opts : CircuitBreakerOptions} {s s' : RpcState} {label : RpcLabel}

/-- The failures since the last success that have not left the window at a time. -/
def inWindow (opts : CircuitBreakerOptions) (now : ℤ) (failed : List ℤ) : List ℤ :=
  failed.filter fun t => now - opts.windowMs ≤ t

/-- The breaker goes from closed to open just when a failure ends and, with it, enough
failures are in the window. -/
def TripsInWindow (opts : CircuitBreakerOptions) (s : RpcState) (label : RpcLabel)
    (s' : RpcState) : Prop :=
  s.breaker.state = .closed →
    (s'.breaker.state = .opened ↔ ∃ i now, label = .fail i now ∧
      opts.failureThreshold ≤ (inWindow opts now (s.failed ++ [now])).length)

/-- If enough failures are in the window before the last start of a call, or came after it,
enough are in the window before the failure that ends. -/
def FailsFresh (opts : CircuitBreakerOptions) (s : RpcState) (label : RpcLabel) : Prop :=
  ∀ i now, label = .fail i now → s.breaker.state = .closed →
    opts.failureThreshold ≤ (inWindow opts s.lastStart s.failed).length + 1 →
      opts.failureThreshold ≤ (inWindow opts now s.failed).length + 1

/-- The breaker has kept the failures that were in the window when a call last started. -/
structure Kept (opts : CircuitBreakerOptions) (s : RpcState) : Prop where
  failures : s.breaker.failures = inWindow opts s.lastStart s.failed
  lastStart : s.lastStart ≤ s.clock

theorem kept_start : Kept opts {} := ⟨rfl, le_rfl⟩

theorem inWindow_inWindow {now later : ℤ} (hle : now ≤ later) (failed : List ℤ) :
    inWindow opts later (inWindow opts now failed) = inWindow opts later failed := by
  rw [inWindow, inWindow, List.filter_filter]
  refine List.filter_congr fun t _ => ?_
  rw [Bool.and_eq_left_iff_imp, decide_eq_true_iff, decide_eq_true_iff]
  omega

theorem inWindow_concat {now time : ℤ} (hle : now ≤ time) (failed : List ℤ) :
    inWindow opts now (failed ++ [time]) = inWindow opts now failed ++ [time] := by
  have hnew : now - opts.windowMs ≤ time := by omega
  rw [inWindow, List.filter_append, List.filter_singleton, decide_eq_true hnew]
  rfl

theorem Kept.step (hkept : Kept opts s) (hstep : s.step opts label = some s') :
    Kept opts s' := by
  obtain ⟨hclock, heffect⟩ := effect hstep
  cases heffect with
  | starts now =>
    have hle : s.lastStart ≤ now := le_trans hkept.lastStart hclock
    refine ⟨?_, le_rfl⟩
    change (s.breaker.callStart opts now).1.failures = inWindow opts now s.failed
    rw [CircuitBreaker.callStart_failures, hkept.failures]
    exact inWindow_inWindow hle s.failed
  | succeeds => exact ⟨rfl, le_trans hkept.lastStart hclock⟩
  | fails _ now =>
    have hle : s.lastStart ≤ now := le_trans hkept.lastStart hclock
    refine ⟨?_, hle⟩
    change (s.breaker.onFailure opts now).failures =
      inWindow opts s.lastStart (s.failed ++ [now])
    rw [inWindow_concat hle, ← hkept.failures]
    by_cases htrips : opts.failureThreshold ≤ s.breaker.failures.length + 1
    · rw [CircuitBreaker.onFailure_trips now htrips]
    · rw [CircuitBreaker.onFailure_counts now htrips]

theorem tripsInWindow_iff (hkept : Kept opts s) (hstep : s.step opts label = some s') :
    TripsInWindow opts s label s' ↔ FailsFresh opts s label := by
  obtain ⟨hclock, heffect⟩ := effect hstep
  cases heffect with
  | starts now =>
    refine iff_of_true (fun hclosed => iff_of_false ?_ ?_) nofun
    · change (s.breaker.callStart opts now).1.state ≠ .opened
      rw [(CircuitBreaker.callStart_of_not_opened opts now (by rw [hclosed]; decide)).2, hclosed]
      decide
    · rintro ⟨i, time, hlabel, -⟩
      cases hlabel
  | succeeds =>
    refine iff_of_true (fun hclosed => iff_of_false nofun ?_) nofun
    rintro ⟨j, time, hlabel, -⟩
    cases hlabel
  | fails i now call =>
    have hle : s.lastStart ≤ now := le_trans hkept.lastStart hclock
    have hwindow : (∃ j time, RpcLabel.fail i now = .fail j time ∧
        opts.failureThreshold ≤ (inWindow opts time (s.failed ++ [time])).length) ↔
        opts.failureThreshold ≤ (inWindow opts now s.failed).length + 1 := by
      apply Iff.intro
      · rintro ⟨j, time, hlabel, hcount⟩
        cases hlabel
        rwa [inWindow_concat le_rfl, List.length_append] at hcount
      · intro hcount
        refine ⟨i, now, rfl, ?_⟩
        rwa [inWindow_concat le_rfl, List.length_append]
    have htrips : s.breaker.state = .closed →
        ((s.fail opts i call now).breaker.state = .opened ↔
          opts.failureThreshold ≤ (inWindow opts s.lastStart s.failed).length + 1) := by
      intro hclosed
      rw [← hkept.failures]
      change (s.breaker.onFailure opts now).state = .opened ↔ _
      by_cases htrips : opts.failureThreshold ≤ s.breaker.failures.length + 1
      · rw [CircuitBreaker.onFailure_trips now htrips]
        exact iff_of_true rfl htrips
      · rw [CircuitBreaker.onFailure_counts now htrips]
        refine iff_of_false ?_ htrips
        rw [hclosed]
        decide
    have hfewer : (inWindow opts now s.failed).length ≤
        (inWindow opts s.lastStart s.failed).length := by
      rw [← inWindow_inWindow hle]
      exact List.length_filter_le _ _
    apply Iff.intro
    · intro hrule j time hlabel hclosed hcount
      cases hlabel
      exact hwindow.mp ((hrule hclosed).mp ((htrips hclosed).mpr hcount))
    · intro hfresh hclosed
      rw [htrips hclosed, hwindow]
      exact ⟨hfresh i now rfl hclosed, fun hcount =>
        Nat.le_trans hcount (Nat.add_le_add_right hfewer 1)⟩

/-- **Trip rule.** Along a run of overlapping calls the breaker trips exactly by the failures
in the window, just if no failure completes a count that is only reached with failures which
have left the window since a call last started. -/
theorem trips_iff (opts : CircuitBreakerOptions) (labels : List RpcLabel) :
    EveryStep (RpcState.step opts) (TripsInWindow opts) {} labels ↔
      EveryStep (RpcState.step opts) (fun s label _ => FailsFresh opts s label) {} labels := by
  apply Iff.intro
  · refine EveryStep.imp (Kept opts) ?_ kept_start
    exact fun s label s' hkept hstep hrule =>
      ⟨(tripsInWindow_iff hkept hstep).mp hrule, hkept.step hstep⟩
  · refine EveryStep.imp (Kept opts) ?_ kept_start
    exact fun s label s' hkept hstep hfresh =>
      ⟨(tripsInWindow_iff hkept hstep).mpr hfresh, hkept.step hstep⟩

/-- The breaker may open too early, but it never misses: a failure that completes enough failures of
the window leaves it open in every run. -/
theorem opens_on_enough_failures (opts : CircuitBreakerOptions) (labels : List RpcLabel) :
    EveryStep (RpcState.step opts) (fun s label s' => ∀ i now, label = .fail i now →
      opts.failureThreshold ≤ (inWindow opts now (s.failed ++ [now])).length →
      s'.breaker.state = .opened) {} labels := by
  refine everyStep_of_invariant (Kept opts) (fun s label s' hkept hstep => ?_) labels kept_start
  refine ⟨fun i now hlabel hcount => ?_, hkept.step hstep⟩
  subst hlabel
  obtain ⟨hclock, heffect⟩ := effect hstep
  cases heffect with
  | fails _ _ call =>
    have hle : s.lastStart ≤ now := le_trans hkept.lastStart hclock
    rw [inWindow_concat le_rfl, List.length_append, ← inWindow_inWindow hle,
      ← hkept.failures] at hcount
    have htrips : opts.failureThreshold ≤ s.breaker.failures.length + 1 :=
      Nat.le_trans hcount (Nat.add_le_add_right (List.length_filter_le _ _) 1)
    change (s.breaker.onFailure opts now).state = .opened
    rw [CircuitBreaker.onFailure_trips now htrips]

end RpcState

/-- Two calls start together. One fails at once and one after 40 seconds: the breaker opens at
a threshold of two, with one failure in the window of 30 seconds. -/
theorem trips_fails :
    ¬ ∀ labels : List RpcLabel, EveryStep (RpcState.step { failureThreshold := 2 })
      (RpcState.TripsInWindow { failureThreshold := 2 }) {} labels := by
  intro h
  have hevery := h ([.start 0, .start 0, .fail 0 0] ++ [.fail 0 40000])
  have hlast := (EveryStep.of_run rfl hevery _ rfl).1
  obtain ⟨i, now, hlabel, hcount⟩ := (hlast rfl).mp rfl
  cases hlabel
  exact absurd hcount (by decide)

end Fluxora.Rpc
