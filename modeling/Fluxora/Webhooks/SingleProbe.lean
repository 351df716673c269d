/-
# One probe of an open circuit

A delivery that is admitted to a half-open circuit holds the lock of the probe, and nobody else
gets it while its time lasts. Reporting an outcome deletes the lock, whoever holds it.
-/

import Fluxora.Webhooks.BreakerCalls

namespace Fluxora.Webhooks

open Lib.TtlTable Lib.Transition

/-! ## The rule and its condition -/

/-- The delivery was admitted as the probe of an open circuit, its outcome has not been reported
and its lock would still be there. -/
def BreakerWorld.Outstanding (w : BreakerWorld) (key : String) (i : ℕ) : Prop :=
  ∃ call result until', w.calls[i]? = some call ∧ call.key = key ∧
    call.progress = .checked result ∧ result.allowed = true ∧ result.state = .halfOpen ∧
    call.reported = false ∧ call.lockedUntil = some until' ∧ w.clock ≤ until'

def SingleProbe (w : BreakerWorld) : Prop :=
  ∀ key i j, w.Outstanding key i → w.Outstanding key j → i = j

/-- The operation deletes the lock of the probe next. -/
def BreakerCall.isReleasing (call : BreakerCall) : Bool :=
  match call.progress with
  | .releasing _ => true
  | _ => false

/-- An outcome that is reported deletes no lock, or that of its own delivery. -/
def DeletesOwnLock (w : BreakerWorld) : BreakerStep → Prop
  | .proceed i => ∀ call ∈ w.calls[i]?, call.isReleasing = true →
      ∀ holder ∈ get w.probes w.clock call.key, call.request.of = some holder
  | _ => True

instance (w : BreakerWorld) : DecidablePred (DeletesOwnLock w)
  | .start _ _ _ => .isTrue trivial
  | .proceed i => inferInstanceAs (Decidable (∀ call ∈ w.calls[i]?, call.isReleasing = true →
      ∀ holder ∈ get w.probes w.clock call.key, call.request.of = some holder))
  | .tick _ => .isTrue trivial

/-! ## Locks are held -/

/-- Whoever has set a lock holds it until its time is over or the outcome is reported. -/
def Held (w : BreakerWorld) : Prop :=
  ∀ i call until', w.calls[i]? = some call → call.lockedUntil = some until' →
    w.clock ≤ until' → call.reported = false → w.probes call.key = some ⟨i, until'⟩

theorem Held.init : Held {} := fun _ _ _ h => nomatch h

variable {w : BreakerWorld} {i : ℕ} {call : BreakerCall}

theorem Held.put (h : Held w) (hcall : w.calls[i]? = some call) {call' : BreakerCall}
    (hkey : call'.key = call.key) (hlocked : call'.lockedUntil = call.lockedUntil)
    (hreported : call'.reported = call.reported) : Held (w.put i call') := by
  intro j other until' hother hlock hlives hopen
  rw [BreakerWorld.put_calls, List.getElem?_set] at hother
  split_ifs at hother with hij hlt
  · cases hother
    subst hij
    rw [hkey]
    exact h i call until' hcall (hlocked ▸ hlock) hlives (hreported ▸ hopen)
  · exact h j other until' hother hlock hlives hopen

theorem Held.get_probes (h : Held w) {until' : ℤ} (hcall : w.calls[i]? = some call)
    (hlock : call.lockedUntil = some until') (hlives : w.clock ≤ until')
    (hopen : call.reported = false) : get w.probes w.clock call.key = some i :=
  get_eq_some_iff.mpr ⟨until', h i call until' hcall hlock hlives hopen, hlives⟩

theorem Held.release (h : Held w) (hcall : w.calls[i]? = some call)
    {next : WebhookCircuitBreakerRecord} {j : ℕ} {other : BreakerCall} {until' : ℤ}
    (hother : (w.calls.set i { call with progress := .recorded next })[j]? = some other)
    (hlock : other.lockedUntil = some until') (hlives : w.clock ≤ until')
    (hopen : other.reported = false)
    (hfree : other.key = call.key → get w.probes w.clock call.key ≠ some j) :
    del w.probes call.key other.key = some ⟨j, until'⟩ := by
  obtain ⟨old, hold, hkey, holdLock, holdOpen⟩ : ∃ old, w.calls[j]? = some old ∧
      old.key = other.key ∧ old.lockedUntil = other.lockedUntil ∧
        old.reported = other.reported := by
    rw [List.getElem?_set] at hother
    split_ifs at hother with hij hlt
    · cases hother
      subst hij
      exact ⟨call, hcall, rfl, rfl, rfl⟩
    · exact ⟨other, hother, rfl, rfl, rfl⟩
  rw [← holdLock] at hlock
  rw [← holdOpen] at hopen
  have hholds := h.get_probes hold hlock hlives hopen
  have hne : other.key ≠ call.key := by
    intro hsame
    rw [hkey, hsame] at hholds
    exact hfree hsame hholds
  rw [del_of_ne hne, ← hkey]
  exact h j old until' hold hlock hlives hopen

theorem Held.step {w' : BreakerWorld} {label : BreakerStep} (h : Held w)
    (hown : DeletesOwnLock w label) (hstep : w.step label = some w') : Held w' := by
  cases label with
  | start =>
    rw [eq_of_start hstep]
    intro i call until' hcall hlock hlives hopen
    rw [List.getElem?_append] at hcall
    split_ifs at hcall with hold
    · exact h i call until' hcall hlock hlives hopen
    · obtain rfl := List.mem_singleton.mp (List.mem_of_getElem? hcall)
      cases hlock
  | tick ms =>
    cases hstep
    intro i call until' hcall hlock hlives hopen
    exact h i call until' hcall hlock
      (le_trans (Int.le_add_of_nonneg_right (Int.natCast_nonneg ms)) hlives) hopen
  | proceed =>
    obtain ⟨call, hcall, hproceeds⟩ := exists_of_proceed hstep
    cases hproceeds with
    | read | refused => exact h.put hcall rfl rfl rfl
    | opened | written => exact Held.put (w := w.writeState call _) h hcall rfl rfl rfl
    | locked _ hfree =>
      intro j other until' hother hlock hlives hopen
      rw [BreakerWorld.put_calls, List.getElem?_set] at hother
      split_ifs at hother with hij hlt
      · cases hother
        subst hij
        cases hlock
        exact set_self
      · have hne : other.key ≠ call.key := by
          intro hsame
          have hholds := h.get_probes hother hlock hlives hopen
          rw [hsame, hfree] at hholds
          cases hholds
        exact (set_of_ne hne).trans (h j other until' hother hlock hlives hopen)
    | released hreleasing hof =>
      intro j other until' hother hlock hlives hopen
      refine h.release hcall hother hlock hlives hopen fun _ hholds => ?_
      have hself := hown call hcall (by rw [BreakerCall.isReleasing, hreleasing]) j hholds
      rw [hof] at hself
      cases hself
    | @reported _ delivery hreleasing hof =>
      intro j other until' hother hlock hlives hopen
      rw [BreakerWorld.markReported, BreakerWorld.put_calls, List.getElem?_modify] at hother
      obtain ⟨old, hold, rfl⟩ := Option.map_eq_some_iff.mp hother
      by_cases hdelivery : delivery = j
      · rw [if_pos hdelivery] at hopen
        cases hopen
      · rw [if_neg hdelivery] at hlock hopen ⊢
        refine h.release hcall hold hlock hlives hopen fun _ hholds => ?_
        have hself := hown call hcall (by rw [BreakerCall.isReleasing, hreleasing]) j hholds
        rw [hof] at hself
        exact hdelivery (Option.some.inj hself)

/-! ## The rule along runs -/

theorem Held.singleProbe (h : Held w) : SingleProbe w := by
  rintro key i j ⟨call, _, until₁, hcall, rfl, -, -, -, hopen, hlock, hlives⟩
    ⟨other, _, until₂, hother, hkey, -, -, -, hopen', hlock', hlives'⟩
  have hi := h.get_probes hcall hlock hlives hopen
  have hj := h.get_probes hother hlock' hlives' hopen'
  rw [hkey, hi] at hj
  exact Option.some.inj hj

/-- While outcomes delete no lock but that of their own delivery, at most one probe of a circuit
is under way. -/
theorem singleProbe_of_ownLocks {w : BreakerWorld}
    (hrun : Reaches BreakerWorld.step DeletesOwnLock {} w) : SingleProbe w :=
  Held.singleProbe (hrun.invariant (fun _ _ _ h hown hstep => h.step hown hstep) Held.init)

/-- One delivery is admitted and fails, another one is the probe and succeeds. -/
theorem firstProbe_single : ∃ w, Reaches BreakerWorld.step DeletesOwnLock {} w ∧ SingleProbe w := by
  let policy : CircuitBreakerPolicy := ⟨some 1, some 1000⟩
  obtain ⟨w, hrun⟩ : ∃ w, runUnder BreakerWorld.step DeletesOwnLock {}
      [.start "k" policy (.check 0), .proceed 0, .start "k" policy (.failure 0 (some 0)),
        .proceed 1, .proceed 1, .proceed 1, .tick 1000, .start "k" policy (.check 1000),
        .proceed 2, .proceed 2, .proceed 2, .start "k" policy (.success (some 2)), .proceed 3,
        .proceed 3, .proceed 3] = some w := Option.isSome_iff_exists.mp (by decide +kernel)
  have hreached := Reaches.of_runUnder hrun
  exact ⟨w, hreached, singleProbe_of_ownLocks hreached⟩

/-- The steps of a run in which a probe is let in beside another one: two operations read the open
circuit, one of them becomes the probe, the outcome of a delivery that was admitted before deletes
its lock, and the other one becomes a probe, too. -/
def secondProbe : List BreakerStep :=
  let policy : CircuitBreakerPolicy := ⟨some 1, some 1000⟩
  [.start "k" policy (.check 0), .proceed 0, .start "k" policy (.check 0), .proceed 1,
    .start "k" policy (.failure 0 (some 0)), .proceed 2, .proceed 2, .proceed 2, .tick 1000,
    .start "k" policy (.check 1000), .proceed 3, .start "k" policy (.check 1000), .proceed 4,
    .proceed 3, .proceed 3, .start "k" policy (.success (some 1)), .proceed 5, .proceed 5,
    .proceed 5, .proceed 4, .proceed 4]

theorem singleProbe_fails : ¬ ∀ w, Reaches BreakerWorld.step (fun _ _ => True) {} w →
    SingleProbe w := by
  intro h
  obtain ⟨w, hrun, hfirst, hsecond⟩ : ∃ w, run BreakerWorld.step {} secondProbe = some w ∧
      w.Outstanding "k" 3 ∧ w.Outstanding "k" 4 :=
    ⟨_, rfl, ⟨_, _, 2000, rfl, rfl, rfl, rfl, rfl, rfl, rfl, by decide⟩,
      ⟨_, _, 2000, rfl, rfl, rfl, rfl, rfl, rfl, rfl, by decide⟩⟩
  have hreached := Reaches.of_run (fun _ _ (_ : _ ∈ secondProbe) => trivial) hrun
  exact absurd (h w hreached "k" 3 4 hfirst hsecond) (by decide)

end Fluxora.Webhooks
