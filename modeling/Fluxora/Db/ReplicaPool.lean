/-
# The pool of the read replica

The first call of `getReadPool` creates the pool of the replica, keeps it in a variable of the
module, and checks its health before it decides. A call that comes during the check creates a pool
of its own in the same variable.
-/

import Fluxora.Lib.Transition
import Mathlib.Data.Int.Order.Basic

namespace Fluxora.Db

open Lib.Transition

/-! ## Calls that overlap -/

/-- The pools of the replica are numbered as they are created. -/
inductive ReadPool
  | primary
  | replica (n : ℕ)
  deriving DecidableEq

/-- What a call of `getReadPool` waits for. -/
inductive ReadPoolCall
  | health
  | lag
  | ending
  deriving DecidableEq

structure ReplicaSettings where
  /-- `DATABASE_REPLICA_URL` is set. -/
  configured : Bool
  lagMaxSeconds : ℤ

/-- The variables of the module, the calls under way and what became of the others. A call may
return `null`. -/
structure ReplicaModule where
  replicaPool : Option ℕ := none
  replicaHealthy : Bool := false
  healthCheckDone : Bool := false
  calls : List ReadPoolCall := []
  created : ℕ := 0
  ended : List ℕ := []
  returned : List (Option ReadPool) := []
  thrown : List String := []

/-- A call is made, or one goes on: with the health of the pool that it created, with a lag
that is above the limit or not, or after the end of the pool. -/
inductive ReplicaLabel
  | call (forcePrimary : Bool)
  | healthChecked (i : ℕ) (healthy : Bool)
  | lagChecked (i : ℕ) (exceeds : Bool)
  | poolEnded (i : ℕ)

namespace ReplicaModule

variable (c : ReplicaSettings) (s : ReplicaModule)

def answer (pool : Option ReadPool) : ReplicaModule := { s with returned := pool :: s.returned }

def wait (call : ReadPoolCall) : ReplicaModule := { s with calls := s.calls ++ [call] }

def leave (i : ℕ) : ReplicaModule := { s with calls := s.calls.eraseIdx i }

/-- A call, as far as its first `await`. -/
def getReadPool (forcePrimary : Bool) : ReplicaModule :=
  if forcePrimary then s.answer (some .primary)
  else if s.healthCheckDone then
    match s.replicaPool with
    | none => s.answer (some .primary)
    | some pool =>
      if !s.replicaHealthy then s.answer (some .primary)
      else if 0 < c.lagMaxSeconds then s.wait .lag
      else s.answer (some (.replica pool))
  else if !c.configured then
    { s with healthCheckDone := true, replicaHealthy := false }.answer (some .primary)
  else { s with replicaPool := some s.created, created := s.created + 1 }.wait .health

/-- The pool that is ended is the one in the variable. -/
def healthChecked (i : ℕ) (healthy : Bool) : ReplicaModule :=
  let s := { s with replicaHealthy := healthy, healthCheckDone := true }.leave i
  if healthy then s.answer (s.replicaPool.map .replica)
  else
    match s.replicaPool with
    | some pool => { s with ended := pool :: s.ended }.wait .ending
    | none => { s with thrown := "Cannot read properties of null (reading 'end')" :: s.thrown }

def lagChecked (i : ℕ) (exceeds : Bool) : ReplicaModule :=
  if exceeds then (s.leave i).answer (some .primary)
  else (s.leave i).answer (s.replicaPool.map .replica)

def poolEnded (i : ℕ) : ReplicaModule :=
  ({ s with replicaPool := none }.leave i).answer (some .primary)

def step : ReplicaLabel → Option ReplicaModule
  | .call forcePrimary => some (s.getReadPool c forcePrimary)
  | .healthChecked i healthy =>
    if s.calls[i]? = some .health then some (s.healthChecked i healthy) else none
  | .lagChecked i exceeds =>
    if s.calls[i]? = some .lag then some (s.lagChecked i exceeds) else none
  | .poolEnded i => if s.calls[i]? = some .ending then some (s.poolEnded i) else none

/-! ## What the module promises -/

structure Sound : Prop where
  quiet : s.thrown = []
  /-- A pool that has been returned or is cached as healthy has not been ended. -/
  alive : ∀ pool ∈ s.ended, some (.replica pool) ∉ s.returned ∧
    ¬ (s.replicaPool = some pool ∧ s.replicaHealthy = true)
  /-- Every pool is the cached one or has been ended. -/
  kept : ∀ pool < s.created, s.replicaPool = some pool ∨ pool ∈ s.ended

/-- A call does not create a pool while the health of another one is being checked. -/
def InitialisesAlone : ReplicaLabel → Prop
  | .call forcePrimary => forcePrimary = false → s.healthCheckDone = false →
      c.configured = true → .health ∉ s.calls
  | _ => True

/-- The states of the module when no two initialisations overlap. -/
inductive Phase (c : ReplicaSettings) : ReplicaModule → Prop
  | fresh {returned : List (Option ReadPool)} (h : ∀ pool ∈ returned, pool = some .primary) :
      Phase c { returned }
  | checking {returned : List (Option ReadPool)} (h : ∀ pool ∈ returned, pool = some .primary)
      (hconfigured : c.configured = true) :
      Phase c { replicaPool := some 0, calls := [.health], created := 1, returned }
  | ending {returned : List (Option ReadPool)} (h : ∀ pool ∈ returned, pool = some .primary) :
      Phase c { replicaPool := some 0, healthCheckDone := true, calls := [.ending], created := 1,
                ended := [0], returned }
  | primary {returned : List (Option ReadPool)} {created : ℕ} {ended : List ℕ}
      (h : ∀ pool ∈ returned, pool = some .primary) (hended : ∀ pool < created, pool ∈ ended) :
      Phase c { healthCheckDone := true, created, ended, returned }
  | replica {returned : List (Option ReadPool)} {calls : List ReadPoolCall}
      (hcalls : ∀ call ∈ calls, call = .lag) :
      Phase c { replicaPool := some 0, replicaHealthy := true, healthCheckDone := true, calls,
                created := 1, returned }

variable {c s} {s' : ReplicaModule} {label : ReplicaLabel}

theorem replica_notMem {returned : List (Option ReadPool)}
    (h : ∀ pool ∈ returned, pool = some .primary) (pool : ℕ) :
    some (.replica pool) ∉ returned := by
  intro hmem
  cases h _ hmem

theorem Phase.sound (h : Phase c s) : s.Sound := by
  cases h with
  | fresh => exact ⟨rfl, by simp, by simp⟩
  | checking => exact ⟨rfl, by simp, by simp⟩
  | ending h =>
    refine ⟨rfl, fun pool _ => ⟨replica_notMem h pool, ?_⟩, by simp⟩
    rintro ⟨-, hhealthy⟩
    cases hhealthy
  | primary h hended =>
    refine ⟨rfl, fun pool _ => ⟨replica_notMem h pool, ?_⟩, fun pool hlt => .inr (hended pool hlt)⟩
    rintro ⟨-, hhealthy⟩
    cases hhealthy
  | replica => exact ⟨rfl, by simp, by simp⟩

theorem Phase.not_sound_of_overlap (h : Phase c s) (halone : ¬ s.InitialisesAlone c label)
    (hstep : s.step c label = some s') : ¬ s'.Sound := by
  cases label with
  | call forcePrimary =>
    simp only [InitialisesAlone, not_forall, not_not] at halone
    obtain ⟨rfl, hdone, hconfigured, hhealth⟩ := halone
    cases hstep
    cases h with
    | fresh => cases hhealth
    | ending | primary | replica => cases hdone
    | checking =>
      intro hsound
      have hkept := hsound.kept 0
      simp [getReadPool, hconfigured, wait] at hkept
  | healthChecked | lagChecked | poolEnded => exact absurd trivial halone

theorem onlyPrimary_answer {returned : List (Option ReadPool)}
    (h : ∀ pool ∈ returned, pool = some .primary) :
    ∀ pool ∈ some .primary :: returned, pool = some .primary :=
  List.forall_mem_cons.mpr ⟨rfl, h⟩

theorem Phase.call (h : Phase c s) {forcePrimary : Bool}
    (halone : s.InitialisesAlone c (.call forcePrimary)) :
    Phase c (s.getReadPool c forcePrimary) := by
  cases forcePrimary with
  | true =>
    cases h with
    | fresh h => exact .fresh (onlyPrimary_answer h)
    | checking h hconfigured => exact .checking (onlyPrimary_answer h) hconfigured
    | ending h => exact .ending (onlyPrimary_answer h)
    | primary h hended => exact .primary (onlyPrimary_answer h) hended
    | replica hcalls => exact .replica hcalls
  | false =>
    cases h with
    | fresh h =>
      cases hconfigured : c.configured with
      | true =>
        simp only [getReadPool, hconfigured]
        exact .checking h hconfigured
      | false =>
        simp only [getReadPool, hconfigured]
        exact .primary (onlyPrimary_answer h) (by simp)
    | checking h hconfigured =>
      exact absurd (List.mem_singleton_self _) (halone rfl rfl hconfigured)
    | ending h => exact .ending (onlyPrimary_answer h)
    | primary h hended => exact .primary (onlyPrimary_answer h) hended
    | replica hcalls =>
      by_cases hlag : 0 < c.lagMaxSeconds
      · simp only [getReadPool, hlag]
        refine .replica fun call hcall => ?_
        rcases List.mem_append.mp hcall with hold | hnew
        · exact hcalls call hold
        · exact List.mem_singleton.mp hnew
      · simp only [getReadPool, hlag]
        exact .replica hcalls

theorem Phase.step (h : Phase c s) (halone : s.InitialisesAlone c label)
    (hstep : s.step c label = some s') : Phase c s' := by
  cases label with
  | call =>
    cases hstep
    exact h.call halone
  | healthChecked i healthy =>
    obtain ⟨hwaits, ⟨⟩⟩ := Option.ite_none_right_eq_some.mp hstep
    cases h with
    | fresh | primary => cases hwaits
    | ending => simp [List.getElem?_singleton] at hwaits
    | replica hcalls => cases hcalls _ (List.mem_of_getElem? hwaits)
    | checking h =>
      obtain rfl : i = 0 := by simpa [List.getElem?_singleton] using hwaits
      cases healthy with
      | true => exact .replica (by simp [leave])
      | false => exact .ending h
  | lagChecked i exceeds =>
    obtain ⟨hwaits, ⟨⟩⟩ := Option.ite_none_right_eq_some.mp hstep
    cases h with
    | fresh | primary => cases hwaits
    | checking | ending => simp [List.getElem?_singleton] at hwaits
    | replica hcalls =>
      cases exceeds with
      | true | false =>
        exact .replica fun call hcall => hcalls call (List.mem_of_mem_eraseIdx hcall)
  | poolEnded i =>
    obtain ⟨hwaits, ⟨⟩⟩ := Option.ite_none_right_eq_some.mp hstep
    cases h with
    | fresh | primary => cases hwaits
    | checking => simp [List.getElem?_singleton] at hwaits
    | replica hcalls => cases hcalls _ (List.mem_of_getElem? hwaits)
    | ending h =>
      obtain rfl : i = 0 := by simpa [List.getElem?_singleton] using hwaits
      exact .primary (onlyPrimary_answer h) (by simp [leave])

/-- The module keeps its promises along a run exactly as long as no call creates a pool while the
health of another one is being checked. -/
theorem initialisation_sound_iff (c : ReplicaSettings) (labels : List ReplicaLabel) :
    EveryStep (ReplicaModule.step c) (fun _ _ s' => s'.Sound) {} labels ↔
      EveryStep (ReplicaModule.step c) (fun s label _ => s.InitialisesAlone c label) {} labels := by
  have hstart : Phase c {} := .fresh (by simp)
  refine everyStep_iff_of_step (fun s => s.Sound → Phase c s) ?_ (fun _ => hstart) hstart.sound
  intro s label s' hphase hsound hstep
  have h := hphase hsound
  by_cases halone : s.InitialisesAlone c label
  · have hnext := h.step halone hstep
    exact ⟨iff_of_true hnext.sound halone, fun _ => hnext⟩
  · have hbroken := h.not_sound_of_overlap halone hstep
    exact ⟨iff_of_false hbroken halone, fun hsound' => absurd hsound' hbroken⟩

/-- Two first calls find the replica in good health, and the pool of the first stays open without
anyone who could use it. -/
theorem initialisation_leaks :
    ¬ ∀ (c : ReplicaSettings) (labels : List ReplicaLabel),
      EveryStep (ReplicaModule.step c) (fun _ _ s' => s'.Sound) {} labels := by
  intro hsound
  obtain ⟨_, hlast⟩ := EveryStep.last rfl (hsound ⟨true, 30⟩
    ([.call false, .call false, .healthChecked 0 true] ++ [.healthChecked 0 true]))
  exact absurd (hlast.kept 0 Nat.zero_lt_two) (by decide)

end ReplicaModule

end Fluxora.Db
