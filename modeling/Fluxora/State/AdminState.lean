/-
# Pause flags

The pause flags are kept in memory and in a file. A call that changes them takes what is in memory
for the flags it does not name, waits for the lock, replaces the file, gives the lock back and
only then replaces the memory. Calls on other flags go on in between, so the state that a call
writes may be one from before them.
-/

import Fluxora.Lib.Json
import Fluxora.Lib.Transition

namespace Fluxora.State

open Lib Lib.Transition

/-! ## Flags and the file -/

structure PauseFlags where
  streamCreation : Bool := false
  ingestion : Bool := false
  deriving DecidableEq

/-- The flags that a call names. -/
structure PartialFlags where
  streamCreation : Option Bool := none
  ingestion : Option Bool := none

inductive Flag
  | streamCreation
  | ingestion

def PauseFlags.value (flags : PauseFlags) : Flag → Bool
  | .streamCreation => flags.streamCreation
  | .ingestion => flags.ingestion

def PartialFlags.value (flags : PartialFlags) : Flag → Option Bool
  | .streamCreation => flags.streamCreation
  | .ingestion => flags.ingestion

/-- The named flags as named, the others as they are. -/
def PartialFlags.over (flags : PartialFlags) (current : PauseFlags) : PauseFlags where
  streamCreation := flags.streamCreation.getD current.streamCreation
  ingestion := flags.ingestion.getD current.ingestion

/-- `isPauseFlags`, with the flags. -/
def isPauseFlags (value : Json) : Option PauseFlags :=
  match value.property "streamCreation", value.property "ingestion" with
  | some (.bool streamCreation), some (.bool ingestion) => some ⟨streamCreation, ingestion⟩
  | _, _ => none

/-- The content of the file, which may be missing or no JSON. -/
def readPersistedPauseFlags (file : Option Json) : Option PauseFlags :=
  file.bind fun parsed =>
    (isPauseFlags parsed).or <|
      match parsed.property "version" with
      | some (.number 1) => (parsed.property "pauseFlags").bind isPauseFlags
      | _ => none

/-- What is written for some flags. -/
def persistedAdminState (flags : PauseFlags) : Json :=
  .object [("version", .number 1), ("pauseFlags", .object
    [("streamCreation", .bool flags.streamCreation), ("ingestion", .bool flags.ingestion)])]

/-- The flags of a process that starts with the file. -/
def hydratePauseFlags (file : Option Json) : PauseFlags := (readPersistedPauseFlags file).getD {}

/-! ## Calls -/

inductive SetProgress
  /-- Waits for the lock. -/
  | acquiring
  /-- The file is replaced, and the lock is to be released. -/
  | written
  | returned (flags : PauseFlags)
  /-- `AdminStatePersistenceError` -/
  | threw

structure SetCall where
  flags : PartialFlags
  next : PauseFlags
  progress : SetProgress

structure AdminState where
  pauseFlags : PauseFlags := {}
  file : Option Json := none
  /-- The call that has the lock. -/
  lock : Option ℕ := none
  calls : List SetCall := []

/-- A call, the file replaced under the lock or not, the rest of the call after the lock is
released, or a lock that runs out. -/
inductive AdminStep
  | setPauseFlags (flags : PartialFlags)
  | persist (i : ℕ)
  | fail (i : ℕ)
  | complete (i : ℕ)
  | leaseExpires

namespace AdminState

variable (s : AdminState)

/-- The state that a call writes, computed before it waits. A call that changes nothing returns at
once. -/
def setPauseFlags (flags : PartialFlags) : AdminState :=
  let next := flags.over s.pauseFlags
  { s with calls := s.calls ++
      [⟨flags, next, if next = s.pauseFlags then .returned next else .acquiring⟩] }

/-- The lock is taken and the file replaced, at one go. -/
def persist (i : ℕ) (call : SetCall) : Option AdminState :=
  match call.progress, s.lock with
  | .acquiring, none => some { s with
      file := some (persistedAdminState call.next)
      lock := some i
      calls := s.calls.set i { call with progress := .written } }
  | _, _ => none

/-- The lock is not had in time, or the file is not replaced. -/
def fail (i : ℕ) (call : SetCall) : Option AdminState :=
  match call.progress with
  | .acquiring => some { s with calls := s.calls.set i { call with progress := .threw } }
  | _ => none

/-- The lock is released, and the memory replaced. -/
def complete (i : ℕ) (call : SetCall) : Option AdminState :=
  match call.progress with
  | .written => some { s with
      pauseFlags := call.next
      lock := if s.lock = some i then none else s.lock
      calls := s.calls.set i { call with progress := .returned call.next } }
  | _ => none

def step (s : AdminState) : AdminStep → Option AdminState
  | .setPauseFlags flags => some (s.setPauseFlags flags)
  | .persist i => s.calls[i]?.bind (s.persist i)
  | .fail i => s.calls[i]?.bind (s.fail i)
  | .complete i => s.calls[i]?.bind (s.complete i)
  | .leaseExpires => some { s with lock := none }

end AdminState

/-! ## The flags as they are set -/

/-- A process with each flag as the last call set it that named it and replaced the file. -/
structure FlagRun where
  state : AdminState
  intended : PauseFlags

namespace FlagRun

variable (r : FlagRun)

def intendedAfter : AdminStep → PauseFlags
  | .persist i => (r.state.calls[i]?.map fun call => call.flags.over r.intended).getD r.intended
  | _ => r.intended

def step (label : AdminStep) : Option FlagRun :=
  (r.state.step label).map fun state => ⟨state, r.intendedAfter label⟩

/-- A process that starts with the file. -/
def init (file : Option Json) : FlagRun :=
  ⟨{ pauseFlags := hydratePauseFlags file, file := file }, hydratePauseFlags file⟩

/-- No call but one names the flag that has replaced the file and not yet returned. -/
def UnclaimedBut (calls : List SetCall) (i : ℕ) (flag : Flag) : Prop :=
  ∀ j call, calls[j]? = some call → j ≠ i → call.progress = .written →
    call.flags.value flag = none

/-- No call names the flag that has replaced the file and not yet returned. -/
def Unclaimed (calls : List SetCall) (flag : Flag) : Prop :=
  ∀ call ∈ calls, call.progress = .written → call.flags.value flag = none

/-- The file has every flag as it was set, and so has the memory, but for the flags of calls that
have replaced the file and not yet returned. -/
structure UpdatesKept : Prop where
  file : hydratePauseFlags r.state.file = r.intended
  memory : ∀ flag, Unclaimed r.state.calls flag →
    r.state.pauseFlags.value flag = r.intended.value flag

/-- A call that fails to write changes nothing. -/
def FailureKept (label : AdminStep) (r' : FlagRun) : Prop :=
  ∀ i, label = .fail i →
    r'.state.pauseFlags = r.state.pauseFlags ∧ r'.state.file = r.state.file

/-- What a call writes to the file has the flags it does not name as they are there, and what it
puts into memory has the flags as they are in the file, but for those that another call is about
to put there. -/
def WritesCurrent : AdminStep → Prop
  | .persist i => ∀ call ∈ r.state.calls[i]?, ∀ flag, call.flags.value flag = none →
      call.next.value flag = (hydratePauseFlags r.state.file).value flag
  | .complete i => ∀ call ∈ r.state.calls[i]?, ∀ flag, UnclaimedBut r.state.calls i flag →
      call.next.value flag = (hydratePauseFlags r.state.file).value flag
  | _ => True

end FlagRun

/-! ## Flags one by one -/

theorem PauseFlags.ext_value {flags other : PauseFlags}
    (h : ∀ flag, flags.value flag = other.value flag) : flags = other := by
  cases flags
  cases other
  exact congrArg₂ PauseFlags.mk (h .streamCreation) (h .ingestion)

@[simp]
theorem value_over (flags : PartialFlags) (current : PauseFlags) (flag : Flag) :
    (flags.over current).value flag = (flags.value flag).getD (current.value flag) := by
  cases flag <;> rfl

@[simp]
theorem hydratePauseFlags_persisted (flags : PauseFlags) :
    hydratePauseFlags (some (persistedAdminState flags)) = flags := rfl

/-! ## What one step does -/

namespace AdminState

variable {s s' : AdminState} {i : ℕ} {call : SetCall}

theorem eq_of_persist (h : s.persist i call = some s') :
    call.progress = .acquiring ∧ s' = { s with
      file := some (persistedAdminState call.next)
      lock := some i
      calls := s.calls.set i { call with progress := .written } } := by
  rw [persist] at h
  split at h
  · exact ⟨‹_›, (Option.some.inj h).symm⟩
  · cases h

theorem eq_of_fail (h : s.fail i call = some s') :
    call.progress = .acquiring ∧
      s' = { s with calls := s.calls.set i { call with progress := .threw } } := by
  rw [fail] at h
  split at h
  · exact ⟨‹_›, (Option.some.inj h).symm⟩
  · cases h

theorem eq_of_complete (h : s.complete i call = some s') :
    call.progress = .written ∧ s' = { s with
      pauseFlags := call.next
      lock := if s.lock = some i then none else s.lock
      calls := s.calls.set i { call with progress := .returned call.next } } := by
  rw [complete] at h
  split at h
  · exact ⟨‹_›, (Option.some.inj h).symm⟩
  · cases h

end AdminState

namespace FlagRun

variable {r r' : FlagRun} {i : ℕ} {call : SetCall} {label : AdminStep}

/-- A call writes the flags it names as it names them. -/
def NamedWritten (r : FlagRun) : Prop :=
  ∀ call ∈ r.state.calls, ∀ flag value, call.flags.value flag = some value →
    call.next.value flag = value

theorem mem_set_flags {calls : List SetCall} {progress : SetProgress}
    (hcall : calls[i]? = some call) {other : SetCall}
    (hother : other ∈ calls.set i { call with progress := progress }) :
    ∃ old ∈ calls, old.flags = other.flags ∧ old.next = other.next := by
  rcases List.mem_or_eq_of_mem_set hother with hold | rfl
  · exact ⟨other, hold, rfl, rfl⟩
  · exact ⟨call, List.mem_of_getElem? hcall, rfl, rfl⟩

theorem NamedWritten.set (h : r.NamedWritten) {progress : SetProgress}
    (hcall : r.state.calls[i]? = some call) {state : AdminState} {intended : PauseFlags}
    (hcalls : state.calls = r.state.calls.set i { call with progress := progress }) :
    NamedWritten ⟨state, intended⟩ := by
  intro other hother flag value hvalue
  dsimp only at hother
  rw [hcalls] at hother
  obtain ⟨old, hold, hflags, hnext⟩ := mem_set_flags hcall hother
  rw [← hnext]
  exact h old hold flag value (hflags ▸ hvalue)

theorem NamedWritten.step (h : r.NamedWritten)
    (hstep : r.step label = some r') : r'.NamedWritten := by
  obtain ⟨state, hstate, rfl⟩ := Option.map_eq_some_iff.mp hstep
  cases label with
  | setPauseFlags =>
    cases hstate
    intro other hother flag value hvalue
    rcases List.mem_append.mp hother with hold | hnew
    · exact h other hold flag value hvalue
    · obtain rfl := List.mem_singleton.mp hnew
      rw [value_over, hvalue, Option.getD_some]
  | persist =>
    obtain ⟨call, hcall, hpersist⟩ := Option.bind_eq_some_iff.mp hstate
    obtain ⟨-, rfl⟩ := AdminState.eq_of_persist hpersist
    exact h.set hcall rfl
  | fail =>
    obtain ⟨call, hcall, hfail⟩ := Option.bind_eq_some_iff.mp hstate
    obtain ⟨-, rfl⟩ := AdminState.eq_of_fail hfail
    exact h.set hcall rfl
  | complete =>
    obtain ⟨call, hcall, hcomplete⟩ := Option.bind_eq_some_iff.mp hstate
    obtain ⟨-, rfl⟩ := AdminState.eq_of_complete hcomplete
    exact h.set hcall rfl
  | leaseExpires =>
    cases hstate
    exact h

variable {flag : Flag}

theorem unclaimed_set_iff {calls : List SetCall} {new : SetCall} (hcall : calls[i]? = some call) :
    Unclaimed (calls.set i new) flag ↔
      (new.progress = .written → new.flags.value flag = none) ∧ UnclaimedBut calls i flag := by
  have hlt : i < calls.length := (List.getElem?_eq_some_iff.mp hcall).1
  apply Iff.intro
  · intro h
    apply And.intro (h new (List.mem_set hlt new))
    intro j other hother hne hwritten
    apply h other _ hwritten
    apply List.mem_of_getElem?
    rw [List.getElem?_set_ne hne.symm, hother]
  · intro ⟨hnew, hrest⟩ other hother hwritten
    obtain ⟨j, hj⟩ := List.getElem?_of_mem hother
    rw [List.getElem?_set] at hj
    split_ifs at hj with hij
    · cases hj
      exact hnew hwritten
    · exact hrest j other hj (Ne.symm hij) hwritten

theorem unclaimed_iff {calls : List SetCall} (hcall : calls[i]? = some call) :
    Unclaimed calls flag ↔
      (call.progress = .written → call.flags.value flag = none) ∧ UnclaimedBut calls i flag := by
  obtain ⟨hlt, rfl⟩ := List.getElem?_eq_some_iff.mp hcall
  rw [← unclaimed_set_iff hcall, List.set_getElem_self]

theorem unclaimed_append {calls : List SetCall} (hnew : call.progress ≠ .written) :
    Unclaimed (calls ++ [call]) flag ↔ Unclaimed calls flag := by
  rw [Unclaimed, Unclaimed, List.forall_mem_append, List.forall_mem_singleton]
  exact and_iff_left fun hwritten => absurd hwritten hnew

theorem updatesKept_congr (state : AdminState) (hmemory : state.pauseFlags = r.state.pauseFlags)
    (hfile : state.file = r.state.file)
    (hcalls : ∀ flag, Unclaimed state.calls flag ↔ Unclaimed r.state.calls flag) :
    UpdatesKept ⟨state, r.intended⟩ ↔ r.UpdatesKept := by
  apply Iff.intro
  · intro h
    exact ⟨hfile ▸ h.file, fun flag hfree => hmemory ▸ h.memory flag ((hcalls flag).mpr hfree)⟩
  · intro h
    apply UpdatesKept.mk
    · exact (congrArg _ hfile).trans h.file
    · intro flag hfree
      exact (congrArg (PauseFlags.value · flag) hmemory).trans
        (h.memory flag ((hcalls flag).mp hfree))

theorem updatesKept_persist_iff (hnamed : r.NamedWritten) (h : r.UpdatesKept)
    (hcall : r.state.calls[i]? = some call) {state : AdminState}
    (hstate : r.state.persist i call = some state) :
    UpdatesKept ⟨state, call.flags.over r.intended⟩ ↔
      ∀ flag, call.flags.value flag = none →
        call.next.value flag = (hydratePauseFlags r.state.file).value flag := by
  obtain ⟨hacquiring, rfl⟩ := AdminState.eq_of_persist hstate
  rw [h.file]
  apply Iff.intro
  · intro hkept flag hunnamed
    have hvalue := congrArg (PauseFlags.value · flag) hkept.file
    rwa [hydratePauseFlags_persisted, value_over, hunnamed, Option.getD_none] at hvalue
  · intro hcurrent
    apply UpdatesKept.mk
    · rw [hydratePauseFlags_persisted]
      apply PauseFlags.ext_value
      intro flag
      rw [value_over]
      cases hvalue : call.flags.value flag with
      | none => exact hcurrent flag hvalue
      | some value => exact hnamed call (List.mem_of_getElem? hcall) flag value hvalue
    · intro flag hfree
      obtain ⟨hunnamed, hrest⟩ := (unclaimed_set_iff hcall).mp hfree
      rw [value_over, hunnamed rfl, Option.getD_none]
      exact h.memory flag ((unclaimed_iff hcall).mpr
        ⟨fun hwritten => absurd (hacquiring.symm.trans hwritten) nofun, hrest⟩)

theorem updatesKept_complete_iff (h : r.UpdatesKept) (hcall : r.state.calls[i]? = some call)
    {state : AdminState} (hstate : r.state.complete i call = some state) :
    UpdatesKept ⟨state, r.intended⟩ ↔ ∀ flag, UnclaimedBut r.state.calls i flag →
      call.next.value flag = (hydratePauseFlags r.state.file).value flag := by
  obtain ⟨-, rfl⟩ := AdminState.eq_of_complete hstate
  rw [h.file]
  apply Iff.intro
  · intro hkept flag hrest
    exact hkept.memory flag ((unclaimed_set_iff hcall).mpr ⟨nofun, hrest⟩)
  · intro hcurrent
    refine ⟨h.file, ?_⟩
    intro flag hfree
    exact hcurrent flag ((unclaimed_set_iff hcall).mp hfree).2

theorem failureKept_of_ne (hlabel : ∀ i, label ≠ .fail i) :
    r.FailureKept label r' := fun i hfail => absurd hfail (hlabel i)

theorem step_iff (hnamed : r.NamedWritten) (h : r.UpdatesKept) (hstep : r.step label = some r') :
    r'.UpdatesKept ∧ r.FailureKept label r' ↔ r.WritesCurrent label := by
  obtain ⟨state, hstate, rfl⟩ := Option.map_eq_some_iff.mp hstep
  cases label with
  | setPauseFlags flags =>
    cases hstate
    have hcalls : ∀ flag, Unclaimed (r.state.setPauseFlags flags).calls flag ↔
        Unclaimed r.state.calls flag := by
      intro flag
      apply unclaimed_append
      dsimp only
      split_ifs <;> nofun
    have hkept := (updatesKept_congr (r.state.setPauseFlags flags) rfl rfl hcalls).mpr h
    exact iff_of_true ⟨hkept, failureKept_of_ne fun _ => nofun⟩ trivial
  | persist i =>
    obtain ⟨call, hcall, hpersist⟩ := Option.bind_eq_some_iff.mp hstate
    have hfailure : r.FailureKept (.persist i) ⟨state, r.intendedAfter (.persist i)⟩ :=
      failureKept_of_ne fun _ => nofun
    rw [and_iff_left hfailure, intendedAfter, WritesCurrent, hcall, Option.map_some,
      Option.getD_some, updatesKept_persist_iff hnamed h hcall hpersist]
    exact ⟨fun hcurrent _ hsome => Option.some.inj hsome ▸ hcurrent, fun hall => hall call rfl⟩
  | fail i =>
    obtain ⟨call, hcall, hfail⟩ := Option.bind_eq_some_iff.mp hstate
    obtain ⟨hacquiring, rfl⟩ := AdminState.eq_of_fail hfail
    have hcalls : ∀ flag,
        Unclaimed (r.state.calls.set i { call with progress := .threw }) flag ↔
          Unclaimed r.state.calls flag := by
      intro flag
      rw [unclaimed_set_iff hcall, unclaimed_iff hcall, hacquiring]
      exact and_congr_left' (iff_of_true nofun nofun)
    have hkept := (updatesKept_congr { r.state with
      calls := r.state.calls.set i { call with progress := .threw } } rfl rfl hcalls).mpr h
    exact iff_of_true ⟨hkept, fun _ _ => ⟨rfl, rfl⟩⟩ trivial
  | complete i =>
    obtain ⟨call, hcall, hcomplete⟩ := Option.bind_eq_some_iff.mp hstate
    have hfailure : r.FailureKept (.complete i) ⟨state, r.intended⟩ :=
      failureKept_of_ne fun _ => nofun
    have hintended : r.intendedAfter (.complete i) = r.intended := rfl
    rw [hintended, and_iff_left hfailure, WritesCurrent, hcall,
      updatesKept_complete_iff h hcall hcomplete]
    exact ⟨fun hcurrent _ hsome => Option.some.inj hsome ▸ hcurrent, fun hall => hall call rfl⟩
  | leaseExpires =>
    cases hstate
    exact iff_of_true ⟨⟨h.file, h.memory⟩, failureKept_of_ne fun _ => nofun⟩ trivial

theorem updatesKept_init (file : Option Json) : (init file).UpdatesKept := ⟨rfl, fun _ _ => rfl⟩

end FlagRun

/-- Along every run, no flag loses an update and a failed call changes nothing, exactly as long as
every call writes the other flags as they are by then. -/
theorem updatesKept_iff_writesCurrent (file : Option Json) (labels : List AdminStep) :
    EveryStep FlagRun.step (fun r label r' => r'.UpdatesKept ∧ r.FailureKept label r')
        (.init file) labels ↔
      EveryStep FlagRun.step (fun r label _ => r.WritesCurrent label) (.init file) labels := by
  have hinit : (FlagRun.init file).NamedWritten ∧ (FlagRun.init file).UpdatesKept :=
    ⟨fun _ hcall => (nomatch hcall), FlagRun.updatesKept_init file⟩
  apply Iff.intro
  · apply EveryStep.imp (fun r => r.NamedWritten ∧ r.UpdatesKept) _ hinit
    intro r label r' ⟨hnamed, h⟩ hstep hkept
    exact ⟨(FlagRun.step_iff hnamed h hstep).mp hkept, hnamed.step hstep, hkept.1⟩
  · apply EveryStep.imp (fun r => r.NamedWritten ∧ r.UpdatesKept) _ hinit
    intro r label r' ⟨hnamed, h⟩ hstep hcurrent
    have hkept := (FlagRun.step_iff hnamed h hstep).mpr hcurrent
    exact ⟨hkept, hnamed.step hstep, hkept.1⟩

/-- Two calls on different flags take their snapshots before either writes. -/
def overlappingCalls : List AdminStep :=
  [.setPauseFlags { streamCreation := true }, .setPauseFlags { ingestion := true },
    .persist 0, .complete 0, .persist 1, .complete 1]

/-- The later one takes the earlier one's flag back, in memory and in the file. -/
theorem overlappingCalls_loseUpdate : ¬ ∀ (labels : List AdminStep) (r : FlagRun),
    run FlagRun.step (.init none) labels = some r →
      (∀ call ∈ r.state.calls, call.progress ≠ .written) →
        r.state.pauseFlags = r.intended ∧ hydratePauseFlags r.state.file = r.intended := by
  intro hkept
  obtain ⟨r, hrun, hsettled, hmemory, hintended⟩ : ∃ r,
      run FlagRun.step (.init none) overlappingCalls = some r ∧
        (r.state.calls.all fun call => call.progress matches .returned _) = true ∧
          r.state.pauseFlags = { ingestion := true } ∧
            r.intended = { streamCreation := true, ingestion := true } :=
    ⟨_, rfl, rfl, rfl, rfl⟩
  have hboth := hkept _ r hrun fun call hcall hwritten => by
    have hreturned := List.all_eq_true.mp hsettled call hcall
    rw [hwritten] at hreturned
    cases hreturned
  rw [hmemory, hintended] at hboth
  exact absurd hboth.1 (by decide)

end Fluxora.State
