/-
# Tasks that nothing will finish

A task that waits in the queue is taken by the next slot that becomes free, so it depends on a
worker that is starting or executing. Two slips break this.
-/

import Fluxora.Pii.PoolSteps

namespace Fluxora.Pii

open Lib.Split Lib.Transition

namespace PoolState

variable {μ ρ : Type} {c : PoolConfig μ ρ} {s : PoolState μ ρ} {slot : WorkerSlot μ}

/-- Nothing has been posted to a worker after its error, and while a task is queued a live
worker is starting or executing one. -/
structure Attended (s : PoolState μ ρ) : Prop where
  silent : ∀ slot ∈ s.slots, slot.phase = .errored → slot.inbox = []
  draining : s.queue ≠ [] → ∃ slot ∈ s.slots, slot.Working

/-- What a pool owes to its tasks and its host. -/
structure Sound (c : PoolConfig μ ρ) (s : PoolState μ ρ) : Prop extends Attended s where
  once : (s.settled.map fun entry => entry.1.taskId).Nodup
  own : ∀ entry ∈ s.settled, Own c entry.1.message entry.2
  bounded : s.slots.length ≤ c.maxWorkers

/-- The step leaves the pool sound, and what `exec` answers at once belongs to its message. -/
def SoundStep (c : PoolConfig μ ρ) (s : PoolState μ ρ) (label : PoolLabel μ ρ)
    (s' : PoolState μ ρ) : Prop :=
  s'.Sound c ∧ ∀ message constructs outcome, label = .exec message constructs →
    (s.exec c message constructs).2 = .settled outcome → Own c message outcome

/-- The first idle slot has a live worker; if there is none and the task goes to the queue,
some worker lives. -/
def ExecAttended (c : PoolConfig μ ρ) (s : PoolState μ ρ) : Prop :=
  match s.findIdleSlot with
  | some i => ∀ slot, s.slots[i]? = some slot → slot.phase ≠ .errored
  | none => s.slots.length < c.maxWorkers ∨ c.maxQueueSize ≤ s.queue.length ∨
      ∃ slot ∈ s.slots, slot.phase ≠ .errored

/-- No task is queued when the worker fails, or the worker is starting and another one
lives. -/
def ErrorAttended (s : PoolState μ ρ) (i : ℕ) : Prop :=
  s.queue = [] ∨ (∃ slot, s.slots[i]? = some slot ∧ slot.phase = .starting) ∧
    ∃ other ∈ s.slots.eraseIdx i, other.phase ≠ .errored

/-- The step meets no dead worker. -/
def MeetsLive (c : PoolConfig μ ρ) (s : PoolState μ ρ) : PoolLabel μ ρ → Prop
  | .exec message _ => s.Placed c message → s.ExecAttended c
  | .error i _ => s.ErrorAttended i
  | _ => True

theorem live_of_working (h : slot.Working) : slot.phase ≠ .errored := by
  rcases h with hphase | ⟨hphase, -⟩
  · rw [hphase]
    decide
  · rw [hphase]
    decide

theorem Inv.working_iff (hinv : s.Inv c) (hqueue : s.queue ≠ [])
    (hslot : slot ∈ s.slots) : slot.Working ↔ slot.phase ≠ .errored :=
  ⟨live_of_working, (hinv.consistent slot hslot).working (hinv.busy hqueue slot hslot)⟩

theorem Next.attended {queue rest : List (PendingTask μ)} {next : WorkerSlot μ}
    (hnext : Next queue slot next rest) (hlive : slot.phase = .online) :
    (next.phase = .errored → next.inbox = []) ∧ (rest ≠ [] → next.Working) := by
  cases hnext with
  | rests =>
    refine ⟨fun h => ?_, fun h => absurd rfl h⟩
    rw [hlive] at h
    cases h
  | continues next =>
    refine ⟨fun h => ?_, fun _ => Or.inr ⟨hlive, (List.concat_ne_nil _ _)⟩⟩
    rw [show (slot.assign next).phase = slot.phase from rfl, hlive] at h
    cases h

variable {label : PoolLabel μ ρ} {s' : PoolState μ ρ}

theorem attended_step_iff (hinv : s.Inv c) (hatt : s.Attended) (hstep : s.step c label = some s') :
    s'.Attended ↔ s.MeetsLive c label := by
  cases effect hinv hstep with
  | refused _ _ hplaced => exact iff_of_true hatt fun h => absurd h hplaced
  | assigns message constructs _ _ slot hslots hidle hplaced hfirst =>
    obtain ⟨-, -, hempty⟩ := hinv.idle (hslots ▸ List.mem_append_cons_self) hidle
    have hmeets : s.MeetsLive c (.exec message constructs) ↔ slot.phase ≠ .errored := by
      rw [MeetsLive, imp_iff_right hplaced, ExecAttended, hfirst]
      dsimp only
      rw [getElem?_split hslots]
      exact ⟨fun h => h slot rfl, fun h other hother => Option.some.inj hother ▸ h⟩
    rw [hmeets]
    apply Iff.intro
    · intro hatt' hdead
      exact List.concat_ne_nil _ _
        (hatt'.silent (slot.assign _) List.mem_append_cons_self hdead)
    · intro hlive
      refine ⟨forall_split (hslots ▸ hatt.silent) fun h => absurd h hlive, ?_⟩
      exact fun hne => absurd hempty hne
  | creates _ hroom _ hbusy =>
    refine iff_of_true ⟨?_, ?_⟩ ?_
    · intro slot hslot
      rcases List.mem_append.mp hslot with hold | hnew
      · exact hatt.silent slot hold
      · rw [List.mem_singleton.mp hnew]
        exact fun _ => rfl
    · intro hne
      exact absurd (hinv.full hne) (not_le.mpr hroom)
    · intro _
      rw [ExecAttended, hbusy]
      exact Or.inl hroom
  | settles _ _ _ _ _ _ hbusy hreason =>
    refine iff_of_true ⟨hatt.silent, hatt.draining⟩ ?_
    intro _
    rw [ExecAttended, hbusy]
    exact hreason.imp (·.1) fun h => Or.inl h.2.1
  | queues message constructs hplaced hbusy hfull hroom =>
    have hbusy' := busy_of_findIdleSlot hbusy
    have hmeets : s.MeetsLive c (.exec message constructs) ↔
        ∃ slot ∈ s.slots, slot.phase ≠ .errored := by
      rw [MeetsLive, imp_iff_right hplaced, ExecAttended, hbusy]
      dsimp only
      rw [or_iff_right (not_lt.mpr hfull), or_iff_right (not_le.mpr hroom)]
    rw [hmeets]
    apply Iff.intro
    · intro hatt'
      obtain ⟨slot, hslot, hworking⟩ := hatt'.draining (List.concat_ne_nil _ _)
      exact ⟨slot, hslot, live_of_working hworking⟩
    · rintro ⟨slot, hslot, hlive⟩
      exact ⟨hatt.silent, fun _ =>
        ⟨slot, hslot, (hinv.consistent slot hslot).working (hbusy' slot hslot) hlive⟩⟩
  | starts _ _ _ _ hslots =>
    refine iff_of_true ⟨forall_split (hslots ▸ hatt.silent) nofun, fun _ => ?_⟩ trivial
    exact ⟨_, List.mem_append_cons_self, Or.inr ⟨rfl, (List.concat_ne_nil _ _)⟩⟩
  | answers _ _ _ next _ _ _ hslots _ _ _ hnext =>
    obtain ⟨hsilent, hworking⟩ := hnext.attended rfl
    refine iff_of_true ⟨forall_split (hslots ▸ hatt.silent) hsilent, fun hne => ?_⟩ trivial
    exact ⟨next, List.mem_append_cons_self, hworking hne⟩
  | crashes _ _ slot _ _ _ _ _ hslots htask _ hnext =>
    have hslot := hinv.consistent slot (hslots ▸ List.mem_append_cons_self)
    cases hnext with
    | rests hqueue =>
      refine iff_of_true ⟨forall_split (hslots ▸ hatt.silent) fun _ => rfl, ?_⟩ (Or.inl hqueue)
      exact fun hne => absurd rfl hne
    | continues _ _ hqueue =>
      refine iff_of_false ?_ ?_
      · intro hatt'
        exact List.concat_ne_nil _ _ (hatt'.silent _ List.mem_append_cons_self rfl)
      · rintro (hempty | ⟨⟨other, hother, hphase⟩, -⟩)
        · rw [hempty] at hqueue
          cases hqueue
        · rw [getElem?_split hslots] at hother
          cases hother
          rw [(hslot.starting hphase).1] at htask
          cases htask
  | failsToStart before _ slot _ _ _ hslots htask =>
    have hslot := hinv.consistent slot (hslots ▸ List.mem_append_cons_self)
    have hphase := hslot.phase_of_startup htask
    have hstarting : ∃ other, s.slots[before.length]? = some other ∧ other.phase = .starting :=
      ⟨slot, getElem?_split hslots, hphase⟩
    rw [MeetsLive, ErrorAttended, and_iff_right hstarting, hslots, eraseIdx_split]
    apply Iff.intro
    · intro hatt'
      refine or_iff_not_imp_left.mpr fun hne => ?_
      obtain ⟨other, hother, hworking⟩ := hatt'.draining hne
      rcases List.mem_append.mp hother with hbefore | hafter
      · exact ⟨other, List.mem_append_left _ hbefore, live_of_working hworking⟩
      · rcases List.mem_cons.mp hafter with rfl | hafter
        · exact absurd rfl (live_of_working hworking)
        · exact ⟨other, List.mem_append_right _ hafter, live_of_working hworking⟩
    · intro hmeets
      refine ⟨forall_split (hslots ▸ hatt.silent) fun _ => rfl, fun hne => ?_⟩
      obtain ⟨other, hother, hlive⟩ := hmeets.resolve_left hne
      have hold : other ∈ s.slots := hslots ▸ mem_split hother
      exact ⟨other, mem_split hother, (hinv.working_iff hne hold).mpr hlive⟩
  | failsIdle _ _ _ _ hslots _ hidle =>
    obtain ⟨-, -, hempty⟩ := hinv.idle (hslots ▸ List.mem_append_cons_self) hidle
    refine iff_of_true ⟨forall_split (hslots ▸ hatt.silent) fun _ => rfl, ?_⟩ (Or.inl hempty)
    exact fun hne => absurd hempty hne
  | shutdown => exact iff_of_true ⟨hatt.silent, fun h => absurd rfl h⟩ trivial
  | terminated hclosed =>
    exact iff_of_true ⟨nofun, fun hne => absurd (hinv.closed hclosed) hne⟩ trivial

theorem Inv.sound (hinv : s.Inv c) (hatt : s.Attended) : s.Sound c :=
  ⟨hatt, hinv.nodup_settled, hinv.own, hinv.bounded⟩

theorem own_of_exec {message : μ} {constructs : Bool} {outcome : Outcome ρ}
    (hexec : (s.exec c message constructs).2 = .settled outcome) : Own c message outcome := by
  by_cases hplaced : s.Placed c message
  · rw [exec_placed hplaced] at hexec
    cases hexec
  · obtain ⟨outcome', hown, hexec'⟩ := exec_refused hplaced constructs
    rw [hexec'] at hexec
    cases hexec
    exact hown

theorem soundStep_iff (hinv : s.Inv c) (hatt : s.Attended) (hstep : s.step c label = some s') :
    s.SoundStep c label s' ↔ s.MeetsLive c label := by
  rw [← attended_step_iff hinv hatt hstep]
  refine ⟨fun h => h.1.toAttended, fun h => ⟨(hinv.step hstep).sound h, ?_⟩⟩
  intro message constructs outcome _ hexec
  exact own_of_exec hexec

end PoolState

/-- A pool of one worker, with a fallback. -/
def onePool : PoolConfig Unit Unit :=
  ⟨1, 1000, fun _ => .ok (), some fun _ => .ok (), fun _ _ => true, Nat.one_pos⟩

end Fluxora.Pii
