/-
# What a pool can take, and when it is done

A new pool takes as many tasks at once as it has workers and places in its queue. Its workers
can only act so often before new tasks come, and while a live worker has work it can act, so
that the pool comes to rest.
-/

import Fluxora.Pii.PoolPromises

namespace Fluxora.Pii

open Lib.Split Lib.Transition

variable {μ ρ : Type}

/-- A worker starts or answers. -/
def PoolLabel.isWork : PoolLabel μ ρ → Bool
  | .online _ => true
  | .message _ _ => true
  | _ => false

/-- An event of a worker. -/
def PoolLabel.isEvent : PoolLabel μ ρ → Bool
  | .error _ _ => true
  | label => label.isWork

namespace WorkerSlot

/-- How many events the worker of a slot may still have. -/
def weight (slot : WorkerSlot μ) : ℕ :=
  match slot.phase with
  | .starting => 3
  | .online => 1 + slot.inbox.length
  | .errored => 0

variable (slot : WorkerSlot μ)

theorem weight_pos (hlive : slot.phase ≠ .errored) : 0 < slot.weight := by
  rw [weight]
  cases hphase : slot.phase with
  | starting => exact Nat.succ_pos _
  | online => exact Nat.add_pos_left Nat.one_pos _
  | errored => exact absurd hphase hlive

theorem weight_assign_le (task : PendingTask μ) : (slot.assign task).weight ≤ slot.weight + 1 := by
  rw [weight, weight, assign]
  cases slot.phase with
  | starting => exact Nat.le_succ _
  | online => exact le_of_eq (congrArg (1 + ·) List.length_append)
  | errored => exact Nat.zero_le _

end WorkerSlot

namespace PoolState

variable {c : PoolConfig μ ρ} {s s' : PoolState μ ρ} {value : μ → ρ}

/-! ## Rest -/

def weight (s : PoolState μ ρ) : ℕ :=
  2 * s.queue.length + (s.slots.map WorkerSlot.weight).sum

theorem weight_split {before after : List (WorkerSlot μ)} {slot : WorkerSlot μ}
    (hslots : s.slots = before ++ slot :: after) :
    s.weight =
      2 * s.queue.length + slot.weight + ((before ++ after).map WorkerSlot.weight).sum := by
  rw [weight, hslots, List.map_append, List.map_cons, List.sum_append, List.sum_cons,
    List.map_append, List.sum_append]
  omega

theorem Next.weight_le {queue rest : List (PendingTask μ)} {slot next : WorkerSlot μ}
    (hnext : Next queue slot next rest) :
    2 * rest.length + next.weight ≤ 2 * queue.length + slot.weight := by
  cases hnext with
  | rests hqueue =>
    rw [hqueue]
  | continues next _ hqueue =>
    have hle := slot.weight_assign_le next
    rw [hqueue, List.length_cons]
    omega

theorem weight_lt_of_event (hinv : s.Inv c) {label : PoolLabel μ ρ} (hevent : label.isEvent = true)
    (hstep : s.step c label = some s') : s'.weight < s.weight := by
  cases effect hinv hstep with
  | starts _ _ slot task hslots htask =>
    have hslot := hinv.consistent slot (hslots ▸ List.mem_append_cons_self)
    have hphase := hslot.phase_of_startup htask
    have hinbox : slot.inbox = [] := by
      rw [hslot.inbox, (hslot.starting hphase).1]
      rfl
    have hweight : ({ slot with phase := .online, startup := none : WorkerSlot μ }.assign
        task).weight = 2 := by
      change 1 + (slot.inbox ++ [task.message]).length = 2
      rw [hinbox]
      rfl
    have hslot' : slot.weight = 3 := by rw [WorkerSlot.weight, hphase]
    rw [weight_split hslots, weight_split rfl, hweight, hslot']
    exact Nat.add_lt_add_right (Nat.add_lt_add_left (by decide) _) _
  | answers _ _ slot _ _ _ _ hslots htask hphase _ hnext =>
    have hslot := hinv.consistent slot (hslots ▸ List.mem_append_cons_self)
    have hweight : slot.weight = 2 := by
      rw [WorkerSlot.weight, hphase, hslot.inbox, htask]
      rfl
    have hle := hnext.weight_le
    have hrelease : (slot.release .online slot.healthy).weight = 1 := rfl
    rw [weight_split hslots, weight_split rfl]
    dsimp only
    omega
  | crashes _ _ slot _ _ _ _ _ hslots _ hlive hnext =>
    have hslot := hinv.consistent slot (hslots ▸ List.mem_append_cons_self)
    have hweight : 0 < slot.weight := slot.weight_pos hlive
    have hle := hnext.weight_le
    have hrelease : (slot.release .errored false).weight = 0 := rfl
    rw [weight_split hslots, weight_split rfl]
    dsimp only
    omega
  | failsToStart _ _ slot _ _ _ hslots htask =>
    have hslot := hinv.consistent slot (hslots ▸ List.mem_append_cons_self)
    have hweight : 0 < slot.weight := by
      refine slot.weight_pos ?_
      rw [hslot.phase_of_startup htask]
      decide
    rw [weight_split hslots, weight_split rfl]
    exact Nat.add_lt_add_right (Nat.add_lt_add_left hweight _) _
  | failsIdle _ _ slot _ hslots hphase =>
    have hweight : 0 < slot.weight := by
      refine slot.weight_pos ?_
      rw [hphase]
      decide
    rw [weight_split hslots, weight_split rfl]
    exact Nat.add_lt_add_right (Nat.add_lt_add_left hweight _) _
  | _ => cases hevent

theorem length_le_weight (hinv : s.Inv c) {events : List (PoolLabel μ ρ)}
    (hevents : ∀ label ∈ events, label.isEvent = true) {t : PoolState μ ρ}
    (hrun : run (PoolState.step c) s events = some t) : events.length ≤ s.weight := by
  induction events generalizing s with
  | nil => exact Nat.zero_le _
  | cons _ _ ih =>
    rw [run, Option.bind_eq_some_iff] at hrun
    obtain ⟨s', hstep, hrest⟩ := hrun
    obtain ⟨hevent, hevents'⟩ := List.forall_mem_cons.mp hevents
    exact Nat.succ_le_of_lt (lt_of_le_of_lt (ih (hinv.step hstep) hevents' hrest)
      (weight_lt_of_event hinv hevent hstep))

theorem exists_work (hcomputes : c.Computes value) (hinv : s.Inv c) (hbusy : ¬ s.Resting) :
    ∃ label, label.isWork = true ∧ (s.step c label).isSome = true := by
  rw [Resting] at hbusy
  push Not at hbusy
  obtain ⟨slot, hslot, hworking⟩ := hbusy
  have hconsistent := hinv.consistent slot hslot
  obtain ⟨i, hi⟩ := List.mem_iff_getElem?.mp hslot
  rcases hworking with hphase | ⟨hphase, hinbox⟩
  · obtain ⟨task, htask⟩ := Option.ne_none_iff_exists'.mp (hconsistent.startup.mpr hphase)
    refine ⟨.online i, rfl, ?_⟩
    rw [step, onlineEvent, hi, Option.bind_eq_bind, Option.bind_some, htask]
    rfl
  · obtain ⟨task, htask⟩ : ∃ task, slot.listener = some task := by
      refine Option.ne_none_iff_exists'.mp fun hnone => hinbox ?_
      rw [hconsistent.inbox, hnone]
      rfl
    have hmessage : slot.inbox = [task.message] := by
      rw [hconsistent.inbox, htask]
      rfl
    have hanswers := (hcomputes.answers task.message _).mpr rfl
    refine ⟨.message i (.result (value task.message)), rfl, ?_⟩
    rw [step, messageEvent, hi, Option.bind_eq_bind, Option.bind_some, hmessage, htask]
    simp only [List.head?_cons, Option.bind_eq_bind, Option.bind_some]
    rw [if_pos ⟨hphase, hanswers⟩]
    rfl

theorem exists_rest (hcomputes : c.Computes value) (hinv : s.Inv c) :
    ∃ events t, (∀ label ∈ events, label.isWork = true) ∧
      run (PoolState.step c) s events = some t ∧ t.Resting := by
  induction hweight : s.weight using Nat.strong_induction_on generalizing s with
  | _ _ ih =>
    by_cases hrest : s.Resting
    · exact ⟨[], s, nofun, rfl, hrest⟩
    · obtain ⟨label, hwork, hsome⟩ := exists_work hcomputes hinv hrest
      obtain ⟨s', hstep⟩ := Option.isSome_iff_exists.mp hsome
      have hevent : label.isEvent = true := by
        cases label with
        | error => rfl
        | _ => exact hwork
      have hlt := weight_lt_of_event hinv hevent hstep
      obtain ⟨events, t, hevents, hrun, ht⟩ := ih _ (hweight ▸ hlt) (hinv.step hstep) rfl
      exact ⟨label :: events, t, List.forall_mem_cons.mpr ⟨hwork, hevents⟩,
        (run_cons hstep events).trans hrun, ht⟩

/-! ## Capacity -/

/-- A new pool after it has taken `k` tasks at once. -/
structure Filling (c : PoolConfig μ ρ) (s : PoolState μ ρ) (k : ℕ) : Prop where
  opened : s.shutdownFlag = false
  working : s.allWorkersFailed = false
  busy : ∀ slot ∈ s.slots, slot.busy = true ∧ slot.phase ≠ .errored
  slots : s.slots.length = min k c.maxWorkers
  queue : s.queue.length = k - c.maxWorkers

theorem filling_start : Filling c ({} : PoolState μ ρ) 0 :=
  ⟨rfl, rfl, nofun, (Nat.zero_min _).symm, (Nat.zero_sub _).symm⟩

variable {k : ℕ}

theorem Filling.findIdleSlot (hfill : Filling c s k) : s.findIdleSlot = none := by
  refine List.findIdx?_eq_none_iff.mpr fun slot hslot => ?_
  rw [(hfill.busy slot hslot).1]
  rfl

theorem Filling.degraded (hfill : Filling c s k) : s.degraded c = none := by
  rw [PoolState.degraded, hfill.working]
  exact Option.filter_eq_none_iff.mpr fun _ _ => Bool.false_ne_true

theorem Filling.admits_iff (hfill : Filling c s k) (message : μ) :
    s.Admits c message true ↔
      c.validateTaskMessage message = .ok () ∧ k < c.maxWorkers + c.maxQueueSize := by
  have hslots := hfill.slots
  have hqueue := hfill.queue
  have hpos := c.maxWorkers_pos
  rw [Admits, hfill.opened, hfill.degraded, hfill.findIdleSlot]
  refine (and_iff_right rfl).trans (and_congr_right' ((forall_prop_of_true rfl).trans ?_))
  apply Iff.intro
  · rintro (⟨hshort, -⟩ | ⟨hfull, hroom, -⟩)
    · omega
    · omega
  · intro hk
    by_cases hroom : k < c.maxWorkers
    · exact Or.inl ⟨by omega, Or.inl rfl⟩
    · obtain ⟨slot, hslot⟩ : ∃ slot, slot ∈ s.slots := by
        refine List.exists_mem_of_ne_nil _ fun hnil => ?_
        rw [hnil, List.length_nil] at hslots
        omega
      exact Or.inr ⟨by omega, by omega, slot, hslot, (hfill.busy slot hslot).2⟩

theorem Filling.exec (hfill : Filling c s k) {message : μ}
    (hvalid : c.validateTaskMessage message = .ok ()) (hk : k < c.maxWorkers + c.maxQueueSize) :
    Filling c (s.exec c message true).1 (k + 1) := by
  have hslots := hfill.slots
  have hqueue := hfill.queue
  have hidle : PoolState.findIdleSlot { s with nextTaskId := s.nextTaskId + 1 } = none :=
    hfill.findIdleSlot
  rw [exec_placed ⟨hfill.opened, hvalid, hfill.degraded⟩, place, hidle]
  dsimp only
  split_ifs with hroom hlong
  · refine ⟨hfill.opened, hfill.working, ?_, ?_, ?_⟩
    · intro slot hslot
      rcases List.mem_append.mp hslot with hold | hnew
      · exact hfill.busy slot hold
      · rw [List.mem_singleton.mp hnew]
        exact ⟨rfl, fun hnone => by cases hnone⟩
    · change (s.slots ++ [_]).length = _
      rw [List.length_append, List.length_singleton]
      omega
    · change s.queue.length = _
      omega
  · omega
  · refine ⟨hfill.opened, hfill.working, hfill.busy, ?_, ?_⟩
    · change s.slots.length = _
      omega
    · rw [List.length_append, List.length_singleton]
      omega

theorem Filling.admitsAll_iff (messages : List μ) (hfill : Filling c s k)
    (hk : k ≤ c.maxWorkers + c.maxQueueSize) :
    AdmitsAll c s (messages.map fun message => (message, true)) ↔
      (∀ message ∈ messages, c.validateTaskMessage message = .ok ()) ∧
        k + messages.length ≤ c.maxWorkers + c.maxQueueSize := by
  induction messages generalizing s k with
  | nil => exact iff_of_true trivial ⟨nofun, hk⟩
  | cons _ _ ih =>
    rw [List.map_cons, AdmitsAll, hfill.admits_iff, List.forall_mem_cons, List.length_cons]
    apply Iff.intro
    · rintro ⟨⟨hvalid, hroom⟩, hrest⟩
      obtain ⟨hvalid', hlength⟩ := (ih (hfill.exec hvalid hroom) hroom).mp hrest
      exact ⟨⟨hvalid, hvalid'⟩, by omega⟩
    · rintro ⟨⟨hvalid, hvalid'⟩, hlength⟩
      have hroom : k < c.maxWorkers + c.maxQueueSize := by omega
      exact ⟨⟨hvalid, hroom⟩, (ih (hfill.exec hvalid hroom) hroom).mpr ⟨hvalid', by omega⟩⟩

/-- A new pool whose workers can be constructed takes a batch just if every message is valid
and there is a worker or a place in the queue for each. -/
theorem admitsAll_start_iff (messages : List μ) :
    AdmitsAll c ({} : PoolState μ ρ) (messages.map fun message => (message, true)) ↔
      (∀ message ∈ messages, c.validateTaskMessage message = .ok ()) ∧
        messages.length ≤ c.maxWorkers + c.maxQueueSize := by
  rw [filling_start.admitsAll_iff messages (Nat.zero_le _), Nat.zero_add]

end PoolState

end Fluxora.Pii
