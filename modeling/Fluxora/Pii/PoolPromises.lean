/-
# The promises of a batch of tasks

A batch of messages is given to a pool at once, and its promises are awaited together. When the
pool has come to rest, the promises have all been resolved just if every message was admitted and
no step since has given up one of the tasks.
-/

import Fluxora.Lib.KeyedTable
import Fluxora.Pii.KeptTasks

namespace Fluxora.Pii

open Lib.KeyedTable Lib.Split Lib.Transition

variable {μ ρ : Type}

/-- What a promise has been settled with so far. -/
def PoolPromise.outcome (s : PoolState μ ρ) : PoolPromise ρ → Option (Outcome ρ)
  | .settled outcome => some outcome
  | .pending taskId =>
    (s.settled.find? fun entry => entry.1.taskId = taskId).map fun entry => entry.2

inductive BatchOutcome (α : Type)
  | pending
  | rejected
  | resolved (values : List α)
  deriving DecidableEq

def isRejection : Option (Outcome ρ) → Bool
  | some (.error _) => true
  | _ => false

/-- `Promise.all`, without the error of a rejection. -/
def promiseAll (outcomes : List (Option (Outcome ρ))) : BatchOutcome ρ :=
  if outcomes.any isRejection then .rejected
  else
    match outcomes.mapM fun outcome => outcome.bind Except.toOption with
    | some values => .resolved values
    | none => .pending

theorem toOption_eq_some_iff {outcome : Option (Outcome ρ)} {value : ρ} :
    outcome.bind Except.toOption = some value ↔ outcome = some (.ok value) := by
  rcases outcome with _ | _ | found
  · exact iff_of_false nofun nofun
  · exact iff_of_false nofun nofun
  · exact ⟨fun h => congrArg (some ∘ Except.ok) (Option.some.inj h), fun h => by cases h; rfl⟩

variable {outcomes : List (Option (Outcome ρ))} {values : List ρ}

theorem mapM_value_iff :
    (outcomes.mapM fun outcome => outcome.bind Except.toOption) = some values ↔
      outcomes = values.map fun value => some (.ok value) := by
  induction outcomes generalizing values with
  | nil =>
    cases values with
    | nil => exact iff_of_true rfl rfl
    | cons => exact iff_of_false nofun nofun
  | cons _ _ ih =>
    rw [List.mapM_cons, Option.bind_eq_bind, Option.bind_eq_some_iff]
    apply Iff.intro
    · rintro ⟨value, hvalue, htail⟩
      rw [Option.bind_eq_bind, Option.bind_eq_some_iff] at htail
      obtain ⟨tail, htail, hcons⟩ := htail
      cases hcons
      rw [toOption_eq_some_iff.mp hvalue, ih.mp htail, List.map_cons]
    · cases values with
      | nil => exact nofun
      | cons value =>
        intro h
        obtain ⟨hvalue, htail⟩ := List.cons.inj h
        refine ⟨value, toOption_eq_some_iff.mpr hvalue, ?_⟩
        rw [ih.mpr htail]
        rfl

theorem promiseAll_eq_resolved_iff :
    promiseAll outcomes = .resolved values ↔
      outcomes = values.map fun value => some (.ok value) := by
  rw [promiseAll]
  apply Iff.intro
  · intro h
    split_ifs at h with hrejected
    split at h
    · rename_i found hfound
      cases h
      exact mapM_value_iff.mp hfound
    · cases h
  · intro h
    have hnone : ¬ outcomes.any isRejection = true := by
      rw [h, List.any_eq_true]
      rintro ⟨outcome, hmem, hrejection⟩
      obtain ⟨value, -, rfl⟩ := List.mem_map.mp hmem
      cases hrejection
    rw [if_neg hnone, mapM_value_iff.mpr h]

namespace PoolState

variable {c : PoolConfig μ ρ} {s s' : PoolState μ ρ} {task : PendingTask μ} {value : μ → ρ}
  {label : PoolLabel μ ρ}

/-- The messages are given to the pool one after the other, each with the outcome of the
construction of a worker, if it comes to that. -/
def execAll (c : PoolConfig μ ρ) : PoolState μ ρ → List (μ × Bool) →
    PoolState μ ρ × List (PoolPromise ρ)
  | s, [] => (s, [])
  | s, (message, constructs) :: rest =>
    let (s', promise) := s.exec c message constructs
    let (final, promises) := execAll c s' rest
    (final, promise :: promises)

/-- The pool takes the message, and not for a dead worker. -/
def Admits (c : PoolConfig μ ρ) (s : PoolState μ ρ) (message : μ) (constructs : Bool) : Prop :=
  s.shutdownFlag = false ∧ c.validateTaskMessage message = .ok () ∧
    (s.degraded c = none →
      match s.findIdleSlot with
      | some i => ∀ slot, s.slots[i]? = some slot → slot.phase ≠ .errored
      | none =>
        s.slots.length < c.maxWorkers ∧ (constructs = true ∨ c.fallbackFn.isSome = true) ∨
          c.maxWorkers ≤ s.slots.length ∧ s.queue.length < c.maxQueueSize ∧
            ∃ slot ∈ s.slots, slot.phase ≠ .errored)

/-- Every message of a batch is admitted in its turn. -/
def AdmitsAll (c : PoolConfig μ ρ) : PoolState μ ρ → List (μ × Bool) → Prop
  | _, [] => True
  | s, (message, constructs) :: rest =>
    s.Admits c message constructs ∧ AdmitsAll c (s.exec c message constructs).1 rest

/-! ## Tasks keep their messages -/

/-- The task is somewhere in the pool. -/
def Place (s : PoolState μ ρ) (task : PendingTask μ) : Prop :=
  (∃ outcome, (task, outcome) ∈ s.settled) ∨ task ∈ s.queue ∨ ∃ slot ∈ s.slots, task ∈ slot.tasks

theorem Inv.lt_of_place (hinv : s.Inv c) (hplace : s.Place task) :
    task.taskId < s.nextTaskId := by
  have honce := hinv.once task.taskId
  rw [holders] at honce
  by_contra hnew
  rw [if_neg hnew] at honce
  rcases hplace with ⟨outcome, hsettled⟩ | hqueue | ⟨slot, hslot, htask⟩
  · have hpos := count_pos_of_settled hsettled
    omega
  · have hpos := count_pos_of_mem hqueue
    omega
  · have hpos := sum_pos_of_mem hslot htask
    omega

theorem place_split_iff {before after : List (WorkerSlot μ)} {slot : WorkerSlot μ}
    (hslots : s.slots = before ++ slot :: after) :
    s.Place task ↔ (∃ outcome, (task, outcome) ∈ s.settled) ∨ task ∈ s.queue ∨
      task ∈ slot.tasks ∨ ∃ other ∈ before ++ after, task ∈ other.tasks := by
  rw [Place, hslots, exists_split_iff]

theorem exists_settled_concat {settled : List (PendingTask μ × Outcome ρ)}
    {done : PendingTask μ} {outcome : Outcome ρ} :
    (∃ found, (task, found) ∈ settled ++ [(done, outcome)]) ↔
      (∃ found, (task, found) ∈ settled) ∨ task = done := by
  apply Iff.intro
  · rintro ⟨found, hmem⟩
    rcases List.mem_append.mp hmem with hold | hnew
    · exact Or.inl ⟨found, hold⟩
    · exact Or.inr (Prod.mk.inj (List.mem_singleton.mp hnew)).1
  · rintro (⟨found, hold⟩ | rfl)
    · exact ⟨found, List.mem_append_left _ hold⟩
    · exact ⟨outcome, List.mem_append_right _ List.mem_cons_self⟩

theorem place_release {before after : List (WorkerSlot μ)} {slot slot' : WorkerSlot μ}
    {done : PendingTask μ} {outcome : Outcome ρ} (hslots : s.slots = before ++ slot :: after)
    (hdone : slot.tasks = [done]) (hmoved : task ∈ slot'.tasks ∨ task ∈ s'.queue ↔ task ∈ s.queue)
    (hslots' : s'.slots = before ++ slot' :: after)
    (hsettled' : s'.settled = s.settled ++ [(done, outcome)]) (hplace : s'.Place task) :
    s.Place task := by
  rw [place_split_iff hslots', hsettled', exists_settled_concat] at hplace
  rw [place_split_iff hslots, hdone, List.mem_singleton]
  rcases hplace with (h | h) | h | h | h
  · exact Or.inl h
  · exact Or.inr (Or.inr (Or.inl h))
  · exact Or.inr (Or.inl (hmoved.mp (Or.inr h)))
  · exact Or.inr (Or.inl (hmoved.mp (Or.inl h)))
  · exact Or.inr (Or.inr (Or.inr h))

theorem place_step (hinv : s.Inv c) (hstep : s.step c label = some s')
    (hplace : s'.Place task) : s.Place task ∨ ∃ message constructs,
      label = .exec message constructs ∧ task = ⟨s.nextTaskId, message⟩ := by
  cases effect hinv hstep with
  | refused => exact Or.inl hplace
  | assigns message constructs _ _ _ hslots hidle =>
    obtain ⟨-, hlistener, -⟩ := hinv.idle (hslots ▸ List.mem_append_cons_self) hidle
    rw [place_split_iff rfl, WorkerSlot.tasks_assign hlistener, List.mem_append,
      List.mem_singleton] at hplace
    rw [place_split_iff hslots]
    rcases hplace with h | h | (h | h) | h
    · exact Or.inl (Or.inl h)
    · exact Or.inl (Or.inr (Or.inl h))
    · exact Or.inl (Or.inr (Or.inr (Or.inl h)))
    · exact Or.inr ⟨message, constructs, rfl, h⟩
    · exact Or.inl (Or.inr (Or.inr (Or.inr h)))
  | creates message =>
    rw [Place, exists_split_iff, List.append_nil] at hplace
    rcases hplace with h | h | h | h
    · exact Or.inl (Or.inl h)
    · exact Or.inl (Or.inr (Or.inl h))
    · exact Or.inr ⟨message, true, rfl, List.mem_singleton.mp h⟩
    · exact Or.inl (Or.inr (Or.inr h))
  | settles message constructs =>
    rw [Place, exists_settled_concat] at hplace
    rcases hplace with (h | h) | h
    · exact Or.inl (Or.inl h)
    · exact Or.inr ⟨message, constructs, rfl, h⟩
    · exact Or.inl (Or.inr h)
  | queues message constructs =>
    rw [Place, List.mem_append, List.mem_singleton] at hplace
    rcases hplace with h | (h | h) | h
    · exact Or.inl (Or.inl h)
    · exact Or.inl (Or.inr (Or.inl h))
    · exact Or.inr ⟨message, constructs, rfl, h⟩
    · exact Or.inl (Or.inr (Or.inr h))
  | starts _ _ slot done hslots htask =>
    have hslot := hinv.consistent slot (hslots ▸ List.mem_append_cons_self)
    have htasks : ({ slot with phase := .online, startup := none : WorkerSlot μ }.assign
        done).tasks = slot.tasks := (WorkerSlot.tasks_startup hslot htask).symm
    rw [place_split_iff rfl, htasks] at hplace
    rw [place_split_iff hslots]
    exact Or.inl hplace
  | answers _ _ slot _ _ _ _ hslots htask _ _ hnext
  | crashes _ _ slot _ _ _ _ _ hslots htask _ hnext =>
    have hslot := hinv.consistent slot (hslots ▸ List.mem_append_cons_self)
    have hlistener : slot.listener ≠ none := by rw [htask]; exact nofun
    exact Or.inl (place_release hslots (WorkerSlot.tasks_listener hslot htask)
      (hnext.kept task (hslot.tasks_release hlistener) rfl).2 rfl rfl hplace)
  | failsToStart _ _ slot _ _ _ hslots htask =>
    have hslot := hinv.consistent slot (hslots ▸ List.mem_append_cons_self)
    refine Or.inl (place_release hslots (WorkerSlot.tasks_startup hslot htask) ?_ rfl rfl hplace)
    rw [hslot.tasks_failStart htask, iff_false_intro List.not_mem_nil, false_or]
  | failsIdle _ _ _ _ hslots =>
    rw [place_split_iff rfl] at hplace
    rw [place_split_iff hslots]
    exact Or.inl hplace
  | shutdown =>
    rcases hplace with ⟨outcome, h⟩ | h | h
    · rcases List.mem_append.mp h with hold | hnew
      · exact Or.inl (Or.inl ⟨outcome, hold⟩)
      · obtain ⟨other, hother, heq⟩ := List.mem_map.mp hnew
        obtain ⟨rfl, -⟩ := Prod.mk.inj heq
        exact Or.inl (Or.inr (Or.inl hother))
    · cases h
    · exact Or.inl (Or.inr (Or.inr h))
  | terminated =>
    rcases hplace with h | h | ⟨slot, hslot, -⟩
    · exact Or.inl (Or.inl h)
    · exact Or.inl (Or.inr (Or.inl h))
    · cases hslot

theorem nextTaskId_le_step (hinv : s.Inv c)
    (hstep : s.step c label = some s') : s.nextTaskId ≤ s'.nextTaskId := by
  cases effect hinv hstep with
  | assigns | creates | settles | queues => exact Nat.le_succ _
  | _ => exact le_rfl

/-! ## Promises -/

/-- The promise has been made for the message. -/
def Issued (c : PoolConfig μ ρ) (s : PoolState μ ρ) (message : μ) : PoolPromise ρ → Prop
  | .settled outcome => Own c message outcome
  | .pending taskId => taskId < s.nextTaskId ∧
      ∀ task, s.Place task → task.taskId = taskId → task = ⟨taskId, message⟩

def PromiseKept (s : PoolState μ ρ) (message : μ) : PoolPromise ρ → Prop
  | .settled outcome => ∃ value, outcome = .ok value
  | .pending taskId => s.Kept ⟨taskId, message⟩

/-- The step does not give up the task of the promise. -/
def PromiseSpared (c : PoolConfig μ ρ) (s : PoolState μ ρ) (label : PoolLabel μ ρ) (message : μ) :
    PoolPromise ρ → Prop
  | .settled _ => True
  | .pending taskId => s.Spares c ⟨taskId, message⟩ label

variable {message : μ} {promise : PoolPromise ρ}

theorem Issued.step (hinv : s.Inv c) (hstep : s.step c label = some s')
    (hissued : s.Issued c message promise) : s'.Issued c message promise := by
  cases promise with
  | settled => exact hissued
  | pending =>
    obtain ⟨hlt, hown⟩ := hissued
    refine ⟨lt_of_lt_of_le hlt (nextTaskId_le_step hinv hstep), ?_⟩
    intro task hplace hid
    rcases place_step hinv hstep hplace with hold | ⟨new, constructs, -, rfl⟩
    · exact hown task hold hid
    · exact absurd hid (Nat.ne_of_gt hlt)

theorem promiseKept_step_iff (hcomputes : c.Computes value) (hinv : s.Inv c)
    (hstep : s.step c label = some s') (hissued : s.Issued c message promise) :
    s'.PromiseKept message promise ↔
      s.PromiseKept message promise ∧ s.PromiseSpared c label message promise := by
  cases promise with
  | settled => exact (and_iff_left trivial).symm
  | pending => exact kept_step_iff hcomputes hinv hissued.1 hstep

variable {labels : List (PoolLabel μ ρ)}

theorem promisesKept_run_iff (hcomputes : c.Computes value) (calls : List (μ × PoolPromise ρ))
    {t : PoolState μ ρ} (hinv : s.Inv c) (hissued : ∀ call ∈ calls, s.Issued c call.1 call.2)
    (hrun : run (PoolState.step c) s labels = some t) :
    (∀ call ∈ calls, t.Issued c call.1 call.2) ∧
      ((∀ call ∈ calls, t.PromiseKept call.1 call.2) ↔
        (∀ call ∈ calls, s.PromiseKept call.1 call.2) ∧
          EveryStep (PoolState.step c)
            (fun s label _ => ∀ call ∈ calls, s.PromiseSpared c label call.1 call.2) s labels) := by
  induction labels generalizing s with
  | nil =>
    cases hrun
    exact ⟨hissued, (and_iff_left trivial).symm⟩
  | cons _ _ ih =>
    rw [run, Option.bind_eq_some_iff] at hrun
    obtain ⟨s', hstep, hrest⟩ := hrun
    obtain ⟨hissued', hkept⟩ := ih (hinv.step hstep)
      (fun call hcall => (hissued call hcall).step hinv hstep) hrest
    refine ⟨hissued', ?_⟩
    rw [hkept, everyStep_cons hstep, ← and_assoc]
    refine and_congr_left' ?_
    rw [← forall₂_and]
    refine forall₂_congr fun call hcall => ?_
    exact promiseKept_step_iff hcomputes hinv hstep (hissued call hcall)

/-! ## Giving a batch to the pool -/

theorem inv_exec (hinv : s.Inv c) (message : μ) (constructs : Bool) :
    (s.exec c message constructs).1.Inv c :=
  hinv.step (show s.step c (.exec message constructs) = _ from rfl)

theorem place_nextTaskId (task : PendingTask μ) (constructs : Bool) :
    (s.place c task constructs).nextTaskId = s.nextTaskId := by
  rw [place]
  split
  · rfl
  · split_ifs
    · cases constructs with
      | true | false => rfl
    · rfl
    · rfl

theorem issued_exec (hinv : s.Inv c) (message : μ) (constructs : Bool) :
    (s.exec c message constructs).1.Issued c message (s.exec c message constructs).2 := by
  by_cases hplaced : s.Placed c message
  · have hstep : s.step c (.exec message constructs) = some (s.exec c message constructs).1 := rfl
    have hplace := fun task : PendingTask μ => @place_step _ _ _ _ _ task _ hinv hstep
    rw [exec_placed hplaced] at hplace ⊢
    refine ⟨?_, fun task htask hid => ?_⟩
    · rw [place_nextTaskId]
      exact Nat.lt_succ_self _
    · rcases hplace task htask with hold | ⟨new, constructs', hlabel, rfl⟩
      · exact absurd hid (Nat.ne_of_lt (hinv.lt_of_place hold))
      · cases hlabel
        rfl
  · obtain ⟨outcome, hown, hexec⟩ := exec_refused hplaced constructs
    rw [hexec]
    exact hown

theorem Inv.not_place_new (hinv : s.Inv c) : ¬ s.Place ⟨s.nextTaskId, message⟩ :=
  fun h => lt_irrefl _ (hinv.lt_of_place h)

theorem kept_place_iff (hcomputes : c.Computes value) (hinv : s.Inv c)
    (hplaced : s.Placed c message) (constructs : Bool) :
    (place c ⟨s.nextTaskId, message⟩ { s with nextTaskId := s.nextTaskId + 1 } constructs).Kept
        ⟨s.nextTaskId, message⟩ ↔
      match s.findIdleSlot with
      | some i => ∀ slot, s.slots[i]? = some slot → slot.phase ≠ .errored
      | none =>
        s.slots.length < c.maxWorkers ∧ (constructs = true ∨ c.fallbackFn.isSome = true) ∨
          c.maxWorkers ≤ s.slots.length ∧ s.queue.length < c.maxQueueSize ∧
            ∃ slot ∈ s.slots, slot.phase ≠ .errored := by
  have hnew : ¬ s.Place ⟨s.nextTaskId, message⟩ := hinv.not_place_new
  have hsettled : ¬ ∃ found, (⟨s.nextTaskId, message⟩, .ok found) ∈ s.settled :=
    fun ⟨_, h⟩ => hnew (Or.inl ⟨_, h⟩)
  have hqueue : (⟨s.nextTaskId, message⟩ : PendingTask μ) ∉ s.queue :=
    fun h => hnew (Or.inr (Or.inl h))
  have hslot : ∀ slot ∈ s.slots, (⟨s.nextTaskId, message⟩ : PendingTask μ) ∉ slot.tasks :=
    fun slot hslot h => hnew (Or.inr (Or.inr ⟨slot, hslot, h⟩))
  generalize hlabel : PoolLabel.exec message constructs = label
  have heffect := place_effect hplaced constructs
  rw [hlabel] at heffect
  generalize place c ⟨s.nextTaskId, message⟩ { s with nextTaskId := s.nextTaskId + 1 }
    constructs = s' at heffect ⊢
  cases heffect with
  | refused _ _ hrefused =>
    cases hlabel
    exact absurd hplaced hrefused
  | assigns _ _ before _ slot hslots hidle _ hfirst =>
    cases hlabel
    obtain ⟨htasks, hlistener, -⟩ := hinv.idle (hslots ▸ List.mem_append_cons_self) hidle
    have hiff : (∀ other, s.slots[before.length]? = some other → other.phase ≠ .errored) ↔
        slot.phase ≠ .errored := by
      rw [getElem?_split hslots]
      exact ⟨fun h => h slot rfl, fun h other hother => Option.some.inj hother ▸ h⟩
    rw [hfirst, kept_split_iff rfl, WorkerSlot.tasks_assign hlistener, htasks]
    refine Iff.trans ?_ hiff.symm
    apply Iff.intro
    · rintro (hvalue | (⟨-, hlive⟩ | ⟨other, hother, htask, -⟩) | ⟨hqueued, -⟩)
      · exact absurd hvalue hsettled
      · exact hlive
      · exact absurd htask (hslot other (hslots ▸ mem_split hother))
      · exact absurd hqueued hqueue
    · exact fun hlive => Or.inr (Or.inl (Or.inl ⟨List.mem_singleton.mpr rfl, hlive⟩))
  | creates _ hroom _ hbusy =>
    cases hlabel
    rw [hbusy]
    refine iff_of_true
      (Or.inr (Or.inl ⟨_, List.mem_append_right _ List.mem_cons_self, ?_, nofun⟩))
      (Or.inl ⟨hroom, Or.inl rfl⟩)
    exact List.mem_singleton.mpr rfl
  | settles _ _ outcome _ _ _ hbusy hreason =>
    cases hlabel
    rw [hbusy, Kept, exists_mem_concat]
    -- the task is in no other place, so that it is kept just by a value
    refine Iff.trans (b := ∃ found, outcome = .ok found) ?_ ?_
    · apply Iff.intro
      · rintro ((hvalue | ⟨-, hok⟩) | ⟨slot, hmem, htask, -⟩ | ⟨hqueued, -⟩)
        · exact absurd hvalue hsettled
        · exact hok
        · exact absurd htask (hslot slot hmem)
        · exact absurd hqueued hqueue
      · exact fun hok => Or.inl (Or.inr ⟨rfl, hok⟩)
    rcases hreason with ⟨hroom, rfl, rfl⟩ | ⟨hfull, hlong, rfl⟩
    · cases hfallback : c.fallbackFn with
      | none =>
        apply iff_of_false
        · rintro ⟨_, herr⟩
          cases herr
        · rintro (⟨-, hfalse | hfalse⟩ | ⟨hfull, -⟩)
          · cases hfalse
          · cases hfalse
          · exact absurd hroom (not_lt.mpr hfull)
      | some fallback =>
        refine iff_of_true ⟨value message, ?_⟩ (Or.inl ⟨hroom, Or.inr rfl⟩)
        change fallbackOutcome fallback message = _
        rw [fallbackOutcome, hcomputes.fallback fallback hfallback]
    · apply iff_of_false
      · rintro ⟨_, herr⟩
        cases herr
      · rintro (⟨hroom, -⟩ | ⟨-, hshort, -⟩)
        · exact absurd hroom (not_lt.mpr hfull)
        · exact absurd hshort (not_lt.mpr hlong)
  | queues _ _ _ hbusy hfull hroom =>
    cases hlabel
    rw [hbusy]
    apply Iff.intro
    · rintro (hvalue | ⟨slot, hmem, htask, -⟩ | ⟨-, hlive⟩)
      · exact absurd hvalue hsettled
      · exact absurd htask (hslot slot hmem)
      · exact Or.inr ⟨hfull, hroom, hlive⟩
    · rintro (⟨hshort, -⟩ | ⟨-, -, hlive⟩)
      · exact absurd hshort (not_lt.mpr hfull)
      · exact Or.inr (Or.inr ⟨List.mem_append_right _ List.mem_cons_self, hlive⟩)
  | _ => cases hlabel

theorem promiseKept_exec_iff (hcomputes : c.Computes value) (hinv : s.Inv c)
    (message : μ) (constructs : Bool) :
    (s.exec c message constructs).1.PromiseKept message (s.exec c message constructs).2 ↔
      s.Admits c message constructs := by
  rw [Admits]
  cases hclosed : s.shutdownFlag with
  | true =>
    refine iff_of_false ?_ fun h => by cases h.1
    rw [exec, hclosed]
    rintro ⟨_, h⟩
    cases h
  | false =>
    cases hvalid : c.validateTaskMessage message with
    | error =>
      refine iff_of_false ?_ fun h => by cases h.2.1
      rw [exec, hclosed, hvalid]
      rintro ⟨_, h⟩
      cases h
    | ok =>
      cases hdegraded : s.degraded c with
      | some fallback =>
        refine iff_of_true ?_ ⟨rfl, rfl, fun h => by cases h⟩
        have hfallback := (Option.filter_eq_some_iff.mp hdegraded).1
        rw [exec, hclosed, hvalid, hdegraded]
        refine ⟨value message, ?_⟩
        rw [fallbackOutcome, hcomputes.fallback fallback hfallback]
      | none =>
        have hplaced : s.Placed c message := ⟨hclosed, hvalid, hdegraded⟩
        rw [exec_placed hplaced]
        refine (kept_place_iff hcomputes hinv hplaced constructs).trans ?_
        exact ⟨fun h => ⟨rfl, rfl, fun _ => h⟩, fun h => h.2.2 rfl⟩

theorem run_execAll (messages : List (μ × Bool)) (s : PoolState μ ρ) :
    run (PoolState.step c) s (messages.map fun call => .exec call.1 call.2) =
      some (s.execAll c messages).1 := by
  induction messages generalizing s with
  | nil => rfl
  | cons _ _ ih => exact ih _

theorem length_execAll (messages : List (μ × Bool)) (s : PoolState μ ρ) :
    (s.execAll c messages).2.length = messages.length := by
  induction messages generalizing s with
  | nil => rfl
  | cons _ _ ih => exact congrArg (· + 1) (ih _)

/-- The messages of a batch with their promises. -/
def calls (c : PoolConfig μ ρ) (s : PoolState μ ρ) (messages : List (μ × Bool)) :
    List (μ × PoolPromise ρ) :=
  (messages.map Prod.fst).zip (s.execAll c messages).2

theorem everyStep_execAll (messages : List (μ × Bool)) (s : PoolState μ ρ) :
    EveryStep (PoolState.step c) (fun s label _ => s.PromiseSpared c label message promise) s
      (messages.map fun call => .exec call.1 call.2) := by
  induction messages generalizing s with
  | nil => trivial
  | cons call _ ih =>
    refine (everyStep_cons (t := (s.exec c call.1 call.2).1) rfl).mpr ⟨?_, ih _⟩
    cases promise with
    | settled | pending => trivial

theorem promiseKept_execAll_iff (hcomputes : c.Computes value) (hinv : s.Inv c)
    (hissued : s.Issued c message promise) (messages : List (μ × Bool)) :
    (s.execAll c messages).1.Issued c message promise ∧
      ((s.execAll c messages).1.PromiseKept message promise ↔
        s.PromiseKept message promise) := by
  obtain ⟨hissued', hkept⟩ := promisesKept_run_iff hcomputes [(message, promise)] hinv
    (List.forall_mem_singleton.mpr hissued) (run_execAll messages s)
  simp only [List.forall_mem_singleton] at hissued' hkept
  rw [and_iff_left (everyStep_execAll messages s)] at hkept
  exact ⟨hissued', hkept⟩

theorem promisesKept_execAll_iff (hcomputes : c.Computes value) (messages : List (μ × Bool))
    (hinv : s.Inv c) :
    (∀ call ∈ s.calls c messages, (s.execAll c messages).1.Issued c call.1 call.2) ∧
      ((∀ call ∈ s.calls c messages, (s.execAll c messages).1.PromiseKept call.1 call.2) ↔
        AdmitsAll c s messages) := by
  induction messages generalizing s with
  | nil => exact ⟨nofun, iff_of_true nofun trivial⟩
  | cons call rest ih =>
    obtain ⟨message, constructs⟩ := call
    have hinv' := inv_exec hinv message constructs
    obtain ⟨hissued, hkept⟩ := ih hinv'
    obtain ⟨hfirst, hfirst'⟩ := promiseKept_execAll_iff hcomputes hinv'
      (issued_exec hinv message constructs) rest
    rw [promiseKept_exec_iff hcomputes hinv] at hfirst'
    apply And.intro
    · exact List.forall_mem_cons.mpr ⟨hfirst, hissued⟩
    · exact List.forall_mem_cons.trans (and_congr hfirst' hkept)

/-! ## A pool at rest -/

theorem Resting.kept_iff (hrest : s.Resting) (hinv : s.Inv c) :
    s.Kept task ↔ ∃ value, (task, .ok value) ∈ s.settled := by
  refine ⟨?_, Or.inl⟩
  rintro (hvalue | ⟨slot, hslot, htask, hlive⟩ | ⟨hqueue, slot, hslot, hlive⟩)
  · exact hvalue
  · refine absurd ?_ (hrest slot hslot)
    have hconsistent := hinv.consistent slot hslot
    refine hconsistent.working ?_ hlive
    by_contra hidle
    rw [(hinv.idle hslot (Bool.eq_false_of_not_eq_true hidle)).1] at htask
    cases htask
  · refine absurd ?_ (hrest slot hslot)
    exact (hinv.consistent slot hslot).working
      (hinv.busy (List.ne_nil_of_mem hqueue) slot hslot) hlive

theorem own_ok (hcomputes : c.Computes value) {found : ρ} (hown : Own c message (.ok found)) :
    found = value message := by
  rcases hown with ⟨reply, hanswers, hreply⟩ | ⟨fallback, hfallback, hvalue⟩ | ⟨err, -, herr⟩
  · rw [(hcomputes.answers _ _).mp hanswers] at hreply
    exact Except.ok.inj hreply
  · rw [fallbackOutcome, hcomputes.fallback fallback hfallback] at hvalue
    exact Except.ok.inj hvalue
  · cases herr

theorem outcome_pending_iff (hinv : s.Inv c) {taskId : ℕ} {outcome : Outcome ρ} :
    (PoolPromise.pending taskId).outcome s = some outcome ↔
      ∃ task, (task, outcome) ∈ s.settled ∧ task.taskId = taskId := by
  have hfind : ∀ entry, s.settled.find? (fun entry => entry.1.taskId = taskId) = some entry ↔
      entry ∈ s.settled ∧ entry.1.taskId = taskId :=
    fun _ => find?_key_eq_some_iff _ hinv.nodup_settled
  rw [PoolPromise.outcome, Option.map_eq_some_iff]
  apply Iff.intro
  · rintro ⟨⟨task, _⟩, hentry, rfl⟩
    exact ⟨task, (hfind _).mp hentry⟩
  · rintro ⟨task, hentry⟩
    exact ⟨(task, outcome), (hfind _).mpr hentry, rfl⟩

theorem outcome_ok (hcomputes : c.Computes value) (hinv : s.Inv c)
    (hissued : s.Issued c message promise) {found : ρ}
    (hfound : promise.outcome s = some (.ok found)) :
    found = value message ∧ s.PromiseKept message promise := by
  cases promise with
  | settled =>
    cases hfound
    exact ⟨own_ok hcomputes hissued, found, rfl⟩
  | pending =>
    obtain ⟨task, hentry, hid⟩ := (outcome_pending_iff hinv).mp hfound
    have htask := hissued.2 task (Or.inl ⟨_, hentry⟩) hid
    subst htask
    exact ⟨own_ok hcomputes (hinv.own _ hentry), Or.inl ⟨found, hentry⟩⟩

theorem Resting.outcome_iff (hrest : s.Resting) (hcomputes : c.Computes value) (hinv : s.Inv c)
    (hissued : s.Issued c message promise) :
    promise.outcome s = some (.ok (value message)) ↔ s.PromiseKept message promise := by
  refine ⟨fun h => (outcome_ok hcomputes hinv hissued h).2, fun hkept => ?_⟩
  cases promise with
  | settled =>
    obtain ⟨found, rfl⟩ := hkept
    rw [PoolPromise.outcome, own_ok hcomputes hissued]
  | pending =>
    obtain ⟨found, hentry⟩ := (hrest.kept_iff hinv).mp hkept
    rw [own_ok hcomputes (hinv.own _ hentry)] at hentry
    exact (outcome_pending_iff hinv).mpr ⟨_, hentry, rfl⟩

/-! ## The result of a batch -/

theorem map_eq_map_iff_zip {α β γ : Type} {f : β → γ} {g : α → γ} {xs : List α} {ys : List β}
    (hlength : ys.length = xs.length) :
    ys.map f = xs.map g ↔ ∀ pair ∈ xs.zip ys, f pair.2 = g pair.1 := by
  induction xs generalizing ys with
  | nil => exact iff_of_true (by rw [List.eq_nil_of_length_eq_zero hlength]; rfl) nofun
  | cons _ _ ih =>
    cases ys with
    | nil => cases hlength
    | cons =>
      rw [List.zip_cons_cons, List.forall_mem_cons, List.map_cons, List.map_cons,
        List.cons.injEq, ih (Nat.succ.inj hlength)]

section Values

variable {messages : List μ} {promises : List (PoolPromise ρ)}

theorem batch_values (hcomputes : c.Computes value) (hinv : s.Inv c)
    (hlength : promises.length = messages.length)
    (hissued : ∀ call ∈ messages.zip promises, s.Issued c call.1 call.2)
    (hresolved : promiseAll (promises.map (PoolPromise.outcome s)) = .resolved values) :
    values = messages.map value := by
  have hvalues := promiseAll_eq_resolved_iff.mp hresolved
  have hmessages : promises.map (PoolPromise.outcome s) =
      messages.map fun message => some (.ok (value message)) := by
    refine (map_eq_map_iff_zip hlength).mpr fun call hcall => ?_
    have hmem : call.2.outcome s ∈ promises.map (PoolPromise.outcome s) :=
      List.mem_map_of_mem (List.of_mem_zip hcall).2
    rw [hvalues] at hmem
    obtain ⟨found, -, hfound⟩ := List.mem_map.mp hmem
    rw [← hfound, (outcome_ok hcomputes hinv (hissued call hcall) hfound.symm).1]
  have hinj : Function.Injective fun found : ρ => some (Except.ok (ε := PoolError) found) :=
    fun _ _ h => Except.ok.inj (Option.some.inj h)
  refine List.map_injective_iff.mpr hinj ?_
  rw [← hvalues, hmessages, List.map_map]
  rfl

theorem Resting.batch_resolved_iff (hrest : s.Resting) (hcomputes : c.Computes value)
    (hinv : s.Inv c)
    (hlength : promises.length = messages.length)
    (hissued : ∀ call ∈ messages.zip promises, s.Issued c call.1 call.2) :
    promiseAll (promises.map (PoolPromise.outcome s)) = .resolved (messages.map value) ↔
      ∀ call ∈ messages.zip promises, s.PromiseKept call.1 call.2 := by
  rw [promiseAll_eq_resolved_iff, List.map_map, map_eq_map_iff_zip hlength]
  refine forall₂_congr fun call hcall => ?_
  exact hrest.outcome_iff hcomputes hinv (hissued call hcall)

end Values

/-- Every message of the batch is admitted, and no later step gives up one of its tasks. -/
def BatchKept (c : PoolConfig μ ρ) (s : PoolState μ ρ) (messages : List (μ × Bool))
    (labels : List (PoolLabel μ ρ)) : Prop :=
  AdmitsAll c s messages ∧
    EveryStep (PoolState.step c)
      (fun s' label _ => ∀ call ∈ s.calls c messages, s'.PromiseSpared c label call.1 call.2)
      (s.execAll c messages).1 labels

theorem batch_outcome (hcomputes : c.Computes value) (hinv : s.Inv c) {messages : List (μ × Bool)}
    {t : PoolState μ ρ} (hrun : run (PoolState.step c) (s.execAll c messages).1 labels = some t) :
    t.Inv c ∧
      (∀ values, promiseAll ((s.execAll c messages).2.map (PoolPromise.outcome t)) =
        .resolved values → values = (messages.map Prod.fst).map value) ∧
      (t.Resting → (promiseAll ((s.execAll c messages).2.map (PoolPromise.outcome t)) =
        .resolved ((messages.map Prod.fst).map value) ↔ s.BatchKept c messages labels)) := by
  have hstart : (s.execAll c messages).1.Inv c :=
    invariant_of_run (fun _ _ _ hinv hstep => hinv.step hstep) hinv (run_execAll messages s)
  have hinv' : t.Inv c :=
    invariant_of_run (fun _ _ _ hinv hstep => hinv.step hstep) hstart hrun
  have hlength : (s.execAll c messages).2.length = (messages.map Prod.fst).length := by
    rw [length_execAll, List.length_map]
  obtain ⟨hissued, hadmitted⟩ := promisesKept_execAll_iff hcomputes messages hinv
  obtain ⟨hissued', hkept⟩ := promisesKept_run_iff hcomputes _ hstart hissued hrun
  refine ⟨hinv', fun values => batch_values hcomputes hinv' hlength hissued', fun hrest => ?_⟩
  rw [hrest.batch_resolved_iff hcomputes hinv' hlength hissued']
  exact hkept.trans (and_congr_left' hadmitted)

end PoolState

end Fluxora.Pii
