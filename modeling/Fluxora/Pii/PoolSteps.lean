/-
# The steps of a worker pool

Every step changes one slot at most: a task moves from the caller, the queue or the start-up
listeners to the slot, or from the slot to the settled ones, and then the next of the queue
follows.
-/

import Mathlib.Algebra.BigOperators.Group.List.Basic
import Mathlib.Algebra.GroupWithZero.Nat
import Mathlib.Data.List.Nodup
import Fluxora.Lib.Split
import Fluxora.Lib.Transition
import Fluxora.Pii.WorkerPool

namespace Fluxora.Pii

open Lib.Split Lib.Transition

namespace PoolState

variable {μ ρ : Type}

/-! ## What a step does -/

/-- What a promise may be settled with that was made for the message: an answer to it, the
fallback's result for it, or an error of the pool. -/
def Own (c : PoolConfig μ ρ) (message : μ) (outcome : Outcome ρ) : Prop :=
  (∃ reply, c.answers message reply = true ∧ outcome = reply.outcome) ∨
    (∃ fallback, c.fallbackFn = some fallback ∧ outcome = fallbackOutcome fallback message) ∨
    ∃ err, err.ofPool = true ∧ outcome = .error err

/-- The task of a message is placed at a slot or in the queue. -/
def Placed (c : PoolConfig μ ρ) (s : PoolState μ ρ) (message : μ) : Prop :=
  s.shutdownFlag = false ∧ c.validateTaskMessage message = .ok () ∧ s.degraded c = none

/-- The outcome of a task whose worker fails, where `last` says that the pool turns to the
fallback. -/
def errorOutcome (c : PoolConfig μ ρ) (last : Bool) (message : μ) (err : String) : Outcome ρ :=
  match c.fallbackFn.filter fun _ => last with
  | some fallback => fallbackOutcome fallback message
  | none => .error (.workerError err)

/-- The slots other than one are marked unhealthy. -/
def lastHealthy (s : PoolState μ ρ) (i : ℕ) : Bool :=
  (s.slots.eraseIdx i).all fun slot => !slot.healthy

/-- What a slot that has finished a task goes on with. -/
inductive Next (queue : List (PendingTask μ)) (slot : WorkerSlot μ) :
    WorkerSlot μ → List (PendingTask μ) → Prop
  | rests (hqueue : queue = []) : Next queue slot slot []
  | continues (next : PendingTask μ) (rest : List (PendingTask μ))
      (hqueue : queue = next :: rest) : Next queue slot (slot.assign next) rest

inductive Effect (c : PoolConfig μ ρ) (s : PoolState μ ρ) :
    PoolLabel μ ρ → PoolState μ ρ → Prop
  | refused (message : μ) (constructs : Bool) (hplaced : ¬ s.Placed c message) :
      Effect c s (.exec message constructs) s
  | assigns (message : μ) (constructs : Bool) (before after : List (WorkerSlot μ))
      (slot : WorkerSlot μ) (hslots : s.slots = before ++ slot :: after)
      (hidle : slot.busy = false) (hplaced : s.Placed c message)
      (hfirst : s.findIdleSlot = some before.length) :
      Effect c s (.exec message constructs)
        { s with
          slots := before ++ slot.assign ⟨s.nextTaskId, message⟩ :: after
          nextTaskId := s.nextTaskId + 1 }
  | creates (message : μ) (hroom : s.slots.length < c.maxWorkers) (hplaced : s.Placed c message)
      (hbusy : s.findIdleSlot = none) :
      Effect c s (.exec message true)
        { s with
          slots := s.slots ++ [.fresh ⟨s.nextTaskId, message⟩]
          nextTaskId := s.nextTaskId + 1 }
  | settles (message : μ) (constructs : Bool) (outcome : Outcome ρ) (failed : Bool)
      (hown : Own c message outcome) (hplaced : s.Placed c message)
      (hbusy : s.findIdleSlot = none)
      (hreason : s.slots.length < c.maxWorkers ∧ constructs = false ∧
          outcome = (match c.fallbackFn with
            | some fallback => fallbackOutcome fallback message
            | none => .error .noFallback) ∨
        c.maxWorkers ≤ s.slots.length ∧ c.maxQueueSize ≤ s.queue.length ∧
          outcome = .error .queueFull) :
      Effect c s (.exec message constructs)
        { s with
          settled := s.settled ++ [(⟨s.nextTaskId, message⟩, outcome)]
          allWorkersFailed := failed
          nextTaskId := s.nextTaskId + 1 }
  | queues (message : μ) (constructs : Bool) (hplaced : s.Placed c message)
      (hbusy : s.findIdleSlot = none) (hfull : c.maxWorkers ≤ s.slots.length)
      (hroom : s.queue.length < c.maxQueueSize) :
      Effect c s (.exec message constructs)
        { s with
          queue := s.queue ++ [⟨s.nextTaskId, message⟩]
          nextTaskId := s.nextTaskId + 1 }
  | starts (before after : List (WorkerSlot μ)) (slot : WorkerSlot μ) (task : PendingTask μ)
      (hslots : s.slots = before ++ slot :: after) (htask : slot.startup = some task) :
      Effect c s (.online before.length)
        { s with
          slots := before ++
            { slot with phase := .online, startup := none : WorkerSlot μ }.assign task :: after }
  | answers (before after : List (WorkerSlot μ)) (slot next : WorkerSlot μ)
      (task : PendingTask μ) (queue : List (PendingTask μ)) (reply : WorkerReply ρ)
      (hslots : s.slots = before ++ slot :: after) (htask : slot.listener = some task)
      (hphase : slot.phase = .online) (hanswers : c.answers task.message reply = true)
      (hnext : Next s.queue (slot.release .online slot.healthy) next queue) :
      Effect c s (.message before.length reply)
        { s with
          slots := before ++ next :: after
          queue := queue
          settled := s.settled ++ [(task, reply.outcome)] }
  | crashes (before after : List (WorkerSlot μ)) (slot next : WorkerSlot μ)
      (task : PendingTask μ) (queue : List (PendingTask μ)) (err : String) (failed : Bool)
      (hslots : s.slots = before ++ slot :: after) (htask : slot.listener = some task)
      (hlive : slot.phase ≠ .errored)
      (hnext : Next s.queue (slot.release .errored false) next queue) :
      Effect c s (.error before.length err)
        { s with
          slots := before ++ next :: after
          queue := queue
          allWorkersFailed := failed
          settled := s.settled ++
            [(task, errorOutcome c (s.lastHealthy before.length) task.message err)] }
  | failsToStart (before after : List (WorkerSlot μ)) (slot : WorkerSlot μ)
      (task : PendingTask μ) (err : String) (failed : Bool)
      (hslots : s.slots = before ++ slot :: after) (htask : slot.startup = some task) :
      Effect c s (.error before.length err)
        { s with
          slots := before ++
            { slot with phase := .errored, inbox := [], healthy := false, startup := none } ::
              after
          allWorkersFailed := failed
          settled := s.settled ++
            [(task, errorOutcome c (s.allWorkersFailed || s.lastHealthy before.length)
              task.message err)] }
  | failsIdle (before after : List (WorkerSlot μ)) (slot : WorkerSlot μ) (err : String)
      (hslots : s.slots = before ++ slot :: after) (hphase : slot.phase = .online)
      (hidle : slot.busy = false) :
      Effect c s (.error before.length err)
        { s with slots := before ++ { slot with phase := .errored, inbox := [] } :: after }
  | shutdown : Effect c s .shutdown s.shutdown
  | terminated (hclosed : s.shutdownFlag = true) : Effect c s .terminated { s with slots := [] }

/-- In how many places the task is: among the settled ones, in the queue and at slots. -/
def holders (s : PoolState μ ρ) (taskId : ℕ) : ℕ :=
  (s.settled.map fun entry => entry.1.taskId).count taskId +
    (s.queue.map PendingTask.taskId).count taskId +
    (s.slots.map fun slot => (slot.tasks.map PendingTask.taskId).count taskId).sum

/-- What holds of every state that a pool can reach. -/
structure Inv (c : PoolConfig μ ρ) (s : PoolState μ ρ) : Prop where
  consistent : ∀ slot ∈ s.slots, slot.Consistent
  busy : s.queue ≠ [] → ∀ slot ∈ s.slots, slot.busy = true
  full : s.queue ≠ [] → c.maxWorkers ≤ s.slots.length
  bounded : s.slots.length ≤ c.maxWorkers
  closed : s.shutdownFlag = true → s.queue = []
  own : ∀ entry ∈ s.settled, Own c entry.1.message entry.2
  once : ∀ taskId, s.holders taskId ≤ if taskId < s.nextTaskId then 1 else 0

/-! ## A pool seen at one slot -/

variable {c : PoolConfig μ ρ} {s : PoolState μ ρ} {before after : List (WorkerSlot μ)}
  {slot : WorkerSlot μ} {i : ℕ} {s' : PoolState μ ρ}

theorem update_split (hslots : s.slots = before ++ slot :: after)
    (change : WorkerSlot μ → WorkerSlot μ) :
    s.update before.length change = { s with slots := before ++ change slot :: after } := by
  rw [update, hslots, modify_split]

theorem noneHealthy_split (hslots : s.slots = before ++ slot :: after) (slot' : WorkerSlot μ)
    (hslot' : slot'.healthy = false) :
    noneHealthy { s with slots := before ++ slot' :: after } = s.lastHealthy before.length := by
  rw [noneHealthy, lastHealthy, hslots, eraseIdx_split, List.all_append, List.all_append,
    List.all_cons, hslot']
  rfl

theorem drainQueue_split (hslots : s.slots = before ++ slot :: after)
    (hclosed : s.shutdownFlag = true → s.queue = []) :
    ∃ next rest, Next s.queue slot next rest ∧
      s.drainQueue before.length = { s with slots := before ++ next :: after, queue := rest } := by
  cases hqueue : s.queue with
  | nil =>
    refine ⟨slot, [], .rests rfl, ?_⟩
    rw [drainQueue, hqueue, ite_self, ← hslots, ← hqueue]
  | cons next rest =>
    refine ⟨_, rest, .continues next rest rfl, ?_⟩
    have hopen : s.shutdownFlag ≠ true := by
      intro hflag
      rw [hclosed hflag] at hqueue
      cases hqueue
    rw [drainQueue, if_neg hopen, hqueue]
    exact update_split (s := { s with queue := rest }) hslots _

theorem invokeFallback_eq {last : Bool} (hlast : last = true ∧ c.fallbackFn.isSome = true)
    (task : PendingTask μ) (err : String) :
    invokeFallback c task s = s.settle task (errorOutcome c last task.message err) := by
  obtain ⟨rfl, hsome⟩ := hlast
  obtain ⟨fallback, hfallback⟩ := Option.isSome_iff_exists.mp hsome
  rw [invokeFallback, errorOutcome, hfallback]
  rfl

theorem errorOutcome_eq {last : Bool} (hlast : ¬ (last = true ∧ c.fallbackFn.isSome = true))
    (message : μ) (err : String) :
    errorOutcome c last message err = .error (.workerError err) := by
  rw [errorOutcome]
  cases hfallback : c.fallbackFn with
  | none => rfl
  | some =>
    cases last with
    | true => exact absurd ⟨rfl, by rw [hfallback]; rfl⟩ hlast
    | false => rfl

theorem settles_errorOutcome (last failed : Bool) (task : PendingTask μ) (err : String) :
    ∃ failed', (if last = true ∧ c.fallbackFn.isSome = true then
        invokeFallback c task { s with allWorkersFailed := failed }
      else s.settle task (.error (.workerError err))) =
      { s with
        allWorkersFailed := failed'
        settled := s.settled ++ [(task, errorOutcome c last task.message err)] } := by
  split_ifs with hlast
  · exact ⟨failed, invokeFallback_eq hlast task err⟩
  · refine ⟨s.allWorkersFailed, ?_⟩
    rw [errorOutcome_eq hlast]
    rfl

/-! ## The listeners -/

variable (task : PendingTask μ)

theorem messageHandler_eq (hslots : s.slots = before ++ slot :: after)
    (hclosed : s.shutdownFlag = true → s.queue = []) (reply : WorkerReply ρ) :
    ∃ next rest, Next s.queue { slot with busy := false, listener := none } next rest ∧
      s.messageHandler before.length task reply =
        { s with
          slots := before ++ next :: after
          queue := rest
          settled := s.settled ++ [(task, reply.outcome)] } := by
  obtain ⟨next, rest, hnext, hdrain⟩ := drainQueue_split
    (s := { s with
      slots := before ++ { slot with busy := false, listener := none } :: after
      settled := s.settled ++ [(task, reply.outcome)] }) rfl hclosed
  refine ⟨next, rest, hnext, ?_⟩
  rw [messageHandler, update_split hslots]
  exact hdrain

theorem errorHandler_eq (hslots : s.slots = before ++ slot :: after)
    (hclosed : s.shutdownFlag = true → s.queue = []) (err : String) :
    ∃ next rest failed,
      Next s.queue { slot with busy := false, healthy := false, listener := none } next rest ∧
        s.errorHandler c before.length task err =
          { s with
            slots := before ++ next :: after
            queue := rest
            allWorkersFailed := failed
            settled := s.settled ++
              [(task, errorOutcome c (s.lastHealthy before.length) task.message err)] } := by
  have hlast := noneHealthy_split hslots
    ({ slot with busy := false, healthy := false, listener := none }) rfl
  obtain ⟨failed, hsettled⟩ := settles_errorOutcome (c := c)
    (s := { s with
      slots := before ++ { slot with busy := false, healthy := false, listener := none } :: after })
    (s.lastHealthy before.length) true task err
  obtain ⟨next, rest, hnext, hdrain⟩ := drainQueue_split
    (s := { s with
      slots := before ++ { slot with busy := false, healthy := false, listener := none } :: after
      allWorkersFailed := failed
      settled := s.settled ++
        [(task, errorOutcome c (s.lastHealthy before.length) task.message err)] }) rfl hclosed
  refine ⟨next, rest, failed, hnext, ?_⟩
  rw [errorHandler, update_split hslots]
  simp only [hlast]
  rw [hsettled]
  exact hdrain

theorem onStartupError_eq (hslots : s.slots = before ++ slot :: after) (err : String) :
    ∃ failed, s.onStartupError c before.length task err =
      { s with
        slots := before ++ { slot with healthy := false, startup := none } :: after
        allWorkersFailed := failed
        settled := s.settled ++
          [(task, errorOutcome c (s.allWorkersFailed || s.lastHealthy before.length)
            task.message err)] } := by
  have hlast := noneHealthy_split hslots
    ({ slot with healthy := false, startup := none }) rfl
  obtain ⟨failed, hsettled⟩ := settles_errorOutcome (c := c)
    (s := { s with
      slots := before ++ { slot with healthy := false, startup := none } :: after
      allWorkersFailed := s.allWorkersFailed || s.lastHealthy before.length })
    (s.allWorkersFailed || s.lastHealthy before.length)
    (s.allWorkersFailed || s.lastHealthy before.length) task err
  refine ⟨failed, ?_⟩
  rw [onStartupError, update_split hslots]
  simp only [hlast]
  exact hsettled

/-! ## The events -/

theorem onlineEvent_effect (hstep : s.onlineEvent i = some s') : Effect c s (.online i) s' := by
  rw [onlineEvent, Option.bind_eq_bind, Option.bind_eq_some_iff] at hstep
  obtain ⟨slot, hslot, hstep⟩ := hstep
  rw [Option.bind_eq_bind, Option.bind_eq_some_iff] at hstep
  obtain ⟨task, htask, hstep⟩ := hstep
  cases hstep
  obtain ⟨before, after, hslots, rfl⟩ := exists_split hslot
  rw [update_split hslots, onOnline, update_split rfl, dispatch, update_split rfl]
  exact .starts before after slot task hslots htask

theorem messageEvent_effect (hinv : s.Inv c) {reply : WorkerReply ρ}
    (hstep : s.messageEvent c i reply = some s') : Effect c s (.message i reply) s' := by
  rw [messageEvent, Option.bind_eq_bind, Option.bind_eq_some_iff] at hstep
  obtain ⟨slot, hslot, hstep⟩ := hstep
  rw [Option.bind_eq_bind, Option.bind_eq_some_iff] at hstep
  obtain ⟨message, hmessage, hstep⟩ := hstep
  rw [Option.bind_eq_bind, Option.bind_eq_some_iff] at hstep
  obtain ⟨task, htask, hstep⟩ := hstep
  split_ifs at hstep with hanswers
  cases hstep
  obtain ⟨before, after, hslots, rfl⟩ := exists_split hslot
  have hinbox : slot.inbox = [task.message] := by
    rw [(hinv.consistent slot (List.mem_of_getElem? hslot)).inbox, htask]
    rfl
  have hown : task.message = message := by
    rw [hinbox] at hmessage
    exact Option.some.inj hmessage
  obtain ⟨next, rest, hnext, hhandler⟩ := messageHandler_eq task
    (s := { s with slots := before ++ { slot with inbox := slot.inbox.tail } :: after }) rfl
    hinv.closed reply
  have hrelease : ({ slot with inbox := slot.inbox.tail, busy := false, listener := none } :
      WorkerSlot μ) = slot.release .online slot.healthy := by
    rw [WorkerSlot.release, hinbox, ← hanswers.1]
    rfl
  rw [update_split hslots, hhandler]
  exact .answers before after slot next task rest reply hslots htask hanswers.1
    (hown ▸ hanswers.2) (hrelease ▸ hnext)

theorem errorEvent_effect (hinv : s.Inv c) {err : String} (hstep : s.errorEvent c i err = some s') :
    Effect c s (.error i err) s' := by
  rw [errorEvent, Option.bind_eq_bind, Option.bind_eq_some_iff] at hstep
  obtain ⟨slot, hslot, hstep⟩ := hstep
  split_ifs at hstep with hlive
  obtain ⟨before, after, hslots, rfl⟩ := exists_split hslot
  have hconsistent := hinv.consistent slot (List.mem_of_getElem? hslot)
  have hlast : lastHealthy
      { s with slots := before ++ { slot with phase := .errored, inbox := [] } :: after }
      before.length = s.lastHealthy before.length := by
    rw [lastHealthy, lastHealthy, hslots, eraseIdx_split, eraseIdx_split]
  rw [update_split hslots] at hstep
  generalize hdead : ({ slot with phase := .errored, inbox := [] } : WorkerSlot μ) = dead at hstep
  cases hstartup : slot.startup with
  | some task =>
    rw [hstartup] at hstep
    obtain ⟨failed, hhandler⟩ := onStartupError_eq (c := c) task
      (s := { s with
        slots := before ++ { slot with phase := .errored, inbox := [] } :: after }) rfl err
    rw [hlast] at hhandler
    rw [← Option.some.inj hstep, ← hdead, hhandler]
    exact .failsToStart before after slot task err failed hslots hstartup
  | none =>
    cases hlistener : slot.listener with
    | some task =>
      rw [hstartup, hlistener] at hstep
      obtain ⟨next, rest, failed, hnext, hhandler⟩ := errorHandler_eq (c := c) task
        (s := { s with
          slots := before ++ { slot with phase := .errored, inbox := [] } :: after }) rfl
        hinv.closed err
      rw [hlast] at hhandler
      rw [← Option.some.inj hstep, ← hdead, hhandler]
      exact .crashes before after slot next task rest err failed hslots hlistener hlive hnext
    | none =>
      rw [hstartup, hlistener] at hstep
      rw [← Option.some.inj hstep, ← hdead]
      have hphase : slot.phase = .online := by
        cases hphase : slot.phase with
        | starting => exact absurd hstartup (hconsistent.startup.mpr hphase)
        | online => rfl
        | errored => exact absurd hphase hlive
      have hidle : slot.busy = false := by
        by_contra hbusy
        exact hconsistent.online hphase (Bool.eq_true_of_not_eq_false hbusy) hlistener
      exact .failsIdle before after slot err hslots hphase hidle

theorem own_fallback (message : μ) : Own c message (match c.fallbackFn with
    | some fallback => fallbackOutcome fallback message
    | none => .error .noFallback) := by
  cases hfallback : c.fallbackFn with
  | some fallback => exact Or.inr (Or.inl ⟨fallback, hfallback, rfl⟩)
  | none => exact Or.inr (Or.inr ⟨.noFallback, rfl, rfl⟩)

theorem busy_of_findIdleSlot (hnone : s.findIdleSlot = none) :
    ∀ slot ∈ s.slots, slot.busy = true := by
  intro slot hslot
  simpa using List.findIdx?_eq_none_iff.mp hnone slot hslot

theorem place_effect {message : μ} (hplaced : s.Placed c message) (constructs : Bool) :
    Effect c s (.exec message constructs)
      (place c ⟨s.nextTaskId, message⟩ { s with nextTaskId := s.nextTaskId + 1 } constructs) := by
  have hidle : findIdleSlot { s with nextTaskId := s.nextTaskId + 1 } = s.findIdleSlot := rfl
  rw [place, hidle]
  cases hfirst : s.findIdleSlot with
  | some =>
    obtain ⟨hi, hbusy, -⟩ := List.findIdx?_eq_some_iff_getElem.mp hfirst
    obtain ⟨before, after, hslots, rfl⟩ := exists_split (List.getElem?_eq_getElem hi)
    dsimp only
    rw [dispatch, update_split (s := { s with nextTaskId := s.nextTaskId + 1 }) hslots]
    exact .assigns message constructs before after _ hslots ((Bool.not_eq_true' _).mp hbusy)
      hplaced hfirst
  | none =>
    dsimp only
    split_ifs with hroom hlong
    · cases constructs with
      | true => exact .creates message hroom hplaced hfirst
      | false =>
        exact .settles message false _ true (own_fallback message) hplaced hfirst
          (Or.inl ⟨hroom, rfl, rfl⟩)
    · exact .settles message constructs (.error .queueFull) s.allWorkersFailed
        (Or.inr (Or.inr ⟨_, rfl, rfl⟩)) hplaced hfirst
        (Or.inr ⟨not_lt.mp hroom, hlong, rfl⟩)
    · exact .queues message constructs hplaced hfirst (not_lt.mp hroom) (not_le.mp hlong)

theorem exec_placed {message : μ} (hplaced : s.Placed c message) (constructs : Bool) :
    s.exec c message constructs =
      (place c ⟨s.nextTaskId, message⟩ { s with nextTaskId := s.nextTaskId + 1 } constructs,
        .pending s.nextTaskId) := by
  obtain ⟨hopen, hvalid, hdegraded⟩ := hplaced
  rw [exec, hopen, hvalid, hdegraded]
  rfl

theorem exec_refused {message : μ} (hplaced : ¬ s.Placed c message) (constructs : Bool) :
    ∃ outcome, Own c message outcome ∧ s.exec c message constructs = (s, .settled outcome) := by
  cases hclosed : s.shutdownFlag with
  | true =>
    refine ⟨.error .shutdown, Or.inr (Or.inr ⟨_, rfl, rfl⟩), ?_⟩
    rw [exec, hclosed]
    rfl
  | false =>
    cases hvalid : c.validateTaskMessage message with
    | error reason =>
      refine ⟨.error (.invalidInput reason), Or.inr (Or.inr ⟨_, rfl, rfl⟩), ?_⟩
      rw [exec, hclosed, hvalid]
      rfl
    | ok =>
      cases hdegraded : s.degraded c with
      | none => exact absurd ⟨hclosed, hvalid, hdegraded⟩ hplaced
      | some fallback =>
        refine ⟨fallbackOutcome fallback message, Or.inr (Or.inl ⟨fallback, ?_, rfl⟩), ?_⟩
        · exact (Option.filter_eq_some_iff.mp hdegraded).1
        · rw [exec, hclosed, hvalid, hdegraded]
          rfl

variable {label : PoolLabel μ ρ}

theorem effect (hinv : s.Inv c) (hstep : s.step c label = some s') : Effect c s label s' := by
  cases label with
  | exec message constructs =>
    cases hstep
    by_cases hplaced : s.Placed c message
    · rw [exec_placed hplaced]
      exact place_effect hplaced constructs
    · obtain ⟨outcome, -, hexec⟩ := exec_refused hplaced constructs
      rw [hexec]
      exact .refused message constructs hplaced
  | online => exact onlineEvent_effect hstep
  | message => exact messageEvent_effect hinv hstep
  | error => exact errorEvent_effect hinv hstep
  | shutdown =>
    cases hstep
    exact .shutdown
  | terminated =>
    rw [step] at hstep
    split_ifs at hstep with hclosed
    cases hstep
    exact .terminated hclosed

/-! ## The invariant -/

theorem own_errorOutcome (last : Bool) (message : μ) (err : String) :
    Own c message (errorOutcome c last message err) := by
  rw [errorOutcome]
  cases hfallback : c.fallbackFn.filter fun _ => last with
  | none => exact Or.inr (Or.inr ⟨_, rfl, rfl⟩)
  | some fallback =>
    exact Or.inr (Or.inl ⟨fallback, (Option.filter_eq_some_iff.mp hfallback).1, rfl⟩)

variable {outcome : Outcome ρ}

theorem own_concat {settled : List (PendingTask μ × Outcome ρ)}
    (h : ∀ entry ∈ settled, Own c entry.1.message entry.2) {task : PendingTask μ}
    (hown : Own c task.message outcome) :
    ∀ entry ∈ settled ++ [(task, outcome)], Own c entry.1.message entry.2 := by
  intro entry hentry
  rcases List.mem_append.mp hentry with hold | hnew
  · exact h entry hold
  · rw [List.mem_singleton.mp hnew]
    exact hown

variable {rest : List (PendingTask μ)} {next : WorkerSlot μ} {queue : List (PendingTask μ)}

theorem Next.consistent (hnext : Next queue slot next rest) (hslot : slot.Consistent)
    (hidle : slot.busy = false) :
    next.Consistent ∧ (rest ≠ [] → next.busy = true) ∧ (rest ≠ [] → queue ≠ []) := by
  cases hnext with
  | rests => exact ⟨hslot, fun h => absurd rfl h, fun h => absurd rfl h⟩
  | continues _ _ hqueue =>
    exact ⟨hslot.assign hidle, fun _ => rfl, fun _ => by rw [hqueue]; exact nofun⟩

theorem Next.holders (hnext : Next queue slot next rest) (htasks : slot.tasks = [])
    (hlistener : slot.listener = none) (taskId : ℕ) :
    (rest.map PendingTask.taskId).count taskId +
        (next.tasks.map PendingTask.taskId).count taskId =
      (queue.map PendingTask.taskId).count taskId := by
  cases hnext with
  | rests hqueue => rw [hqueue, htasks]; rfl
  | continues _ _ hqueue =>
    rw [WorkerSlot.tasks_assign hlistener, htasks, hqueue, List.map_cons, List.count_cons,
      List.nil_append, List.map_singleton, List.count_singleton]

theorem inv_start : Inv c {} :=
  ⟨nofun, fun h => absurd rfl h, fun h => absurd rfl h, Nat.zero_le _, fun _ => rfl, nofun,
    fun _ => Nat.zero_le _⟩

theorem Inv.idle (hinv : s.Inv c) (hslot : slot ∈ s.slots)
    (hidle : slot.busy = false) : slot.tasks = [] ∧ slot.listener = none ∧ s.queue = [] := by
  have hconsistent := hinv.consistent slot hslot
  have hlistener := hconsistent.listener_of_idle hidle
  have hstartup : slot.startup = none := by
    by_contra hsome
    have hbusy := (hconsistent.starting (hconsistent.startup.mp hsome)).2
    rw [hidle] at hbusy
    cases hbusy
  refine ⟨?_, hlistener, ?_⟩
  · rw [WorkerSlot.tasks, hstartup, hlistener]
    rfl
  · by_contra hne
    have hbusy := hinv.busy hne slot hslot
    rw [hidle] at hbusy
    cases hbusy

/-- The invariant is kept by a change of one slot that moves its tasks, tasks of the queue
and a new task between the slot, the queue and the settled tasks. -/
theorem Inv.move (hinv : s.Inv c) (hslots : s.slots = before ++ slot :: after)
    {slot' : WorkerSlot μ} (new : List (PendingTask μ × Outcome ρ))
    (hslots' : s'.slots = before ++ slot' :: after) (hslot' : slot'.Consistent)
    (hbusy : s'.queue ≠ [] → slot'.busy = true) (hqueue : s'.queue ≠ [] → s.queue ≠ [])
    (hflag : s'.shutdownFlag = s.shutdownFlag) (hsettled : s'.settled = s.settled ++ new)
    (hown : ∀ entry ∈ new, Own c entry.1.message entry.2)
    (hheld : ∀ taskId, (new.map fun entry => entry.1.taskId).count taskId +
      (s'.queue.map PendingTask.taskId).count taskId +
      (slot'.tasks.map PendingTask.taskId).count taskId +
      (if taskId < s.nextTaskId then 1 else 0) ≤
        (s.queue.map PendingTask.taskId).count taskId +
        (slot.tasks.map PendingTask.taskId).count taskId +
        if taskId < s'.nextTaskId then 1 else 0) : s'.Inv c := by
  have hlength : s'.slots.length = s.slots.length := by
    rw [hslots, hslots', List.length_append, List.length_append, List.length_cons,
      List.length_cons]
  refine ⟨?_, ?_, ?_, ?_, ?_, ?_, ?_⟩
  · rw [hslots']
    exact forall_split (hslots ▸ hinv.consistent) hslot'
  · intro hne
    rw [hslots']
    exact forall_split (hslots ▸ hinv.busy (hqueue hne)) (hbusy hne)
  · intro hne
    rw [hlength]
    exact hinv.full (hqueue hne)
  · rw [hlength]
    exact hinv.bounded
  · intro hclosed
    by_contra hne
    exact hqueue hne (hinv.closed (hflag ▸ hclosed))
  · intro entry hentry
    rw [hsettled] at hentry
    rcases List.mem_append.mp hentry with hold | hnew
    · exact hinv.own entry hold
    · exact hown entry hnew
  · intro taskId
    have hbefore := hinv.once taskId
    have hmoved := hheld taskId
    rw [holders, hslots, List.map_append, List.map_cons, List.sum_append, List.sum_cons] at hbefore
    rw [holders, hslots', hsettled, List.map_append, List.map_append, List.map_cons,
      List.sum_append, List.sum_cons, List.count_append]
    omega

theorem Inv.moveOn (hinv : s.Inv c) (hslots : s.slots = before ++ slot :: after)
    {task : PendingTask μ} (htask : slot.listener = some task) {phase : WorkerPhase}
    (hphase : phase ≠ .starting) {healthy : Bool}
    (hnext : Next s.queue (slot.release phase healthy) next rest)
    (hown : Own c task.message outcome) (hslots' : s'.slots = before ++ next :: after)
    (hqueue' : s'.queue = rest) (hflag : s'.shutdownFlag = s.shutdownFlag)
    (hsettled : s'.settled = s.settled ++ [(task, outcome)])
    (hnextTaskId : s'.nextTaskId = s.nextTaskId) : s'.Inv c := by
  subst hqueue'
  have hslot := hinv.consistent slot (hslots ▸ List.mem_append_cons_self)
  have hlistener : slot.listener ≠ none := by rw [htask]; exact nofun
  obtain ⟨hnext', hbusy, hqueue⟩ := hnext.consistent (hslot.release hlistener hphase healthy) rfl
  refine hinv.move hslots [(task, outcome)] hslots' hnext' hbusy hqueue hflag hsettled
    (List.forall_mem_singleton.mpr hown) ?_
  intro taskId
  have hholders := hnext.holders (hslot.tasks_release hlistener) rfl taskId
  rw [WorkerSlot.tasks_listener hslot htask, List.map_singleton, hnextTaskId]
  change List.count taskId [task.taskId] + _ + _ + _ ≤ _ + List.count taskId [task.taskId] + _
  omega

theorem ite_lt_succ (taskId next : ℕ) : (if taskId < next + 1 then 1 else 0) =
    (if (next == taskId) = true then 1 else 0) + if taskId < next then 1 else 0 := by
  simp only [beq_iff_eq]
  split_ifs <;> omega

theorem Inv.step (hinv : s.Inv c) (hstep : s.step c label = some s') : s'.Inv c := by
  cases effect hinv hstep with
  | refused => exact hinv
  | assigns _ _ _ _ slot hslots hidle =>
    have hslot := hinv.consistent slot (hslots ▸ List.mem_append_cons_self)
    refine hinv.move hslots [] rfl (hslot.assign hidle) (fun _ => rfl) id rfl
      (List.append_nil _).symm nofun ?_
    intro taskId
    rw [WorkerSlot.tasks_assign (hslot.listener_of_idle hidle), List.map_append,
      List.count_append, List.map_singleton, List.count_singleton, ite_lt_succ, List.map_nil,
      List.count_nil]
    dsimp only
    omega
  | creates _ hroom =>
    refine ⟨?_, ?_, ?_, ?_, hinv.closed, hinv.own, ?_⟩
    · intro slot hslot
      rcases List.mem_append.mp hslot with hold | hnew
      · exact hinv.consistent slot hold
      · rw [List.mem_singleton.mp hnew]
        exact WorkerSlot.consistent_fresh _
    · intro hne
      exact absurd (hinv.full hne) (not_le.mpr hroom)
    · intro hne
      exact absurd (hinv.full hne) (not_le.mpr hroom)
    · rw [List.length_append]
      exact hroom
    · intro taskId
      have hbefore := hinv.once taskId
      rw [holders] at hbefore
      rw [holders, List.map_append, List.sum_append, List.map_singleton, List.sum_singleton,
        ite_lt_succ]
      change _ + _ + (_ + List.count taskId [s.nextTaskId]) ≤ _
      rw [List.count_singleton]
      dsimp only
      omega
  | settles _ _ _ _ hown =>
    refine ⟨hinv.consistent, hinv.busy, hinv.full, hinv.bounded, hinv.closed,
      own_concat hinv.own hown, ?_⟩
    intro taskId
    have hbefore := hinv.once taskId
    rw [holders] at hbefore
    rw [holders, List.map_append, List.map_singleton, List.count_append, List.count_singleton,
      ite_lt_succ]
    dsimp only
    omega
  | queues _ _ hplaced hbusy hfull =>
    refine ⟨hinv.consistent, fun _ => busy_of_findIdleSlot hbusy, fun _ => hfull,
      hinv.bounded, ?_, hinv.own, ?_⟩
    · intro hclosed
      rw [hplaced.1] at hclosed
      cases hclosed
    · intro taskId
      have hbefore := hinv.once taskId
      rw [holders] at hbefore
      rw [holders, List.map_append, List.map_singleton, List.count_append,
        List.count_singleton, ite_lt_succ]
      dsimp only
      omega
  | starts _ _ slot _ hslots htask =>
    have hslot := hinv.consistent slot (hslots ▸ List.mem_append_cons_self)
    refine hinv.move hslots [] rfl (hslot.start htask) (fun _ => rfl) id rfl
      (List.append_nil _).symm nofun ?_
    intro taskId
    rw [WorkerSlot.tasks_startup hslot htask, List.map_nil, List.count_nil, Nat.zero_add]
    exact le_rfl
  | answers _ _ _ _ _ _ reply hslots htask _ hanswers hnext =>
    exact hinv.moveOn hslots htask (by decide) hnext (Or.inl ⟨reply, hanswers, rfl⟩) rfl rfl rfl
      rfl rfl
  | crashes _ _ _ _ _ _ _ _ hslots htask _ hnext =>
    exact hinv.moveOn hslots htask (by decide) hnext (own_errorOutcome _ _ _) rfl rfl rfl rfl rfl
  | failsToStart _ _ slot task _ _ hslots htask =>
    have hslot := hinv.consistent slot (hslots ▸ List.mem_append_cons_self)
    have hbusy := (hslot.starting (hslot.phase_of_startup htask)).2
    refine hinv.move hslots [(task, _)] rfl (hslot.failStart htask) (fun _ => hbusy) id
      rfl rfl (List.forall_mem_singleton.mpr (own_errorOutcome _ _ _)) ?_
    intro taskId
    rw [WorkerSlot.tasks_startup hslot htask, hslot.tasks_failStart htask, List.map_singleton]
    change List.count taskId [task.taskId] + _ + 0 + _ ≤ _ + List.count taskId [task.taskId] + _
    dsimp only
    omega
  | failsIdle _ _ slot _ hslots hphase hidle =>
    have hslot := hinv.consistent slot (hslots ▸ List.mem_append_cons_self)
    refine hinv.move hslots [] rfl (hslot.failIdle hphase hidle) ?_ id rfl
      (List.append_nil _).symm nofun ?_
    · intro hne
      exact hinv.busy hne slot (hslots ▸ List.mem_append_cons_self)
    · intro taskId
      rw [List.map_nil, List.count_nil, Nat.zero_add]
      exact le_rfl
  | shutdown =>
    refine ⟨hinv.consistent, fun h => absurd rfl h, fun h => absurd rfl h, hinv.bounded,
      fun _ => rfl, ?_, ?_⟩
    · intro entry hentry
      rcases List.mem_append.mp hentry with hold | hnew
      · exact hinv.own entry hold
      · obtain ⟨task, -, rfl⟩ := List.mem_map.mp hnew
        exact Or.inr (Or.inr ⟨_, rfl, rfl⟩)
    · intro taskId
      have hbefore := hinv.once taskId
      rw [holders] at hbefore
      rw [holders, shutdown, List.map_append, List.map_map, List.count_append]
      exact hbefore
  | terminated hclosed =>
    have hempty := hinv.closed hclosed
    refine ⟨nofun, fun h => absurd hempty h, fun h => absurd hempty h, Nat.zero_le _,
      hinv.closed, hinv.own, ?_⟩
    intro taskId
    have hbefore := hinv.once taskId
    rw [holders] at hbefore
    rw [holders]
    exact le_trans (Nat.le_add_right _ _) hbefore

theorem Inv.nodup_settled (hinv : s.Inv c) :
    (s.settled.map fun entry => entry.1.taskId).Nodup := by
  refine List.nodup_iff_count_le_one.mpr fun taskId => ?_
  have honce := hinv.once taskId
  rw [holders] at honce
  split_ifs at honce <;> omega

end PoolState

end Fluxora.Pii
