/-
# The pool of worker threads

A pool has at most a fixed number of workers. Each has a slot, which is busy while the worker
starts or executes a task; a task that finds no idle slot and no room for another worker waits in
a queue of bounded length. A slot that has finished a task takes the next one from the queue.
-/

import Mathlib.Algebra.Order.Group.Nat
import Mathlib.Data.List.Basic

namespace Fluxora.Pii

variable {μ ρ : Type}

/-! ## Tasks and outcomes -/

inductive PoolError
  | shutdown
  | queueFull
  | invalidInput (reason : String)
  | taskFailed (message : String)
  | workerError (message : String)
  | noFallback
  deriving DecidableEq

/-- The error does not come from the execution of a task. -/
def PoolError.ofPool : PoolError → Bool
  | .taskFailed _ => false
  | _ => true

/-- A message of a worker. The error of a failed task need not be a text. -/
inductive WorkerReply (ρ : Type)
  | result (value : ρ)
  | error (text : Option String)
  deriving DecidableEq

/-- What a promise is settled with. -/
abbrev Outcome (ρ : Type) := Except PoolError ρ

def WorkerReply.outcome : WorkerReply ρ → Outcome ρ
  | .result value => .ok value
  | .error text => .error (.taskFailed (text.getD "Worker task failed"))

structure PendingTask (μ : Type) where
  taskId : ℕ
  message : μ
  deriving DecidableEq

structure PoolConfig (μ ρ : Type) where
  maxWorkers : ℕ
  maxQueueSize : ℕ
  validateTaskMessage : μ → Except String Unit
  /-- The function given to `setFallback`, if any. -/
  fallbackFn : Option (μ → Except String ρ)
  /-- What the worker script may answer to a message. -/
  answers : μ → WorkerReply ρ → Bool
  maxWorkers_pos : 0 < maxWorkers

def defaultMaxWorkers : ℕ := 8

def resolveWorkerCount (available : ℕ) (cap : ℕ := defaultMaxWorkers) : ℕ :=
  max 1 (min available cap)

theorem resolveWorkerCount_pos (available cap : ℕ) : 0 < resolveWorkerCount available cap :=
  lt_of_lt_of_le Nat.one_pos (le_max_left ..)

/-! ## Slots -/

inductive WorkerPhase
  | starting
  | online
  | errored
  deriving DecidableEq

structure WorkerSlot (μ : Type) where
  /-- The worker thread. -/
  phase : WorkerPhase
  /-- What has been posted to the worker and not been answered. -/
  inbox : List μ
  busy : Bool
  healthy : Bool
  /-- The task that the start-up listeners hold while neither has fired. -/
  startup : Option (PendingTask μ)
  /-- The task that the listeners for its answer hold. -/
  listener : Option (PendingTask μ)
  deriving DecidableEq

namespace WorkerSlot

variable (slot : WorkerSlot μ)

def assign (task : PendingTask μ) : WorkerSlot μ :=
  { slot with busy := true, listener := some task, inbox := slot.inbox ++ [task.message] }

/-- The slot after its task, with the worker in the given phase. -/
def release (phase : WorkerPhase) (healthy : Bool) : WorkerSlot μ :=
  { slot with
    phase := phase
    healthy := healthy
    busy := false
    listener := none
    inbox := [] }

def fresh (task : PendingTask μ) : WorkerSlot μ := ⟨.starting, [], true, true, some task, none⟩

def tasks : List (PendingTask μ) := slot.startup.toList ++ slot.listener.toList

/-- The worker lives and is starting or executing a task. -/
def Working : Prop := slot.phase = .starting ∨ slot.phase = .online ∧ slot.inbox ≠ []

instance : Decidable slot.Working := by unfold Working; infer_instance

/-- What holds of every slot of a pool. -/
structure Consistent : Prop where
  inbox : slot.inbox = slot.listener.toList.map PendingTask.message
  busy : slot.listener ≠ none → slot.busy = true
  startup : slot.startup ≠ none ↔ slot.phase = .starting
  starting : slot.phase = .starting → slot.listener = none ∧ slot.busy = true
  online : slot.phase = .online → slot.busy = true → slot.listener ≠ none

variable {slot}

theorem consistent_fresh (task : PendingTask μ) : (fresh task).Consistent :=
  ⟨rfl, fun h => absurd rfl h, by simp [fresh], fun _ => ⟨rfl, rfl⟩, fun h => nomatch h⟩

theorem Consistent.working (hslot : slot.Consistent) (hbusy : slot.busy = true)
    (hlive : slot.phase ≠ .errored) : slot.Working := by
  cases hphase : slot.phase with
  | starting => exact Or.inl hphase
  | online =>
    refine Or.inr ⟨hphase, ?_⟩
    rw [hslot.inbox, Ne, List.map_eq_nil_iff]
    intro hnone
    exact hslot.online hphase hbusy (Option.toList_eq_nil_iff.mp hnone)
  | errored => exact absurd hphase hlive

theorem Consistent.phase_of_startup (hslot : slot.Consistent) {task : PendingTask μ}
    (htask : slot.startup = some task) : slot.phase = .starting :=
  hslot.startup.mp (by rw [htask]; exact nofun)

theorem Consistent.startup_of_listener (hslot : slot.Consistent)
    (hlistener : slot.listener ≠ none) :
    slot.startup = none := by
  by_contra hsome
  exact hlistener (hslot.starting (hslot.startup.mp hsome)).1

theorem Consistent.listener_of_idle (hslot : slot.Consistent) (hidle : slot.busy = false) :
    slot.listener = none := by
  by_contra hsome
  have hbusy := hslot.busy hsome
  rw [hidle] at hbusy
  cases hbusy

/-! ## What is done to a slot -/

variable {task : PendingTask μ}

theorem Consistent.assign (hslot : slot.Consistent) (hidle : slot.busy = false) :
    (slot.assign task).Consistent := by
  have hlistener := hslot.listener_of_idle hidle
  refine ⟨?_, fun _ => rfl, hslot.startup, ?_, fun _ _ h => nomatch h⟩
  · change slot.inbox ++ [task.message] = _
    rw [hslot.inbox, hlistener]
    rfl
  · intro hphase
    have hbusy := (hslot.starting hphase).2
    rw [hidle] at hbusy
    cases hbusy

theorem Consistent.start (hslot : slot.Consistent) (htask : slot.startup = some task) :
    ({ slot with phase := .online, startup := none : WorkerSlot μ }.assign task).Consistent := by
  have hphase := hslot.phase_of_startup htask
  refine ⟨?_, fun _ => rfl, ⟨fun h => absurd rfl h, nofun⟩, nofun, fun _ _ h => nomatch h⟩
  change slot.inbox ++ [task.message] = _
  rw [hslot.inbox, (hslot.starting hphase).1]
  rfl

theorem Consistent.release (hslot : slot.Consistent) (hlistener : slot.listener ≠ none)
    {phase : WorkerPhase} (hphase : phase ≠ .starting) (healthy : Bool) :
    (slot.release phase healthy).Consistent := by
  refine ⟨rfl, fun h => absurd rfl h, ⟨?_, fun h => absurd h hphase⟩, fun h => absurd h hphase,
    fun _ h => nomatch h⟩
  intro hsome
  exact absurd (hslot.startup_of_listener hlistener) hsome

theorem Consistent.failStart (hslot : slot.Consistent) (htask : slot.startup = some task) :
    ({ slot with phase := .errored, inbox := [], healthy := false, startup := none } :
      WorkerSlot μ).Consistent := by
  have hphase := hslot.phase_of_startup htask
  obtain ⟨hlistener, hbusy⟩ := hslot.starting hphase
  refine ⟨?_, fun _ => hbusy, ⟨fun h => absurd rfl h, nofun⟩, nofun, nofun⟩
  change [] = slot.listener.toList.map _
  rw [hlistener]
  rfl

theorem Consistent.failIdle (hslot : slot.Consistent) (hphase : slot.phase = .online)
    (hidle : slot.busy = false) :
    ({ slot with phase := .errored, inbox := [] } : WorkerSlot μ).Consistent := by
  refine ⟨?_, hslot.busy, ⟨?_, nofun⟩, nofun, nofun⟩
  · change [] = slot.listener.toList.map _
    rw [hslot.listener_of_idle hidle]
    rfl
  · intro hsome
    have hstarting := hslot.startup.mp hsome
    rw [hphase] at hstarting
    cases hstarting

theorem tasks_assign (hidle : slot.listener = none) :
    (slot.assign task).tasks = slot.tasks ++ [task] := by
  rw [tasks, tasks, hidle]
  exact congrArg (· ++ [task]) (List.append_nil _).symm

theorem tasks_startup (hslot : slot.Consistent) (htask : slot.startup = some task) :
    slot.tasks = [task] := by
  have hphase := hslot.phase_of_startup htask
  rw [tasks, htask, (hslot.starting hphase).1]
  rfl

theorem Consistent.tasks_release (hslot : slot.Consistent) (hlistener : slot.listener ≠ none)
    {phase : WorkerPhase} {healthy : Bool} : (slot.release phase healthy).tasks = [] := by
  change slot.startup.toList ++ [] = []
  rw [hslot.startup_of_listener hlistener]
  rfl

theorem Consistent.tasks_failStart (hslot : slot.Consistent) (htask : slot.startup = some task) :
    ({ slot with phase := .errored, inbox := [], healthy := false, startup := none } :
      WorkerSlot μ).tasks = [] := by
  have hphase := hslot.phase_of_startup htask
  change [] ++ slot.listener.toList = []
  rw [(hslot.starting hphase).1]
  rfl

theorem tasks_listener (hslot : slot.Consistent) (htask : slot.listener = some task) :
    slot.tasks = [task] := by
  rw [tasks, htask, hslot.startup_of_listener (by rw [htask]; exact nofun)]
  rfl

end WorkerSlot

/-! ## The pool -/

structure PoolState (μ ρ : Type) where
  slots : List (WorkerSlot μ) := []
  queue : List (PendingTask μ) := []
  nextTaskId : ℕ := 0
  shutdownFlag : Bool := false
  allWorkersFailed : Bool := false
  /-- The promises that have been settled. -/
  settled : List (PendingTask μ × Outcome ρ) := []

/-- What `exec` returns. -/
inductive PoolPromise (ρ : Type)
  | settled (outcome : Outcome ρ)
  | pending (taskId : ℕ)

def fallbackOutcome (fallback : μ → Except String ρ) (message : μ) : Outcome ρ :=
  match fallback message with
  | .ok value => .ok value
  | .error text => .error (.taskFailed text)

namespace PoolState

variable (c : PoolConfig μ ρ) (i : ℕ) (task : PendingTask μ) (s : PoolState μ ρ)

def settle (outcome : Outcome ρ) : PoolState μ ρ :=
  { s with settled := s.settled ++ [(task, outcome)] }

def update (change : WorkerSlot μ → WorkerSlot μ) : PoolState μ ρ :=
  { s with slots := s.slots.modify i change }

def invokeFallback : PoolState μ ρ :=
  s.settle task (match c.fallbackFn with
    | some fallback => fallbackOutcome fallback task.message
    | none => .error .noFallback)

def findIdleSlot : Option ℕ := s.slots.findIdx? fun slot => !slot.busy

def dispatch : PoolState μ ρ := s.update i (·.assign task)

def drainQueue : PoolState μ ρ :=
  if s.shutdownFlag then s
  else
    match s.queue with
    | [] => s
    | task :: rest => { s with queue := rest }.dispatch i task

/-- The listener for messages. -/
def messageHandler (reply : WorkerReply ρ) : PoolState μ ρ :=
  ((s.update i fun slot => { slot with busy := false, listener := none }).settle task
    reply.outcome).drainQueue i

/-- No slot is marked healthy. -/
def noneHealthy : Bool := s.slots.all fun slot => !slot.healthy

/-- The listener for errors while a task is executed. -/
def errorHandler (err : String) : PoolState μ ρ :=
  let s := s.update i fun slot => { slot with busy := false, healthy := false, listener := none }
  (if s.noneHealthy ∧ c.fallbackFn.isSome then
    invokeFallback c task { s with allWorkersFailed := true }
  else s.settle task (.error (.workerError err))).drainQueue i

/-- The listener for an error during the start. -/
def onStartupError (err : String) : PoolState μ ρ :=
  let s := s.update i fun slot => { slot with healthy := false, startup := none }
  let s := { s with allWorkersFailed := s.allWorkersFailed || s.noneHealthy }
  if s.allWorkersFailed ∧ c.fallbackFn.isSome then invokeFallback c task s
  else s.settle task (.error (.workerError err))

def onOnline : PoolState μ ρ :=
  (s.update i fun slot => { slot with startup := none }).dispatch i task

/-- `constructs` says whether the construction of the worker succeeds. -/
def createWorkerAndDispatch (constructs : Bool) : PoolState μ ρ :=
  if constructs then { s with slots := s.slots ++ [.fresh task] }
  else invokeFallback c task { s with allWorkersFailed := true }

/-- The body of the promise that `exec` makes. -/
def place (constructs : Bool) : PoolState μ ρ :=
  match s.findIdleSlot with
  | some i => s.dispatch i task
  | none =>
    if s.slots.length < c.maxWorkers then s.createWorkerAndDispatch c task constructs
    else if c.maxQueueSize ≤ s.queue.length then s.settle task (.error .queueFull)
    else { s with queue := s.queue ++ [task] }

/-- The fallback takes the tasks, because every worker has failed. -/
def degraded : Option (μ → Except String ρ) := c.fallbackFn.filter fun _ => s.allWorkersFailed

def exec (message : μ) (constructs : Bool) : PoolState μ ρ × PoolPromise ρ :=
  if s.shutdownFlag then (s, .settled (.error .shutdown))
  else
    match c.validateTaskMessage message with
    | .error reason => (s, .settled (.error (.invalidInput reason)))
    | .ok () =>
      match s.degraded c with
      | some fallback => (s, .settled (fallbackOutcome fallback message))
      | none =>
        (place c ⟨s.nextTaskId, message⟩ { s with nextTaskId := s.nextTaskId + 1 } constructs,
          .pending s.nextTaskId)

/-- `shutdown` up to the termination of the workers. -/
def shutdown : PoolState μ ρ :=
  { s with
    shutdownFlag := true
    queue := []
    settled := s.settled ++ s.queue.map fun task => (task, .error .shutdown) }

end PoolState

/-! ## Steps -/

inductive PoolLabel (μ ρ : Type)
  | exec (message : μ) (constructs : Bool)
  | online (i : ℕ)
  | message (i : ℕ) (reply : WorkerReply ρ)
  | error (i : ℕ) (err : String)
  | shutdown
  | terminated

namespace PoolState

/-- The first event of a worker that is starting. -/
def onlineEvent (i : ℕ) (s : PoolState μ ρ) : Option (PoolState μ ρ) := do
  let slot ← s.slots[i]?
  let task ← slot.startup
  some ((s.update i fun slot => { slot with phase := .online }).onOnline i task)

/-- A worker answers the oldest message posted to it. -/
def messageEvent (c : PoolConfig μ ρ) (i : ℕ) (reply : WorkerReply ρ) (s : PoolState μ ρ) :
    Option (PoolState μ ρ) := do
  let slot ← s.slots[i]?
  let message ← slot.inbox.head?
  let task ← slot.listener
  if slot.phase = .online ∧ c.answers message reply = true then
    some ((s.update i fun slot => { slot with inbox := slot.inbox.tail }).messageHandler i task
      reply)
  else none

/-- A worker fails, whatever it is doing. It has ended then, and with it its port. A worker
that is idle has no listener left that heeds its error. -/
def errorEvent (c : PoolConfig μ ρ) (i : ℕ) (err : String) (s : PoolState μ ρ) :
    Option (PoolState μ ρ) := do
  let slot ← s.slots[i]?
  if slot.phase = .errored then none
  else
    let s := s.update i fun slot => { slot with phase := .errored, inbox := [] }
    match slot.startup, slot.listener with
    | some task, _ => some (s.onStartupError c i task err)
    | none, some task => some (s.errorHandler c i task err)
    | none, none => some s

def step (c : PoolConfig μ ρ) (s : PoolState μ ρ) : PoolLabel μ ρ → Option (PoolState μ ρ)
  | .exec message constructs => some (s.exec c message constructs).1
  | .online i => s.onlineEvent i
  | .message i reply => s.messageEvent c i reply
  | .error i err => s.errorEvent c i err
  | .shutdown => some s.shutdown
  | .terminated => if s.shutdownFlag then some { s with slots := [] } else none

end PoolState

end Fluxora.Pii
