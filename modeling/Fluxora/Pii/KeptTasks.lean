/-
# Tasks that a pool keeps

A task is kept while it has been settled with a value, is held by a slot whose worker lives, or
waits in the queue of a pool in which some worker lives. A task that is not kept never becomes so:
it has been rejected, or lies with a dead worker, or waits for one.
-/

import Fluxora.Pii.PoolSteps

namespace Fluxora.Pii

open Lib.Split Lib.Transition

variable {μ ρ : Type}

/-- The fallback and the workers compute a function of the message. -/
structure PoolConfig.Computes (c : PoolConfig μ ρ) (value : μ → ρ) : Prop where
  fallback : ∀ fallback, c.fallbackFn = some fallback → ∀ message,
    fallback message = .ok (value message)
  answers : ∀ message reply, c.answers message reply = true ↔ reply = .result (value message)

namespace PoolState

variable {c : PoolConfig μ ρ} {s s' : PoolState μ ρ} {task : PendingTask μ}
  {value : μ → ρ} {slot : WorkerSlot μ}

/-! ## Kept tasks -/

def Kept (s : PoolState μ ρ) (task : PendingTask μ) : Prop :=
  (∃ value, (task, .ok value) ∈ s.settled) ∨
    (∃ slot ∈ s.slots, task ∈ slot.tasks ∧ slot.phase ≠ .errored) ∨
      task ∈ s.queue ∧ ∃ slot ∈ s.slots, slot.phase ≠ .errored

/-- No live worker is starting or executing a task. -/
def Resting (s : PoolState μ ρ) : Prop := ∀ slot ∈ s.slots, ¬ slot.Working

/-- A worker that fails with the task is the last one that was marked healthy, so that the
fallback takes the task. A worker that fails while the task is queued leaves another live
one, and does not go on with the task. -/
def ErrorSpares (c : PoolConfig μ ρ) (s : PoolState μ ρ) (task : PendingTask μ) (i : ℕ) : Prop :=
  ∀ slot, s.slots[i]? = some slot →
    (task ∈ slot.tasks → c.fallbackFn.isSome = true ∧
      (s.lastHealthy i = true ∨ slot.startup ≠ none ∧ s.allWorkersFailed = true)) ∧
    (task ∈ s.queue → (∃ other ∈ s.slots.eraseIdx i, other.phase ≠ .errored) ∧
      (slot.listener = none ∨ s.queue.head? ≠ some task))

/-- The step does not give up the task. -/
def Spares (c : PoolConfig μ ρ) (s : PoolState μ ρ) (task : PendingTask μ) :
    PoolLabel μ ρ → Prop
  | .error i _ => s.ErrorSpares c task i
  | .shutdown => task ∉ s.queue
  | .terminated => ∀ slot ∈ s.slots, task ∉ slot.tasks
  | _ => True

/-! ## A task has one place -/

theorem count_pos_of_mem {tasks : List (PendingTask μ)} (h : task ∈ tasks) :
    0 < (tasks.map PendingTask.taskId).count task.taskId :=
  List.count_pos_iff.mpr (List.mem_map_of_mem h)

theorem count_pos_of_settled {outcome : Outcome ρ} (h : (task, outcome) ∈ s.settled) :
    0 < (s.settled.map fun entry => entry.1.taskId).count task.taskId :=
  List.count_pos_iff.mpr (List.mem_map.mpr ⟨_, h, rfl⟩)

theorem Inv.holders_le_one (hinv : s.Inv c) (taskId : ℕ) : s.holders taskId ≤ 1 := by
  have honce := hinv.once taskId
  split_ifs at honce <;> omega

theorem sum_pos_of_mem {slots : List (WorkerSlot μ)} (hslot : slot ∈ slots)
    (htask : task ∈ slot.tasks) :
    0 < (slots.map fun slot =>
      (slot.tasks.map PendingTask.taskId).count task.taskId).sum := by
  obtain ⟨before, after, rfl⟩ := List.append_of_mem hslot
  have hpos := count_pos_of_mem htask
  rw [List.map_append, List.map_cons, List.sum_append, List.sum_cons]
  omega

theorem Inv.not_queue_of_settled (hinv : s.Inv c) {outcome : Outcome ρ}
    (h : (task, outcome) ∈ s.settled) : task ∉ s.queue := by
  intro hqueue
  have honce := hinv.holders_le_one task.taskId
  have hfirst := count_pos_of_settled h
  have hsecond := count_pos_of_mem hqueue
  rw [holders] at honce
  omega

theorem Inv.not_slot_of_settled (hinv : s.Inv c) {outcome : Outcome ρ}
    (h : (task, outcome) ∈ s.settled) (hslot : slot ∈ s.slots) : task ∉ slot.tasks := by
  intro htask
  have honce := hinv.holders_le_one task.taskId
  have hfirst := count_pos_of_settled h
  have hsecond := sum_pos_of_mem hslot htask
  rw [holders] at honce
  omega

theorem Inv.not_slot_of_queue (hinv : s.Inv c) (h : task ∈ s.queue)
    (hslot : slot ∈ s.slots) : task ∉ slot.tasks := by
  intro htask
  have honce := hinv.holders_le_one task.taskId
  have hfirst := count_pos_of_mem h
  have hsecond := sum_pos_of_mem hslot htask
  rw [holders] at honce
  omega

theorem Inv.not_other (hinv : s.Inv c) {before after : List (WorkerSlot μ)} {other : WorkerSlot μ}
    (hslots : s.slots = before ++ slot :: after) (htask : task ∈ slot.tasks)
    (hother : other ∈ before ++ after) : task ∉ other.tasks := by
  intro htask'
  have honce := hinv.holders_le_one task.taskId
  have hfirst := count_pos_of_mem htask
  have hsecond := sum_pos_of_mem hother htask'
  rw [List.map_append, List.sum_append] at hsecond
  rw [holders, hslots, List.map_append, List.map_cons, List.sum_append, List.sum_cons] at honce
  omega

theorem Inv.not_rest (hinv : s.Inv c) {rest : List (PendingTask μ)}
    (hqueue : s.queue = task :: rest) : task ∉ rest := by
  intro htask
  have honce := hinv.holders_le_one task.taskId
  have hrest := count_pos_of_mem htask
  rw [holders, hqueue, List.map_cons, List.count_cons_self] at honce
  omega

/-! ## What a step does to a kept task -/

theorem kept_split_iff {before after : List (WorkerSlot μ)}
    (hslots : s.slots = before ++ slot :: after) :
    s.Kept task ↔ (∃ value, (task, .ok value) ∈ s.settled) ∨
      (task ∈ slot.tasks ∧ slot.phase ≠ .errored ∨
        ∃ other ∈ before ++ after, task ∈ other.tasks ∧ other.phase ≠ .errored) ∨
      task ∈ s.queue ∧
        (slot.phase ≠ .errored ∨ ∃ other ∈ before ++ after, other.phase ≠ .errored) := by
  rw [Kept, hslots, exists_split_iff, exists_split_iff]

theorem exists_mem_concat {settled : List (PendingTask μ × Outcome ρ)} {done : PendingTask μ}
    {outcome : Outcome ρ} :
    (∃ value, (task, .ok value) ∈ settled ++ [(done, outcome)]) ↔
      (∃ value, (task, .ok value) ∈ settled) ∨ task = done ∧ ∃ value, outcome = .ok value := by
  apply Iff.intro
  · rintro ⟨value, hmem⟩
    rcases List.mem_append.mp hmem with hold | hnew
    · exact Or.inl ⟨value, hold⟩
    · obtain ⟨rfl, rfl⟩ := Prod.mk.inj (List.mem_singleton.mp hnew)
      exact Or.inr ⟨rfl, value, rfl⟩
  · rintro (⟨value, hold⟩ | ⟨rfl, value, rfl⟩)
    · exact ⟨value, List.mem_append_left _ hold⟩
    · exact ⟨value, List.mem_append_right _ List.mem_cons_self⟩

theorem errorOutcome_ok_iff (hcomputes : c.Computes value) (last : Bool) (message : μ)
    (err : String) :
    (∃ value, errorOutcome c last message err = .ok value) ↔
      c.fallbackFn.isSome = true ∧ last = true := by
  rw [errorOutcome]
  cases hfallback : c.fallbackFn with
  | none =>
    refine iff_of_false ?_ fun h => by cases h.1
    rintro ⟨_, h⟩
    cases h
  | some fallback =>
    cases last with
    | false =>
      refine iff_of_false ?_ fun h => by cases h.2
      rintro ⟨_, h⟩
      cases h
    | true =>
      refine iff_of_true ?_ ⟨rfl, rfl⟩
      refine ⟨value message, ?_⟩
      change fallbackOutcome fallback message = _
      rw [fallbackOutcome, hcomputes.fallback fallback hfallback]

theorem Next.kept (task : PendingTask μ) {queue rest : List (PendingTask μ)} {next : WorkerSlot μ}
    (hnext : Next queue slot next rest) (htasks : slot.tasks = [])
    (hlistener : slot.listener = none) :
    next.phase = slot.phase ∧ (task ∈ next.tasks ∨ task ∈ rest ↔ task ∈ queue) := by
  cases hnext with
  | rests hqueue =>
    rw [htasks, hqueue, or_self]
    exact ⟨rfl, Iff.rfl⟩
  | continues _ _ hqueue =>
    rw [WorkerSlot.tasks_assign hlistener, htasks, hqueue, List.mem_cons, List.nil_append,
      List.mem_singleton]
    exact ⟨rfl, Iff.rfl⟩

theorem Next.subset {queue rest : List (PendingTask μ)} {next : WorkerSlot μ}
    (hnext : Next queue slot next rest) : ∀ other, other ∈ rest → other ∈ queue := by
  intro other hother
  cases hnext with
  | rests => cases hother
  | continues _ _ hqueue =>
    rw [hqueue]
    exact List.mem_cons_of_mem _ hother

theorem ne_of_old {message : μ} (hold : task.taskId < s.nextTaskId) :
    task ≠ ⟨s.nextTaskId, message⟩ := by
  rintro rfl
  exact lt_irrefl _ hold

theorem kept_fail_iff (hinv : s.Inv c) {before after : List (WorkerSlot μ)} {slot' : WorkerSlot μ}
    {done : PendingTask μ} {outcome : Outcome ρ} (hslots : s.slots = before ++ slot :: after)
    (hdone : slot.tasks = [done]) (hlive : slot.phase ≠ .errored) (hdead : slot'.phase = .errored)
    (hslots' : s'.slots = before ++ slot' :: after)
    (hsettled' : s'.settled = s.settled ++ [(done, outcome)])
    (hsub : ∀ other, other ∈ s'.queue → other ∈ s.queue) :
    s'.Kept task ↔ s.Kept task ∧ (task = done → ∃ value, outcome = .ok value) ∧
      (task ∈ s.queue → task ∈ s'.queue ∧ ∃ other ∈ before ++ after, other.phase ≠ .errored) := by
  have hmem : slot ∈ s.slots := hslots ▸ List.mem_append_cons_self
  rw [kept_split_iff hslots, kept_split_iff hslots', hsettled', exists_mem_concat, hdone,
    List.mem_singleton, hdead]
  apply Iff.intro
  · rintro ((⟨value, hvalue⟩ | ⟨rfl, hok⟩) | (⟨-, habsurd⟩ | ⟨other, hother, htask, hphase⟩) |
      ⟨hqueue, hothers⟩)
    · refine ⟨Or.inl ⟨value, hvalue⟩, ?_, ?_⟩
      · rintro rfl
        exact absurd (hdone ▸ List.mem_cons_self) (hinv.not_slot_of_settled hvalue hmem)
      · exact fun hqueue => absurd hqueue (hinv.not_queue_of_settled hvalue)
    · refine ⟨Or.inr (Or.inl (Or.inl ⟨rfl, hlive⟩)), fun _ => hok, fun hqueue => ?_⟩
      exact absurd (hdone ▸ List.mem_cons_self) (hinv.not_slot_of_queue hqueue hmem)
    · exact absurd rfl habsurd
    · refine ⟨Or.inr (Or.inl (Or.inr ⟨other, hother, htask, hphase⟩)), ?_, ?_⟩
      · rintro rfl
        exact absurd htask (hinv.not_other hslots (hdone ▸ List.mem_cons_self) hother)
      · intro hqueue
        exact absurd htask (hinv.not_slot_of_queue hqueue (hslots ▸ mem_split hother))
    · have hqueued := hsub task (by
        rcases hothers with habsurd | _
        · exact absurd rfl habsurd
        · exact hqueue)
      refine ⟨Or.inr (Or.inr ⟨hqueued, Or.inl hlive⟩), ?_, ?_⟩
      · rintro rfl
        exact absurd (hdone ▸ List.mem_cons_self) (hinv.not_slot_of_queue hqueued hmem)
      · exact fun _ => ⟨hqueue, hothers.resolve_left fun habsurd => habsurd rfl⟩
  · rintro ⟨hvalue | (⟨htask, -⟩ | hother) | ⟨hqueued, -⟩, hok, hrest⟩
    · exact Or.inl (Or.inl hvalue)
    · exact Or.inl (Or.inr ⟨htask, hok htask⟩)
    · exact Or.inr (Or.inl (Or.inr hother))
    · obtain ⟨hqueue, hothers⟩ := hrest hqueued
      exact Or.inr (Or.inr ⟨hqueue, Or.inr hothers⟩)

theorem errorSpares_split {before after : List (WorkerSlot μ)}
    (hslots : s.slots = before ++ slot :: after) :
    s.ErrorSpares c task before.length ↔
      (task ∈ slot.tasks → c.fallbackFn.isSome = true ∧
        (s.lastHealthy before.length = true ∨
          slot.startup ≠ none ∧ s.allWorkersFailed = true)) ∧
      (task ∈ s.queue → (∃ other ∈ before ++ after, other.phase ≠ .errored) ∧
        (slot.listener = none ∨ s.queue.head? ≠ some task)) := by
  rw [ErrorSpares, getElem?_split hslots, hslots, eraseIdx_split]
  apply Iff.intro
  · exact fun h => h slot rfl
  · rintro h other hother
    cases hother
    exact h

theorem Inv.not_head_iff (hinv : s.Inv c) {next : WorkerSlot μ} {rest : List (PendingTask μ)}
    (hnext : Next s.queue slot next rest)
    (hqueue : task ∈ s.queue) : s.queue.head? ≠ some task ↔ task ∈ rest := by
  cases hnext with
  | rests hempty =>
    rw [hempty] at hqueue
    cases hqueue
  | continues _ _ hfirst =>
    rw [hfirst, List.mem_cons] at hqueue
    rw [hfirst, List.head?_cons]
    apply Iff.intro
    · intro hne
      exact hqueue.resolve_left fun heq => hne (congrArg some heq.symm)
    · rintro hrest heq
      cases heq
      exact hinv.not_rest hfirst hrest

theorem kept_shutdown_iff (hinv : s.Inv c) :
    s.shutdown.Kept task ↔ s.Kept task ∧ task ∉ s.queue := by
  have hsettled : (∃ value, (task, .ok value) ∈ s.shutdown.settled) ↔
      ∃ value, (task, .ok value) ∈ s.settled := by
    refine exists_congr fun value => ⟨fun h => ?_, List.mem_append_left _⟩
    rcases List.mem_append.mp h with hold | hnew
    · exact hold
    · obtain ⟨other, -, hother⟩ := List.mem_map.mp hnew
      cases hother
  rw [Kept, hsettled]
  apply Iff.intro
  · rintro (⟨value, hvalue⟩ | hslot | ⟨hqueue, -⟩)
    · exact ⟨Or.inl ⟨value, hvalue⟩, hinv.not_queue_of_settled hvalue⟩
    · refine ⟨Or.inr (Or.inl hslot), fun hqueue => ?_⟩
      obtain ⟨slot, hslot, htask, -⟩ := hslot
      exact hinv.not_slot_of_queue hqueue hslot htask
    · cases hqueue
  · rintro ⟨hvalue | hslot | ⟨hqueue, -⟩, hspares⟩
    · exact Or.inl hvalue
    · exact Or.inr (Or.inl hslot)
    · exact absurd hqueue hspares

theorem kept_terminated_iff (hinv : s.Inv c) (hclosed : s.shutdownFlag = true) :
    ({ s with slots := [] } : PoolState μ ρ).Kept task ↔
      s.Kept task ∧ ∀ slot ∈ s.slots, task ∉ slot.tasks := by
  have hempty := hinv.closed hclosed
  rw [Kept]
  apply Iff.intro
  · rintro (⟨value, hvalue⟩ | ⟨slot, hslot, -⟩ | ⟨-, slot, hslot, -⟩)
    · exact ⟨Or.inl ⟨value, hvalue⟩, fun slot hslot => hinv.not_slot_of_settled hvalue hslot⟩
    · cases hslot
    · cases hslot
  · rintro ⟨hvalue | ⟨slot, hslot, htask, -⟩ | ⟨hqueue, -⟩, hspares⟩
    · exact Or.inl hvalue
    · exact absurd htask (hspares slot hslot)
    · rw [hempty] at hqueue
      cases hqueue

theorem kept_step_iff (hcomputes : c.Computes value) (hinv : s.Inv c)
    (hold : task.taskId < s.nextTaskId)
    {label : PoolLabel μ ρ} (hstep : s.step c label = some s') :
    s'.Kept task ↔ s.Kept task ∧ s.Spares c task label := by
  cases effect hinv hstep with
  | refused => exact (and_iff_left trivial).symm
  | assigns message _ _ _ slot hslots hidle =>
    refine Iff.trans ?_ (and_iff_left trivial).symm
    obtain ⟨htasks, hlistener, hempty⟩ := hinv.idle (hslots ▸ List.mem_append_cons_self) hidle
    have hphase : (slot.assign ⟨s.nextTaskId, message⟩).phase = slot.phase := rfl
    rw [kept_split_iff hslots, kept_split_iff rfl, WorkerSlot.tasks_assign hlistener, htasks,
      List.nil_append, List.mem_singleton, iff_false_intro (ne_of_old hold), hphase]
    simp only [hempty, List.not_mem_nil]
  | creates message hroom =>
    refine Iff.trans ?_ (and_iff_left trivial).symm
    have hempty : s.queue = [] := by
      by_contra hne
      exact absurd (hinv.full hne) (not_le.mpr hroom)
    have htasks : task ∉ (WorkerSlot.fresh (⟨s.nextTaskId, message⟩ : PendingTask μ)).tasks :=
      fun h => ne_of_old hold (List.mem_singleton.mp h)
    rw [Kept, Kept, exists_split_iff, List.append_nil, iff_false_intro htasks, false_and,
      false_or]
    simp only [hempty, List.not_mem_nil, false_and]
  | settles =>
    refine Iff.trans ?_ (and_iff_left trivial).symm
    rw [Kept, Kept, exists_mem_concat, iff_false_intro (ne_of_old hold), false_and, or_false]
  | queues =>
    refine Iff.trans ?_ (and_iff_left trivial).symm
    rw [Kept, Kept, List.mem_append, List.mem_singleton, iff_false_intro (ne_of_old hold),
      or_false]
  | starts _ _ slot done hslots htask =>
    refine Iff.trans ?_ (and_iff_left trivial).symm
    have hslot := hinv.consistent slot (hslots ▸ List.mem_append_cons_self)
    have hlive : slot.phase ≠ .errored := by
      rw [hslot.phase_of_startup htask]
      decide
    have hlive' : ({ slot with phase := .online, startup := none : WorkerSlot μ }.assign
        done).phase ≠ .errored := nofun
    have htasks : ({ slot with phase := .online, startup := none : WorkerSlot μ }.assign
        done).tasks = slot.tasks := (WorkerSlot.tasks_startup hslot htask).symm
    rw [kept_split_iff hslots, kept_split_iff rfl, htasks, iff_true_intro hlive,
      iff_true_intro hlive']
  | answers _ _ slot next done _ _ hslots htask hphase hanswers hnext =>
    refine Iff.trans ?_ (and_iff_left trivial).symm
    have hslot := hinv.consistent slot (hslots ▸ List.mem_append_cons_self)
    have hlistener : slot.listener ≠ none := by rw [htask]; exact nofun
    obtain rfl := (hcomputes.answers _ _).mp hanswers
    obtain ⟨hphase', hplace⟩ := hnext.kept task (hslot.tasks_release hlistener) rfl
    have hlive : slot.phase ≠ .errored := by
      rw [hphase]
      decide
    have hlive' : next.phase ≠ .errored := by
      rw [hphase']
      exact nofun
    have hok : ∃ found, (WorkerReply.result (value done.message)).outcome = .ok found :=
      ⟨_, rfl⟩
    rw [kept_split_iff hslots, kept_split_iff rfl, exists_mem_concat, ← hplace,
      WorkerSlot.tasks_listener hslot htask, List.mem_singleton, iff_true_intro hlive,
      iff_true_intro hlive', iff_true_intro hok]
    simp only [and_true, true_or]
    grind
  | crashes _ _ slot _ _ _ _ _ hslots htask hlive hnext =>
    have hslot := hinv.consistent slot (hslots ▸ List.mem_append_cons_self)
    have hlistener : slot.listener ≠ none := by rw [htask]; exact nofun
    have htasks := WorkerSlot.tasks_listener hslot htask
    obtain ⟨hphase, hplace⟩ := hnext.kept task (hslot.tasks_release hlistener) rfl
    refine (kept_fail_iff hinv hslots htasks hlive hphase rfl rfl hnext.subset).trans ?_
    refine and_congr_right' ?_
    rw [errorOutcome_ok_iff hcomputes, Spares, errorSpares_split hslots, htasks,
      List.mem_singleton, hslot.startup_of_listener hlistener, iff_false_intro hlistener]
    refine and_congr (by simp) (forall_congr' fun hqueue => ?_)
    rw [false_or, hinv.not_head_iff hnext hqueue, and_comm]
  | failsToStart _ _ slot _ _ _ hslots htask =>
    have hslot := hinv.consistent slot (hslots ▸ List.mem_append_cons_self)
    have hphase := hslot.phase_of_startup htask
    have hlive : slot.phase ≠ .errored := by
      rw [hphase]
      decide
    have htasks := WorkerSlot.tasks_startup hslot htask
    refine (kept_fail_iff hinv hslots htasks hlive rfl rfl rfl
      (by exact fun _ h => h)).trans ?_
    refine and_congr_right' ?_
    rw [errorOutcome_ok_iff hcomputes, Spares, errorSpares_split hslots, htasks,
      List.mem_singleton, htask,
      (hslot.starting hphase).1]
    refine and_congr (by simp [or_comm]) (forall_congr' fun hqueue => ?_)
    rw [iff_true_intro hqueue, true_and, eq_self_iff_true, true_or, and_true]
  | failsIdle before _ slot err hslots _ hidle =>
    obtain ⟨htasks, hlistener, hempty⟩ := hinv.idle (hslots ▸ List.mem_append_cons_self) hidle
    have htasks' : ({ slot with phase := .errored, inbox := [] } : WorkerSlot μ).tasks = [] :=
      htasks
    have hspares : s.Spares c task (.error before.length err) := by
      rw [Spares, errorSpares_split hslots, htasks, hempty]
      exact ⟨nofun, nofun⟩
    rw [and_iff_left hspares, kept_split_iff hslots, kept_split_iff rfl, htasks, htasks']
    simp only [hempty, List.not_mem_nil, false_and, false_or]
  | shutdown => exact kept_shutdown_iff hinv
  | terminated hclosed => exact kept_terminated_iff hinv hclosed

end PoolState

end Fluxora.Pii
