/-
# The dedup cache over Redis and memory

An event key is added to Redis, and to the memory of the process when Redis fails. An add asks the
memory first, then Redis, and enters the key in the memory when Redis has answered that it is new;
between these steps other adds of the process go on.

A run keeps the adds that have returned true with their times.
-/

import Fluxora.Lib.ExpiryQueue
import Fluxora.Lib.Transition
import Fluxora.Lib.TtlTable
import Fluxora.Streams.EventService

namespace Fluxora.Streams.InMemoryDedupCache

open Lib

/-- Looking a key up drops it when it has expired. -/
def has (cache : InMemoryDedupCache) (now : ℕ) (streamId eventId : String) :
    Bool × InMemoryDedupCache :=
  let key := cacheKey streamId eventId
  if cache.isLive now key then (true, cache)
  else (false, { cache with seen := cache.seen.filter (·.1 ≠ key) })

variable {cache : InMemoryDedupCache} {now : ℕ} {streamId eventId : String} {key : String}

theorem add_of_live (hlive : cache.isLive now (cacheKey streamId eventId) = true) :
    cache.add now streamId eventId = (false, cache) := by
  rw [add, if_pos hlive]

theorem add_of_not_live (hnew : cache.isLive now (cacheKey streamId eventId) = false) :
    cache.add now streamId eventId =
      (true, { cache with
        seen := ExpiryQueue.enter dedupCacheMax cache.seen (cacheKey streamId eventId)
          (now + cache.windowMs) }) := by
  rw [add, if_neg (by rw [hnew]; exact Bool.false_ne_true)]
  rfl

theorem has_of_live (hlive : cache.isLive now (cacheKey streamId eventId) = true) :
    cache.has now streamId eventId = (true, cache) := by
  rw [has, if_pos hlive]

theorem has_of_not_live (hnew : cache.isLive now (cacheKey streamId eventId) = false) :
    cache.has now streamId eventId =
      (false, { cache with seen := cache.seen.filter (·.1 ≠ cacheKey streamId eventId) }) := by
  rw [has, if_neg (by rw [hnew]; exact Bool.false_ne_true)]

theorem isLive_iff {horizon : ℕ} (h : ExpiryQueue.Ordered cache.seen horizon) :
    cache.isLive now key = true ↔ ∃ time, (key, time) ∈ cache.seen ∧ now < time := by
  rw [isLive, Option.any_eq_true]
  apply Iff.intro
  · rintro ⟨time, hlookup, hlive⟩
    exact ⟨time, (ExpiryQueue.lookup_eq_some_iff h).mp hlookup, of_decide_eq_true hlive⟩
  · rintro ⟨time, hmem, hlive⟩
    exact ⟨time, (ExpiryQueue.lookup_eq_some_iff h).mpr hmem, decide_eq_true hlive⟩

end Fluxora.Streams.InMemoryDedupCache

namespace Fluxora.Redis

open Lib Lib.TtlTable Lib.Transition Streams Streams.InMemoryDedupCache

/-! ## The memory of the process -/

/-- The clock, the memory, and the keys of the adds that have returned true with the times
they did. -/
structure DedupMemory where
  clock : ℕ := 0
  fallback : InMemoryDedupCache
  admitted : List (String × ℕ) := []

/-- What happens to the memory. -/
inductive MemoryStep
  | tick (ms : ℕ)
  | idle
  | has (streamId eventId : String)
  /-- The memory decides. -/
  | decided (streamId eventId : String)
  /-- Redis has answered that the key is new. -/
  | told (streamId eventId : String)

namespace DedupMemory

variable (m : DedupMemory)

def admitKey (key : String) : List (String × ℕ) := m.admitted ++ [(key, m.clock)]

def step : MemoryStep → DedupMemory
  | .tick ms => { m with clock := m.clock + ms }
  | .idle => m
  | .has streamId eventId => { m with fallback := (m.fallback.has m.clock streamId eventId).2 }
  | .decided streamId eventId =>
    let entered := m.fallback.add m.clock streamId eventId
    { m with
      fallback := entered.2
      admitted := if entered.1 then m.admitKey (cacheKey streamId eventId) else m.admitted }
  | .told streamId eventId =>
    { m with
      fallback := (m.fallback.add m.clock streamId eventId).2
      admitted := m.admitKey (cacheKey streamId eventId) }

/-- Two adds of a key that return true lie a window apart. -/
def AdmitsOnce : Prop :=
  m.admitted.Pairwise fun first second =>
    first.1 = second.1 → first.2 + m.fallback.windowMs ≤ second.2

/-- Fewer keys are live than fit. -/
def HasRoom : Prop := ExpiryQueue.liveCount m.fallback.seen m.clock < dedupCacheMax

/-- A key that Redis calls new is not in the memory. -/
def ToldNew : MemoryStep → Prop
  | .told streamId eventId => m.fallback.isLive m.clock (cacheKey streamId eventId) = false
  | _ => True

/-! ### What the memory knows -/

/-- The memory holds keys that were admitted. -/
structure Backed : Prop where
  ordered : ExpiryQueue.Ordered m.fallback.seen (m.clock + m.fallback.windowMs)
  past : ∀ entry ∈ m.admitted, entry.2 ≤ m.clock
  entered : ∀ entry ∈ m.fallback.seen, ∃ time, entry.2 = time + m.fallback.windowMs ∧
    (entry.1, time) ∈ m.admitted

/-- The memory holds every key that was admitted for its window. -/
def Remembers : Prop :=
  ∀ entry ∈ m.admitted, m.clock < entry.2 + m.fallback.windowMs →
    (entry.1, entry.2 + m.fallback.windowMs) ∈ m.fallback.seen

variable {m} {streamId eventId : String} {key : String}

theorem step_windowMs (move : MemoryStep) :
    (m.step move).fallback.windowMs = m.fallback.windowMs := by
  have hadd : ∀ streamId eventId,
      (m.fallback.add m.clock streamId eventId).2.windowMs = m.fallback.windowMs := by
    intro streamId eventId
    cases hlive : m.fallback.isLive m.clock (cacheKey streamId eventId) with
    | true => rw [add_of_live hlive]
    | false => rw [add_of_not_live hlive]
  cases move with
  | tick | idle => rfl
  | has streamId eventId =>
    cases hlive : m.fallback.isLive m.clock (cacheKey streamId eventId) with
    | true => rw [step, has_of_live hlive]
    | false => rw [step, has_of_not_live hlive]
  | decided streamId eventId | told streamId eventId => exact hadd streamId eventId

theorem Backed.exists_of_isLive (h : m.Backed) (hlive : m.fallback.isLive m.clock key = true) :
    ∃ time, (key, time) ∈ m.admitted ∧ m.clock < time + m.fallback.windowMs := by
  obtain ⟨expiry, hmem, hexpiry⟩ := (isLive_iff h.ordered).mp hlive
  obtain ⟨time, htime, hadmitted⟩ := h.entered _ hmem
  dsimp only at htime
  exact ⟨time, hadmitted, htime ▸ hexpiry⟩

theorem Remembers.not_within (hremembers : m.Remembers) (h : m.Backed)
    (hnew : m.fallback.isLive m.clock key = false) {time : ℕ}
    (hadmitted : (key, time) ∈ m.admitted) : time + m.fallback.windowMs ≤ m.clock := by
  by_contra hwithin
  have hmem := hremembers _ hadmitted (not_le.mp hwithin)
  have hlive : m.fallback.isLive m.clock key = true :=
    (isLive_iff h.ordered).mpr ⟨_, hmem, not_le.mp hwithin⟩
  rw [hnew] at hlive
  cases hlive

/-! ### One step -/

theorem Backed.has (h : m.Backed) (streamId eventId : String) :
    (m.step (.has streamId eventId)).Backed := by
  cases hlive : m.fallback.isLive m.clock (cacheKey streamId eventId) with
  | true =>
    rw [step, has_of_live hlive]
    exact h
  | false =>
    rw [step, has_of_not_live hlive]
    exact ⟨h.ordered.sublist List.filter_sublist, h.past,
      fun entry hmem => h.entered entry (List.mem_of_mem_filter hmem)⟩

theorem mem_admitKey_self : (key, m.clock) ∈ m.admitKey key :=
  List.mem_append_right _ (List.mem_singleton_self _)

theorem mem_admitKey {entry : String × ℕ} :
    entry ∈ m.admitKey key ↔ entry ∈ m.admitted ∨ entry = (key, m.clock) := by
  rw [admitKey, List.mem_append, List.mem_singleton]

theorem Backed.told (h : m.Backed) (streamId eventId : String) :
    (m.step (.told streamId eventId)).Backed := by
  have hpast : ∀ entry ∈ m.admitKey (cacheKey streamId eventId), entry.2 ≤ m.clock := by
    intro entry hmem
    rcases mem_admitKey.mp hmem with hold | rfl
    · exact h.past entry hold
    · exact le_rfl
  cases hlive : m.fallback.isLive m.clock (cacheKey streamId eventId) with
  | true =>
    rw [step, add_of_live hlive]
    refine ⟨h.ordered, hpast, fun entry hmem => ?_⟩
    obtain ⟨time, htime, hadmitted⟩ := h.entered entry hmem
    exact ⟨time, htime, mem_admitKey.mpr (Or.inl hadmitted)⟩
  | false =>
    rw [step, add_of_not_live hlive]
    refine ⟨h.ordered.enter le_rfl, hpast, fun entry hmem => ?_⟩
    rcases ExpiryQueue.mem_of_mem_enter hmem with hold | rfl
    · obtain ⟨time, htime, hadmitted⟩ := h.entered entry hold
      exact ⟨time, htime, mem_admitKey.mpr (Or.inl hadmitted)⟩
    · exact ⟨m.clock, rfl, mem_admitKey_self⟩

theorem step_decided (streamId eventId : String) :
    m.step (.decided streamId eventId) =
      if m.fallback.isLive m.clock (cacheKey streamId eventId) then m
      else m.step (.told streamId eventId) := by
  cases hlive : m.fallback.isLive m.clock (cacheKey streamId eventId) with
  | true =>
    rw [step, add_of_live hlive]
    rfl
  | false =>
    rw [step, step, add_of_not_live hlive]
    rfl

theorem Backed.step (h : m.Backed) (move : MemoryStep) : (m.step move).Backed := by
  cases move with
  | tick ms =>
    refine ⟨h.ordered.mono ?_, fun entry hmem => ?_, h.entered⟩
    · exact Nat.add_le_add_right (Nat.le_add_right m.clock ms) _
    · exact (h.past entry hmem).trans (Nat.le_add_right m.clock ms)
  | idle => exact h
  | has streamId eventId => exact h.has streamId eventId
  | decided streamId eventId =>
    rw [step_decided]
    split_ifs
    · exact h
    · exact h.told streamId eventId
  | told streamId eventId => exact h.told streamId eventId

theorem Remembers.told (hremembers : m.Remembers) (h : m.Backed) (hroom : m.HasRoom)
    (hnew : m.fallback.isLive m.clock (cacheKey streamId eventId) = false) :
    (m.step (.told streamId eventId)).Remembers := by
  rw [DedupMemory.step, add_of_not_live hnew]
  intro entry hmem hwithin
  rcases mem_admitKey.mp hmem with hold | rfl
  · have hne : entry.1 ≠ cacheKey streamId eventId := by
      intro heq
      have hover : entry.2 + m.fallback.windowMs ≤ m.clock :=
        hremembers.not_within h hnew (heq ▸ hold)
      exact absurd hwithin (not_lt.mpr hover)
    exact ExpiryQueue.mem_enter_of_live h.ordered hroom (hremembers entry hold hwithin) hwithin hne
  · exact ExpiryQueue.mem_enter_self

theorem Remembers.has (hremembers : m.Remembers) (h : m.Backed) (streamId eventId : String) :
    (m.step (.has streamId eventId)).Remembers := by
  cases hlive : m.fallback.isLive m.clock (cacheKey streamId eventId) with
  | true =>
    rw [step, has_of_live hlive]
    exact hremembers
  | false =>
    rw [step, has_of_not_live hlive]
    intro entry hmem hwithin
    refine List.mem_filter.mpr ⟨hremembers entry hmem hwithin, decide_eq_true ?_⟩
    intro heq
    have hover : entry.2 + m.fallback.windowMs ≤ m.clock :=
      hremembers.not_within h hlive (heq ▸ hmem)
    exact absurd hwithin (not_lt.mpr hover)

theorem Remembers.step (hremembers : m.Remembers) (h : m.Backed) (hroom : m.HasRoom)
    {move : MemoryStep} (htold : m.ToldNew move) : (m.step move).Remembers := by
  cases move with
  | tick ms =>
    intro entry hmem hwithin
    exact hremembers entry hmem ((Nat.le_add_right m.clock ms).trans_lt hwithin)
  | idle => exact hremembers
  | has streamId eventId => exact hremembers.has h streamId eventId
  | decided =>
    rw [step_decided]
    split_ifs with hlive
    · exact hremembers
    · exact hremembers.told h hroom (Bool.eq_false_iff.mpr hlive)
  | told => exact hremembers.told h hroom htold

theorem admitsOnce_told :
    (m.step (.told streamId eventId)).AdmitsOnce ↔ m.AdmitsOnce ∧
      ∀ time, (cacheKey streamId eventId, time) ∈ m.admitted →
        time + m.fallback.windowMs ≤ m.clock := by
  rw [AdmitsOnce, step_windowMs]
  change (m.admitted ++ [(cacheKey streamId eventId, m.clock)]).Pairwise _ ↔ _
  rw [List.pairwise_append]
  apply Iff.intro
  · rintro ⟨honce, -, hlast⟩
    exact ⟨honce, fun time hmem => hlast _ hmem _ (List.mem_singleton_self _) rfl⟩
  · rintro ⟨honce, hover⟩
    refine ⟨honce, List.pairwise_singleton _ _, fun entry hmem last hlast heq => ?_⟩
    rw [List.mem_singleton.mp hlast] at heq ⊢
    have hkey : entry.1 = cacheKey streamId eventId := heq
    exact hover entry.2 (hkey ▸ hmem)

theorem admitsOnce_step (hremembers : m.Remembers) (h : m.Backed) (honce : m.AdmitsOnce)
    (move : MemoryStep) : (m.step move).AdmitsOnce ↔ m.ToldNew move := by
  have hnew : ∀ streamId eventId,
      m.fallback.isLive m.clock (cacheKey streamId eventId) = false →
        (m.step (.told streamId eventId)).AdmitsOnce := by
    intro streamId eventId hnew
    exact admitsOnce_told.mpr ⟨honce, fun time hmem => hremembers.not_within h hnew hmem⟩
  cases move with
  | tick | idle => exact iff_of_true honce trivial
  | has =>
    refine iff_of_true ?_ trivial
    rw [AdmitsOnce, step_windowMs]
    exact honce
  | decided streamId eventId =>
    refine iff_of_true ?_ trivial
    rw [step_decided]
    split_ifs with hlive
    · exact honce
    · exact hnew streamId eventId (Bool.eq_false_iff.mpr hlive)
  | told streamId eventId =>
    apply Iff.intro
    · intro hafter
      rw [ToldNew, Bool.eq_false_iff]
      intro hlive
      obtain ⟨time, hmem, hwithin⟩ := h.exists_of_isLive hlive
      exact absurd hwithin (not_lt.mpr ((admitsOnce_told.mp hafter).2 time hmem))
    · exact hnew streamId eventId

end DedupMemory

/-! ## Adds under way -/

def dedupKeyPrefix : String := "fluxora:dedup:"

/-- How far an add has come. -/
inductive DedupProgress
  /-- Redis has been asked; it may have carried the command out with an answer. -/
  | asking (inFallback : Bool) (reply : Option Bool)
  | returned (added : Bool)
  deriving DecidableEq

structure DedupCall where
  streamId : String
  eventId : String
  progress : DedupProgress

namespace DedupCall

def key (call : DedupCall) : String := cacheKey call.streamId call.eventId

def buildKey (call : DedupCall) : String := dedupKeyPrefix ++ call.key

end DedupCall

structure HybridDedupCache where
  useRedis : Bool := true
  primary : Table String String := fun _ => none
  memory : DedupMemory
  calls : List DedupCall := []

inductive DedupStep
  | start (streamId eventId : String)
  /-- Redis carries out the command of an add. -/
  | execute (i : ℕ)
  /-- The answer of Redis arrives. -/
  | resume (i : ℕ)
  /-- The call to Redis throws, whether or not the command was carried out. -/
  | fail (i : ℕ)
  /-- Another process sets a key of Redis if it is free, or a command that was given up does. -/
  | outside (key : String) (ttl : ℕ)
  | tick (ms : ℕ)

namespace HybridDedupCache

variable (w : HybridDedupCache)

def put (i : ℕ) (call : DedupCall) : HybridDedupCache := { w with calls := w.calls.set i call }

/-- What happens to the memory when an add goes on with the outcome of Redis, and what the
add returns. A key that the memory held at first is refused without it. -/
def settle (call : DedupCall) (inFallback : Bool) : Option Bool → MemoryStep × Bool
  | some true => if inFallback then (.idle, false) else (.told call.streamId call.eventId, true)
  | some false => (.idle, false)
  | none =>
    if inFallback then (.idle, false)
    else
      (.decided call.streamId call.eventId,
        (w.memory.fallback.add w.memory.clock call.streamId call.eventId).1)

/-- The add returns. -/
def finish (i : ℕ) (call : DedupCall) (settled : MemoryStep × Bool) : HybridDedupCache :=
  { w.put i { call with progress := .returned settled.2 } with memory := w.memory.step settled.1 }

/-- The first step of an add. Without Redis the memory decides. -/
def add (streamId eventId : String) : HybridDedupCache :=
  let found := (w.memory.fallback.has w.memory.clock streamId eventId).1
  let entered := (w.memory.fallback.add w.memory.clock streamId eventId).1
  if w.useRedis then
    { w with
      memory := w.memory.step (.has streamId eventId)
      calls := w.calls ++ [⟨streamId, eventId, .asking found none⟩] }
  else
    { w with
      memory := w.memory.step (.decided streamId eventId)
      calls := w.calls ++ [⟨streamId, eventId, .returned entered⟩] }

/-- Redis sets the key for the window if it is free. A window of no time is refused. -/
def setNx (i : ℕ) (call : DedupCall) (inFallback : Bool) : Option HybridDedupCache :=
  let free := (get w.primary w.memory.clock call.buildKey).isNone
  let asked := w.put i { call with progress := .asking inFallback (some free) }
  if w.memory.fallback.windowMs = 0 then none
  else if free then
    some { asked with
      primary :=
        set w.primary w.memory.clock call.buildKey "1" w.memory.fallback.windowMs }
  else some asked

def step : DedupStep → Option HybridDedupCache
  | .start streamId eventId => some (w.add streamId eventId)
  | .execute i => do
      let call ← w.calls[i]?
      match call.progress with
      | .asking inFallback none => w.setNx i call inFallback
      | _ => none
  | .resume i => do
      let call ← w.calls[i]?
      match call.progress with
      | .asking inFallback (some reply) =>
        some (w.finish i call (w.settle call inFallback (some reply)))
      | _ => none
  | .fail i => do
      let call ← w.calls[i]?
      match call.progress with
      | .asking inFallback _ => some (w.finish i call (w.settle call inFallback none))
      | _ => none
  | .outside key ttl =>
    if (get w.primary w.memory.clock key).isNone then
      some { w with primary := set w.primary w.memory.clock key "1" ttl }
    else some w
  | .tick ms => some { w with memory := w.memory.step (.tick ms) }

/-! ### The rule and its condition -/

/-- Every two adds of a key that have returned true lie a window apart. -/
def AdmitsOnce : Prop := w.memory.AdmitsOnce

/-- Fewer keys are live in the memory than fit. -/
def HasRoom : Prop := w.memory.HasRoom

/-- When the answer of Redis arrives that a key is new, the memory does not hold the key. -/
def ToldNew : DedupStep → Prop
  | .resume i => ∀ call ∈ w.calls[i]?, call.progress = .asking false (some true) →
      w.memory.fallback.isLive w.memory.clock call.key = false
  | _ => True

/-- A process that has just started. -/
structure Fresh : Prop where
  seen : w.memory.fallback.seen = []
  admitted : w.memory.admitted = []
  calls : w.calls = []

/-! ### Runs -/

variable {w} {w' : HybridDedupCache} {label : DedupStep}

theorem memory_of_setNx {i : ℕ} {call : DedupCall} {inFallback : Bool}
    (hset : w.setNx i call inFallback = some w') : w'.memory = w.memory := by
  rw [setNx] at hset
  split_ifs at hset <;> cases hset <;> rfl

theorem memory_of_outside {key : String} {ttl : ℕ} (hstep : w.step (.outside key ttl) = some w') :
    w'.memory = w.memory := by
  rw [step] at hstep
  split_ifs at hstep <;> cases hstep <;> rfl

theorem exists_memory_step (hstep : w.step label = some w') :
    ∃ move, w'.memory = w.memory.step move ∧ (w.ToldNew label ↔ w.memory.ToldNew move) := by
  cases label with
  | start streamId eventId =>
    cases hstep
    rw [add]
    split_ifs
    · exact ⟨.has streamId eventId, rfl, Iff.rfl⟩
    · exact ⟨.decided streamId eventId, rfl, Iff.rfl⟩
  | execute =>
    obtain ⟨call, hcall, hset⟩ := Option.bind_eq_some_iff.mp hstep
    split at hset
    · exact ⟨.idle, memory_of_setNx hset, Iff.rfl⟩
    · cases hset
  | resume =>
    obtain ⟨call, hcall, hset⟩ := Option.bind_eq_some_iff.mp hstep
    split at hset
    · next inFallback reply hprogress =>
        cases hset
        refine ⟨_, rfl, ?_⟩
        rw [ToldNew, hcall]
        cases inFallback <;> cases reply <;> simp [settle, DedupMemory.ToldNew, hprogress,
          DedupCall.key]
    · cases hset
  | fail =>
    obtain ⟨call, hcall, hset⟩ := Option.bind_eq_some_iff.mp hstep
    split at hset
    · next inFallback reply hprogress =>
        cases hset
        refine ⟨_, rfl, ?_⟩
        cases inFallback <;> exact Iff.rfl
    · cases hset
  | outside => exact ⟨.idle, memory_of_outside hstep, Iff.rfl⟩
  | tick ms =>
    cases hstep
    exact ⟨.tick ms, rfl, Iff.rfl⟩

/-- What holds between the steps of a run. -/
structure Sound (w : HybridDedupCache) : Prop where
  backed : w.memory.Backed
  remembers : w.memory.Remembers
  once : w.memory.AdmitsOnce

theorem Fresh.sound (h : w.Fresh) : w.Sound where
  backed :=
    { ordered := h.seen ▸ ExpiryQueue.Ordered.nil
      past := fun _ hmem => absurd (h.admitted ▸ hmem) List.not_mem_nil
      entered := fun _ hmem => absurd (h.seen ▸ hmem) List.not_mem_nil }
  remembers := fun _ hmem => absurd (h.admitted ▸ hmem) List.not_mem_nil
  once := by
    rw [DedupMemory.AdmitsOnce, h.admitted]
    exact List.Pairwise.nil

theorem Sound.step (h : w.Sound) (hroom : w.HasRoom) (hstep : w.step label = some w') :
    (w'.AdmitsOnce ↔ w.ToldNew label) ∧ (w.ToldNew label → w'.Sound) := by
  obtain ⟨move, hmemory, htold⟩ := exists_memory_step hstep
  have honce : w'.AdmitsOnce ↔ w.ToldNew label := by
    rw [AdmitsOnce, hmemory, htold]
    exact DedupMemory.admitsOnce_step h.remembers h.backed h.once move
  refine ⟨honce, fun hnew => ⟨?_, ?_, honce.mpr hnew⟩⟩
  · rw [hmemory]
    exact h.backed.step move
  · rw [hmemory]
    exact h.remembers.step h.backed hroom (htold.mp hnew)

theorem Sound.everyStep (h : w.Sound) {labels : List DedupStep}
    (hroom : EveryStep HybridDedupCache.step (fun w _ _ => w.HasRoom) w labels) :
    EveryStep HybridDedupCache.step (fun _ _ w' => w'.AdmitsOnce) w labels ↔
      EveryStep HybridDedupCache.step (fun w label _ => w.ToldNew label) w labels := by
  induction labels generalizing w with
  | nil => exact Iff.rfl
  | cons label _ ih =>
    cases hstep : w.step label with
    | none =>
      exact iff_of_true (fun w' h' => nomatch hstep.symm.trans h')
        (fun w' h' => nomatch hstep.symm.trans h')
    | some =>
      rw [everyStep_cons hstep] at hroom
      obtain ⟨honce, hsound⟩ := h.step hroom.1 hstep
      rw [everyStep_cons hstep, everyStep_cons hstep, honce]
      exact and_congr_right fun hnew => ih (hsound hnew) hroom.2

/-- In the runs of a process in which fewer keys are live than fit, a key is admitted once in
its window exactly as long as the memory never holds a key that Redis calls new. -/
theorem admitsOnce_iff_toldNew (hfresh : w.Fresh) (labels : List DedupStep)
    (hroom : EveryStep HybridDedupCache.step (fun w _ _ => w.HasRoom) w labels) :
    EveryStep HybridDedupCache.step (fun _ _ w' => w'.AdmitsOnce) w labels ↔
      EveryStep HybridDedupCache.step (fun w label _ => w.ToldNew label) w labels :=
  hfresh.sound.everyStep hroom

/-! ### A key that is admitted twice -/

instance (w : HybridDedupCache) : Decidable w.HasRoom := Nat.decLt _ _

instance (w : HybridDedupCache) : Decidable w.AdmitsOnce :=
  inferInstanceAs (Decidable (List.Pairwise _ _))

instance (w : HybridDedupCache) : DecidablePred w.ToldNew
  | .start _ _ => .isTrue trivial
  | .execute _ => .isTrue trivial
  | .resume i => inferInstanceAs (Decidable (∀ call ∈ w.calls[i]?,
      call.progress = .asking false (some true) →
        w.memory.fallback.isLive w.memory.clock call.key = false))
  | .fail _ => .isTrue trivial
  | .outside _ _ => .isTrue trivial
  | .tick _ => .isTrue trivial

/-- A process with a window of a day. -/
def started : HybridDedupCache := { memory := { fallback := { seen := [], windowMs := 86400000 } } }

theorem started_fresh : started.Fresh := ⟨rfl, rfl, rfl⟩

/-- An event arrives again after Redis has lost the answer to its first add. -/
def answerLost : List DedupStep :=
  [.start "stream" "event", .execute 0, .fail 0, .tick 1000, .start "stream" "event", .fail 1]

theorem answerLost_hasRoom : EveryStep step (fun w _ _ => w.HasRoom) started answerLost := by
  obtain ⟨w', hrun⟩ : ∃ w', runUnder step (fun w _ => w.HasRoom) started answerLost = some w' :=
    ⟨_, rfl⟩
  exact EveryStep.of_runUnder hrun

theorem answerLost_admitsOnce :
    EveryStep step (fun _ _ w' => w'.AdmitsOnce) started answerLost := by
  obtain ⟨w', hrun⟩ : ∃ w', runUnder step ToldNew started answerLost = some w' := ⟨_, rfl⟩
  exact (admitsOnce_iff_toldNew started_fresh answerLost answerLost_hasRoom).mpr
    (EveryStep.of_runUnder hrun)

/-- Two adds of one event find it nowhere. Redis fails for the first, which the memory admits,
and answers the second that the event is new. -/
def oneFailed : List DedupStep :=
  [.start "stream" "event", .start "stream" "event", .fail 0, .execute 1, .resume 1]

theorem oneFailed_hasRoom : EveryStep step (fun w _ _ => w.HasRoom) started oneFailed := by
  obtain ⟨w', hrun⟩ : ∃ w', runUnder step (fun w _ => w.HasRoom) started oneFailed = some w' :=
    ⟨_, rfl⟩
  exact EveryStep.of_runUnder hrun

theorem oneFailed_admits_twice :
    EveryStep step (fun w _ _ => w.HasRoom) started oneFailed ∧
      ∃ w', run step started oneFailed = some w' ∧
        w'.calls.map (·.progress) = [.returned true, .returned true] ∧ ¬ w'.AdmitsOnce :=
  ⟨oneFailed_hasRoom, _, rfl, by decide +kernel, by decide +kernel⟩

end HybridDedupCache

end Fluxora.Redis
