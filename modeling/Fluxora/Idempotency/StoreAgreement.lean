/-
# Where the idempotency stores agree

The store in memory is to stand in for the one over Redis, also in tests. Over a history of
operations the two can come apart in a few ways.

What comes apart shows only in a claim or a look-up that finds something in Redis. On every other
history the stores give the same answers. Times are in milliseconds.
-/

import Fluxora.Idempotency.Stores

namespace Fluxora.Idempotency

open Lib Lib.TtlTable

/-! ## Histories -/

inductive IdempotencyOperation
  | start (key tenantId : String) (ttlSeconds : ℕ)
  | get (key tenantId : String)
  | set (key tenantId : String) (entry : IdempotentEntry) (ttlSeconds : ℕ)

inductive IdempotencyAnswer
  | started (acquired : Bool)
  | found (kept : Option Kept)
  | stored

def RedisIdempotencyStore.perform (store : RedisIdempotencyStore) (now : ℤ) :
    IdempotencyOperation → IdempotencyAnswer × RedisIdempotencyStore
  | .start key tenantId ttlSeconds => (store.start now key tenantId ttlSeconds).map .started id
  | .get key tenantId => (store.get now key tenantId).map .found id
  | .set key tenantId entry ttlSeconds => (.stored, store.set now key tenantId entry ttlSeconds)

def InMemoryIdempotencyStore.perform (memory : InMemoryIdempotencyStore) (now : ℤ) :
    IdempotencyOperation → IdempotencyAnswer × InMemoryIdempotencyStore
  | .start key tenantId ttlSeconds => (memory.start now key tenantId ttlSeconds).map .started id
  | .get key tenantId => (.found (memory.get now key tenantId), memory)
  | .set key tenantId entry ttlSeconds => (.stored, memory.set now key tenantId entry ttlSeconds)

/-- The stores give the same answers to operations, each some time after the one before. -/
def Agree : RedisIdempotencyStore → InMemoryIdempotencyStore → ℤ →
    List (ℕ × IdempotencyOperation) → Prop
  | _, _, _, [] => True
  | redis, memory, clock, (elapsed, operation) :: rest =>
    (redis.perform (clock + elapsed) operation).1 =
        (memory.perform (clock + elapsed) operation).1 ∧
      Agree (redis.perform (clock + elapsed) operation).2
        (memory.perform (clock + elapsed) operation).2 (clock + elapsed) rest

/-! ## Histories without a difference -/

/-- What the operations on a key have left. -/
structure Mark where
  /-- The last claim has no response yet. -/
  waiting : Bool := false
  /-- Redis has not stored the last response, or has stored it too late, or has not taken
  the last claim. -/
  apart : Bool := false
  /-- The last response had another version. -/
  restamped : Bool := false

abbrev Marks : Type := String → Mark

namespace Marks

variable (marks : Marks) (redis : RedisIdempotencyStore) (now : ℤ)

/-- The marks after an operation. A response is stored too late when the deadline of its claim
is forgotten. -/
def after : IdempotencyOperation → Marks
  | .start key tenantId ttlSeconds =>
    if (redis.start now key tenantId ttlSeconds).1 then
      Function.update marks (InMemoryIdempotencyStore.buildKey key tenantId)
        ⟨true, ttlSeconds = 0, false⟩
    else marks
  | .get _ _ => marks
  | .set key tenantId entry ttlSeconds =>
    let fullKey := InMemoryIdempotencyStore.buildKey key tenantId
    let forgotten := redis.expiryByKey (RedisIdempotencyStore.buildKey key tenantId) = none
    Function.update marks fullKey
      { waiting := false
        apart := redis.deadline now key tenantId ttlSeconds ≤ now ∨
          (marks fullKey).waiting ∧ forgotten
        restamped := entry.version ≠ envelopeVersion }

/-- What Redis still has under the key of a claim or a look-up is in memory as well, and not at
its deadline. A claim without a window finds only what is not in memory. -/
def Unnoticed : IdempotencyOperation → Prop
  | .start key tenantId ttlSeconds =>
    ∀ entry, redis.values (RedisIdempotencyStore.buildKey key tenantId) = some entry →
      if ttlSeconds = 0 then
        now < entry.expireAt → (marks (InMemoryIdempotencyStore.buildKey key tenantId)).apart
      else
        now ≤ entry.expireAt → now ≠ entry.expireAt ∧
          (marks (InMemoryIdempotencyStore.buildKey key tenantId)).apart = false
  | .get key tenantId =>
    ∀ entry, redis.values (RedisIdempotencyStore.buildKey key tenantId) = some entry →
      now ≤ entry.expireAt → now ≠ entry.expireAt ∧
        (marks (InMemoryIdempotencyStore.buildKey key tenantId)).apart = false ∧
        (marks (InMemoryIdempotencyStore.buildKey key tenantId)).restamped = false
  | .set _ _ _ _ => True

end Marks

def EveryUnnoticed : Marks → RedisIdempotencyStore → ℤ → List (ℕ × IdempotencyOperation) → Prop
  | _, _, _, [] => True
  | marks, redis, clock, (elapsed, operation) :: rest =>
    marks.Unnoticed redis (clock + elapsed) operation ∧
      EveryUnnoticed (marks.after redis (clock + elapsed) operation)
        (redis.perform (clock + elapsed) operation).2 (clock + elapsed) rest

/-! ## One key in both stores -/

def Kept.versioned : Kept → Kept
  | .inProgress => .inProgress
  | .entry response => .entry response.versioned

/-- What is held, as Redis has it. -/
def Held.inRedis (held : Held) : Entry Kept := ⟨held.entry.versioned, held.expiresAt⟩

/-- How a key stands: its value in Redis, the deadline that is kept aside, what is held in
memory, and its mark. -/
structure Standing where
  value : Option (Entry Kept)
  deadline : Option ℤ
  held : Option Held
  mark : Mark

/-- A deadline that is kept aside is that of the claim in memory, and a forgotten one is over.
Either both stores have the same, or there is nothing in memory any more. -/
structure Standing.Matches (s : Standing) (now : ℤ) : Prop where
  claimed : ∀ window, s.deadline = some window → s.held = some ⟨.inProgress, window⟩
  forgotten : ∀ window, s.held = some ⟨.inProgress, window⟩ → s.deadline = none → window ≤ now
  waiting : s.mark.waiting = true ↔ ∃ window, s.held = some ⟨.inProgress, window⟩
  apart : s.mark.apart = true → ∀ held, s.held = some held → held.expiresAt ≤ now
  together : s.mark.apart = false → s.value = s.held.map Held.inRedis
  restamped : s.mark.apart = false →
    (s.mark.restamped = true ↔ ∃ held, s.held = some held ∧ held.entry.versioned ≠ held.entry)

namespace Standing

variable {s : Standing} {now now' : ℤ}

/-- What a look-up finds in Redis. -/
def redisFinds (s : Standing) (now : ℤ) : Option Kept :=
  (s.value.filter fun entry => now ≤ entry.expireAt).map (·.value)

/-- What a look-up finds in memory. -/
def memoryFinds (s : Standing) (now : ℤ) : Option Kept :=
  (s.held.filter fun held => now < held.expiresAt).map Held.entry

theorem Matches.mono (h : s.Matches now) (hle : now ≤ now') : s.Matches now' where
  claimed := h.claimed
  forgotten window hheld hnone := (h.forgotten window hheld hnone).trans hle
  waiting := h.waiting
  apart hapart held hheld := (h.apart hapart held hheld).trans hle
  together := h.together
  restamped := h.restamped

theorem Matches.prune (h : s.Matches now) :
    Matches { s with deadline := s.deadline.filter (now < ·) } now where
  claimed window hwindow := h.claimed window (Option.filter_eq_some_iff.mp hwindow).1
  forgotten window hheld hnone := by
    cases hdeadline : s.deadline with
    | none => exact h.forgotten window hheld hdeadline
    | some aside =>
      have hsame := (h.claimed aside hdeadline).symm.trans hheld
      cases hsame
      rw [hdeadline] at hnone
      by_contra hlate
      simp [Option.filter_some, not_le.mp hlate] at hnone
  waiting := h.waiting
  apart := h.apart
  together := h.together
  restamped := h.restamped

theorem memoryFinds_of_apart (h : s.Matches now) (hapart : s.mark.apart = true) :
    s.memoryFinds now = none := by
  rw [memoryFinds]
  cases hheld : s.held with
  | none => rfl
  | some held =>
    have hover := h.apart hapart held hheld
    simp [Option.filter_some, not_lt.mpr hover]

theorem redisFinds_eq_none_iff : s.redisFinds now = none ↔
    ∀ entry, s.value = some entry → ¬ now ≤ entry.expireAt := by
  rw [redisFinds]
  cases s.value with
  | none => simp
  | some entry =>
    by_cases hlives : now ≤ entry.expireAt
    · simp [Option.filter_some, hlives]
    · simp [Option.filter_some, hlives, not_le.mp hlives]

theorem finds_of_together (h : s.Matches now) (htogether : s.mark.apart = false) {held : Held}
    (hheld : s.held = some held) :
    s.value = some held.inRedis ∧
      s.redisFinds now = (if now ≤ held.expiresAt then some held.entry.versioned else none) ∧
      s.memoryFinds now = if now < held.expiresAt then some held.entry else none := by
  have hvalue := h.together htogether
  rw [hheld, Option.map_some] at hvalue
  refine ⟨hvalue, ?_, ?_⟩
  · rw [redisFinds, hvalue, Option.filter_some]
    by_cases hlives : now ≤ held.expiresAt <;> simp [Held.inRedis, hlives]
  · rw [memoryFinds, hheld, Option.filter_some]
    by_cases hlives : now < held.expiresAt <;> simp [hlives]

theorem finds_of_none (h : s.Matches now) (htogether : s.mark.apart = false)
    (hheld : s.held = none) :
    s.value = none ∧ s.redisFinds now = none ∧ s.memoryFinds now = none := by
  have hvalue := h.together htogether
  rw [hheld, Option.map_none] at hvalue
  rw [redisFinds, memoryFinds, hvalue, hheld]
  exact ⟨rfl, rfl, rfl⟩

theorem Matches.finds_iff (h : s.Matches now) : s.redisFinds now = s.memoryFinds now ↔
    ∀ entry, s.value = some entry → now ≤ entry.expireAt →
      now ≠ entry.expireAt ∧ s.mark.apart = false ∧ s.mark.restamped = false := by
  cases hapart : s.mark.apart with
  | true =>
    rw [memoryFinds_of_apart h hapart, redisFinds_eq_none_iff]
    simp
  | false =>
    cases hheld : s.held with
    | none =>
      obtain ⟨hvalue, hredis, hmemory⟩ := finds_of_none h hapart hheld
      simp [hvalue, hredis, hmemory]
    | some held =>
      obtain ⟨hvalue, hredis, hmemory⟩ := finds_of_together h hapart hheld
      have hrestamped : s.mark.restamped = false ↔ held.entry.versioned = held.entry := by
        rw [← Bool.not_eq_true, h.restamped hapart, hheld]
        simp
      rw [hredis, hmemory, hvalue]
      simp only [Option.some.injEq, forall_eq', Held.inRedis, true_and, hrestamped]
      rcases lt_trichotomy now held.expiresAt with hbefore | hat | hafter
      · simp [hbefore, hbefore.le, hbefore.ne]
      · simp [hat]
      · simp [not_le.mpr hafter, not_lt.mpr hafter.le]

theorem Matches.isSome_finds_iff (h : s.Matches now) :
    (s.redisFinds now).isSome = (s.memoryFinds now).isSome ↔
      ∀ entry, s.value = some entry → now ≤ entry.expireAt →
        now ≠ entry.expireAt ∧ s.mark.apart = false := by
  cases hapart : s.mark.apart with
  | true =>
    rw [memoryFinds_of_apart h hapart, Option.isSome_none, Option.isSome_eq_false_iff,
      Option.isNone_iff_eq_none, redisFinds_eq_none_iff]
    simp
  | false =>
    cases hheld : s.held with
    | none =>
      obtain ⟨hvalue, hredis, hmemory⟩ := finds_of_none h hapart hheld
      simp [hvalue, hredis, hmemory]
    | some held =>
      obtain ⟨hvalue, hredis, hmemory⟩ := finds_of_together h hapart hheld
      rw [hredis, hmemory, hvalue]
      simp only [Option.some.injEq, forall_eq', Held.inRedis, and_true]
      rcases lt_trichotomy now held.expiresAt with hbefore | hat | hafter
      · simp [hbefore, hbefore.le, hbefore.ne]
      · simp [hat]
      · simp [not_le.mpr hafter, not_lt.mpr hafter.le]

theorem Matches.memoryFinds_isSome_iff (h : s.Matches now) :
    (s.memoryFinds now).isSome = false ↔
      ∀ entry, s.value = some entry → now < entry.expireAt → s.mark.apart = true := by
  cases hapart : s.mark.apart with
  | true => simp [memoryFinds_of_apart h hapart]
  | false =>
    cases hheld : s.held with
    | none =>
      obtain ⟨hvalue, -, hmemory⟩ := finds_of_none h hapart hheld
      simp [hvalue, hmemory]
    | some held =>
      obtain ⟨hvalue, -, hmemory⟩ := finds_of_together h hapart hheld
      rw [hmemory, hvalue]
      by_cases hlives : now < held.expiresAt
      · simp [Held.inRedis, hlives]
      · simp [Held.inRedis, hlives, not_lt.mp hlives]

/-! ## One operation on the key -/

theorem matches_claimed (now window : ℤ) :
    Matches ⟨some ⟨.inProgress, window⟩, some window, some ⟨.inProgress, window⟩,
      ⟨true, false, false⟩⟩ now where
  claimed _ hwindow := by
    cases hwindow
    rfl
  forgotten _ _ hnone := nomatch hnone
  waiting := iff_of_true rfl ⟨window, rfl⟩
  apart hapart := nomatch hapart
  together _ := rfl
  restamped _ := by simp [Kept.versioned]

theorem matches_claimed_zero (value : Option (Entry Kept)) (now : ℤ) :
    Matches ⟨value, some now, some ⟨.inProgress, now⟩, ⟨true, true, false⟩⟩ now where
  claimed _ hwindow := by
    cases hwindow
    rfl
  forgotten _ _ hnone := nomatch hnone
  waiting := iff_of_true rfl ⟨now, rfl⟩
  apart _ held hheld := by
    cases hheld
    exact le_rfl
  together hapart := nomatch hapart
  restamped hapart := nomatch hapart

/-- The deadline that a response gets in memory. -/
def memoryDeadline (s : Standing) (fresh : ℤ) : ℤ :=
  match s.held with
  | some ⟨.inProgress, expiresAt⟩ => expiresAt
  | _ => fresh

theorem Matches.memoryDeadline (h : s.Matches now) (fresh : ℤ) :
    if s.mark.waiting ∧ s.deadline = none then s.memoryDeadline fresh ≤ now
    else s.memoryDeadline fresh = s.deadline.getD fresh := by
  rw [Standing.memoryDeadline]
  cases hdeadline : s.deadline with
  | some window =>
    rw [h.claimed window hdeadline]
    simp
  | none =>
    split_ifs with hforgotten
    · obtain ⟨window, hheld⟩ := h.waiting.mp hforgotten.1
      rw [hheld]
      exact h.forgotten window hheld hdeadline
    · split
      · rename_i window hheld
        exact absurd ⟨h.waiting.mpr ⟨window, hheld⟩, rfl⟩ hforgotten
      · rfl

theorem Matches.respond (h : s.Matches now) (entry : IdempotentEntry) (fresh : ℤ) :
    Matches
      { value :=
          if s.deadline.getD fresh ≤ now then s.value
          else some ⟨.entry entry.versioned, s.deadline.getD fresh⟩
        deadline := none
        held := some ⟨.entry entry, s.memoryDeadline fresh⟩
        mark :=
          { waiting := false
            apart := s.deadline.getD fresh ≤ now ∨ s.mark.waiting ∧ s.deadline = none
            restamped := entry.version ≠ envelopeVersion } } now where
  claimed _ hnone := nomatch hnone
  forgotten _ hheld := nomatch hheld
  waiting := by simp
  apart hapart held hheld := by
    cases hheld
    have hmemory := h.memoryDeadline fresh
    split_ifs at hmemory with hforgotten
    · exact hmemory
    · rcases of_decide_eq_true hapart with hover | hforgotten'
      · exact hmemory.le.trans hover
      · exact absurd hforgotten' hforgotten
  together hapart := by
    obtain ⟨hopen, hknown⟩ := not_or.mp (of_decide_eq_false hapart)
    have hmemory := h.memoryDeadline fresh
    rw [if_neg hknown] at hmemory
    rw [if_neg hopen, ← hmemory]
    rfl
  restamped _ := by
    have hversioned : (Kept.entry entry).versioned ≠ .entry entry ↔
        entry.version ≠ envelopeVersion := by
      rw [not_iff_not, Kept.versioned, Kept.entry.injEq]
      apply Iff.intro
      · exact fun hsame => (congrArg IdempotentEntry.version hsame).symm
      · intro hversion
        rw [IdempotentEntry.versioned, ← hversion]
    refine decide_eq_true_iff.trans (hversioned.symm.trans ⟨fun hne => ⟨_, rfl, hne⟩, ?_⟩)
    rintro ⟨held, hheld, hne⟩
    cases hheld
    exact hne

end Standing

/-! ## Both stores -/

/-- The key in both stores. -/
def standing (redis : RedisIdempotencyStore) (memory : InMemoryIdempotencyStore) (marks : Marks)
    (fullKey : String) : Standing where
  value := redis.values (idempotencyKeyPrefix ++ fullKey)
  deadline := redis.expiryByKey (idempotencyKeyPrefix ++ fullKey)
  held := memory.store fullKey
  mark := marks fullKey

def Matches (redis : RedisIdempotencyStore) (memory : InMemoryIdempotencyStore) (marks : Marks)
    (now : ℤ) : Prop :=
  ∀ fullKey, (standing redis memory marks fullKey).Matches now

/-- What an operation at a time leaves: the same answers exactly under a condition, and then
stores that match on. -/
def AgreesWhen (now : ℤ) (marks : Marks) (condition : Prop)
    (ofRedis : IdempotencyAnswer × RedisIdempotencyStore)
    (ofMemory : IdempotencyAnswer × InMemoryIdempotencyStore) : Prop :=
  (ofRedis.1 = ofMemory.1 ↔ condition) ∧
    (ofRedis.1 = ofMemory.1 → Matches ofRedis.2 ofMemory.2 marks now)

theorem matches_empty (now : ℤ) : Matches {} {} (fun _ => {}) now := fun _ =>
  { claimed := fun _ hnone => nomatch hnone
    forgotten := fun _ hnone => nomatch hnone
    waiting := by simp [standing]
    apart := fun hapart => nomatch hapart
    together := fun _ => rfl
    restamped := fun _ => by simp [standing] }

section

variable {redis redis' : RedisIdempotencyStore} {memory memory' : InMemoryIdempotencyStore}
  {marks marks' : Marks} {now : ℤ} {key tenantId : String}

theorem prefixed_inj {fullKey fullKey' : String}
    (h : idempotencyKeyPrefix ++ fullKey = idempotencyKeyPrefix ++ fullKey') :
    fullKey = fullKey' := by
  have hchars := congrArg String.toList h
  rw [String.toList_append, String.toList_append] at hchars
  exact String.toList_inj.mp (List.append_cancel_left hchars)

theorem prune_self (fullKey : String) :
    (redis.pruneExpiredDeadlines now (some fullKey)).expiryByKey fullKey =
      redis.expiryByKey fullKey := by
  have hkept : ∀ deadline : Option ℤ, deadline.filter (fun _ => true) = deadline := by
    intro deadline
    cases deadline <;> rfl
  simp [RedisIdempotencyStore.pruneExpiredDeadlines, hkept]

variable {exceptKey : Option String}

theorem prune_of_ne {fullKey : String} (hother : fullKey ∉ exceptKey) :
    (redis.pruneExpiredDeadlines now exceptKey).expiryByKey fullKey =
      (redis.expiryByKey fullKey).filter (now < ·) := by
  simp only [RedisIdempotencyStore.pruneExpiredDeadlines, hother, false_or]

theorem Matches.prune (h : Matches redis memory marks now) :
    Matches (redis.pruneExpiredDeadlines now none) memory marks now := by
  intro fullKey
  have hpruned := (h fullKey).prune
  rw [standing, prune_of_ne (Option.not_mem_none _)]
  exact hpruned

theorem Matches.write (h : Matches redis memory marks now) (fullKey : String)
    (hexcept : exceptKey = none ∨ exceptKey = some (idempotencyKeyPrefix ++ fullKey))
    {value : Option (Entry Kept)} {aside : Option ℤ} {held : Option Held} {mark : Mark}
    (hself : Standing.Matches ⟨value, aside, held, mark⟩ now) :
    Matches
      ⟨Function.update redis.values (idempotencyKeyPrefix ++ fullKey) value,
        Function.update (redis.pruneExpiredDeadlines now exceptKey).expiryByKey
          (idempotencyKeyPrefix ++ fullKey) aside⟩
      ⟨Function.update memory.store fullKey held⟩ (Function.update marks fullKey mark) now := by
  intro other
  by_cases hsame : other = fullKey
  · rw [hsame]
    simp only [standing, Function.update_self]
    exact hself
  · have hne : idempotencyKeyPrefix ++ other ≠ idempotencyKeyPrefix ++ fullKey :=
      fun heq => hsame (prefixed_inj heq)
    have hnot : idempotencyKeyPrefix ++ other ∉ exceptKey := by
      rcases hexcept with rfl | rfl
      · exact Option.not_mem_none _
      · exact fun hmem => hne (Option.mem_some_iff.mp hmem).symm
    simp only [standing, Function.update_of_ne hne, prune_of_ne hnot, Function.update_of_ne hsame]
    exact (h other).prune

theorem redis_start_eq (redis : RedisIdempotencyStore) (memory : InMemoryIdempotencyStore)
    (marks : Marks) (now : ℤ) (key tenantId : String) (ttlSeconds : ℕ) :
    redis.start now key tenantId ttlSeconds =
      let fullKey := InMemoryIdempotencyStore.buildKey key tenantId
      let expiresAt := now + ttlSeconds * 1000
      let pruned := redis.pruneExpiredDeadlines now none
      if ttlSeconds = 0 then
        (true, ⟨redis.values, Function.update pruned.expiryByKey (idempotencyKeyPrefix ++ fullKey)
          (some expiresAt)⟩)
      else if ((standing redis memory marks fullKey).redisFinds now).isSome then (false, pruned)
      else
        (true, ⟨Function.update redis.values (idempotencyKeyPrefix ++ fullKey)
            (some ⟨.inProgress, expiresAt⟩),
          Function.update pruned.expiryByKey (idempotencyKeyPrefix ++ fullKey)
            (some expiresAt)⟩) := rfl

theorem memory_start_eq (redis : RedisIdempotencyStore) (memory : InMemoryIdempotencyStore)
    (marks : Marks) (now : ℤ) (key tenantId : String) (ttlSeconds : ℕ) :
    memory.start now key tenantId ttlSeconds =
      let fullKey := InMemoryIdempotencyStore.buildKey key tenantId
      if ((standing redis memory marks fullKey).memoryFinds now).isSome then (false, memory)
      else
        (true, ⟨Function.update memory.store fullKey
          (some ⟨.inProgress, now + ttlSeconds * 1000⟩)⟩) := rfl

theorem start_zero_agrees (h : Matches redis memory marks now) (key tenantId : String) :
    AgreesWhen now (marks.after redis now (.start key tenantId 0))
      (marks.Unnoticed redis now (.start key tenantId 0))
      (redis.perform now (.start key tenantId 0))
      (memory.perform now (.start key tenantId 0)) := by
  have hcondition :=
    (h (InMemoryIdempotencyStore.buildKey key tenantId)).memoryFinds_isSome_iff
  simp only [AgreesWhen, RedisIdempotencyStore.perform, InMemoryIdempotencyStore.perform,
    Marks.after, Marks.Unnoticed, Prod.map_fst, Prod.map_snd, id, IdempotencyAnswer.started.injEq,
    redis_start_eq redis memory marks, memory_start_eq redis memory marks, if_true, decide_true]
  apply And.intro
  · refine Iff.trans ?_ hcondition
    split_ifs with hfound <;> simp [hfound]
  · intro hsame
    split_ifs at hsame ⊢ with hfound
    have hwindow : now + ((0 : ℕ) : ℤ) * 1000 = now := by simp
    rw [hwindow]
    have hwritten := h.write (InMemoryIdempotencyStore.buildKey key tenantId) (.inl rfl)
      (Standing.matches_claimed_zero (redis.values
        (idempotencyKeyPrefix ++ InMemoryIdempotencyStore.buildKey key tenantId)) now)
    rw [Function.update_eq_self] at hwritten
    exact hwritten

theorem start_agrees (h : Matches redis memory marks now) (key tenantId : String)
    (ttlSeconds : ℕ) :
    AgreesWhen now (marks.after redis now (.start key tenantId ttlSeconds))
      (marks.Unnoticed redis now (.start key tenantId ttlSeconds))
      (redis.perform now (.start key tenantId ttlSeconds))
      (memory.perform now (.start key tenantId ttlSeconds)) := by
  by_cases hzero : ttlSeconds = 0
  · rw [hzero]
    exact start_zero_agrees h key tenantId
  · have hcondition := (h (InMemoryIdempotencyStore.buildKey key tenantId)).isSome_finds_iff
    simp only [AgreesWhen, RedisIdempotencyStore.perform, InMemoryIdempotencyStore.perform,
      Marks.after, Marks.Unnoticed, Prod.map_fst, Prod.map_snd, id,
      IdempotencyAnswer.started.injEq, redis_start_eq redis memory marks,
      memory_start_eq redis memory marks, if_neg hzero, decide_eq_false hzero]
    apply And.intro
    · refine Iff.trans ?_ hcondition
      split_ifs with hfound hfound' hfound' <;> simp [hfound, hfound']
    · intro hsame
      cases hfound : ((standing redis memory marks
          (InMemoryIdempotencyStore.buildKey key tenantId)).redisFinds now).isSome with
      | true =>
        simp only [hfound, if_true, Bool.false_eq_true, if_false] at hsame ⊢
        split_ifs at hsame ⊢
        exact h.prune
      | false =>
        simp only [hfound, Bool.false_eq_true, if_false] at hsame ⊢
        split_ifs at hsame ⊢
        exact h.write _ (.inl rfl) (Standing.matches_claimed now _)

theorem get_agrees (h : Matches redis memory marks now) (key tenantId : String) :
    AgreesWhen now (marks.after redis now (.get key tenantId))
      (marks.Unnoticed redis now (.get key tenantId))
      (redis.perform now (.get key tenantId)) (memory.perform now (.get key tenantId)) := by
  have hfinds := (h (InMemoryIdempotencyStore.buildKey key tenantId)).finds_iff
  refine ⟨?_, fun _ => h.prune⟩
  apply Iff.intro
  · exact fun hsame => hfinds.mp (IdempotencyAnswer.found.inj hsame)
  · exact fun hunnoticed => congrArg IdempotencyAnswer.found (hfinds.mpr hunnoticed)

theorem set_agrees (h : Matches redis memory marks now) (key tenantId : String)
    (entry : IdempotentEntry) (ttlSeconds : ℕ) :
    AgreesWhen now (marks.after redis now (.set key tenantId entry ttlSeconds))
      (marks.Unnoticed redis now (.set key tenantId entry ttlSeconds))
      (redis.perform now (.set key tenantId entry ttlSeconds))
      (memory.perform now (.set key tenantId entry ttlSeconds)) := by
  refine ⟨iff_of_true rfl trivial, fun _ => ?_⟩
  have hself := (h (InMemoryIdempotencyStore.buildKey key tenantId)).respond entry
    (now + ttlSeconds * 1000)
  have hwritten := h.write (InMemoryIdempotencyStore.buildKey key tenantId) (.inr rfl) hself
  have hdeadline : (redis.pruneExpiredDeadlines now
      (some (RedisIdempotencyStore.buildKey key tenantId))).deadline now key tenantId ttlSeconds =
        redis.deadline now key tenantId ttlSeconds := by
    rw [RedisIdempotencyStore.deadline, prune_self, RedisIdempotencyStore.deadline]
  have hredis : redis.set now key tenantId entry ttlSeconds =
      ⟨Function.update redis.values (RedisIdempotencyStore.buildKey key tenantId)
          (if redis.deadline now key tenantId ttlSeconds ≤ now then
            redis.values (RedisIdempotencyStore.buildKey key tenantId)
          else some ⟨.entry entry.versioned, redis.deadline now key tenantId ttlSeconds⟩),
        Function.update (redis.pruneExpiredDeadlines now
          (some (RedisIdempotencyStore.buildKey key tenantId))).expiryByKey
          (RedisIdempotencyStore.buildKey key tenantId) none⟩ := by
    rw [RedisIdempotencyStore.set, hdeadline]
    split_ifs with hover
    · rw [Function.update_eq_self]
      rfl
    · have hwindow : now + (redis.deadline now key tenantId ttlSeconds - now) =
          redis.deadline now key tenantId ttlSeconds := by omega
      rw [TtlTable.set, hwindow]
      rfl
  have hmemory : memory.deadline now key tenantId ttlSeconds =
      (standing redis memory marks (InMemoryIdempotencyStore.buildKey key tenantId)).memoryDeadline
        (now + ttlSeconds * 1000) := rfl
  simp only [RedisIdempotencyStore.perform, InMemoryIdempotencyStore.perform, hredis,
    InMemoryIdempotencyStore.set, hmemory]
  exact hwritten

theorem perform_agrees (h : Matches redis memory marks now) (operation : IdempotencyOperation) :
    AgreesWhen now (marks.after redis now operation) (marks.Unnoticed redis now operation)
      (redis.perform now operation) (memory.perform now operation) := by
  cases operation with
  | start key tenantId ttlSeconds => exact start_agrees h key tenantId ttlSeconds
  | get key tenantId => exact get_agrees h key tenantId
  | set key tenantId entry ttlSeconds => exact set_agrees h key tenantId entry ttlSeconds

theorem Matches.mono {now' : ℤ} (h : Matches redis memory marks now) (hle : now ≤ now') :
    Matches redis memory marks now' := fun fullKey => (h fullKey).mono hle

theorem agree_iff {clock : ℤ} {history : List (ℕ × IdempotencyOperation)}
    (h : Matches redis memory marks clock) :
    Agree redis memory clock history ↔ EveryUnnoticed marks redis clock history := by
  induction history generalizing redis memory marks clock with
  | nil => exact Iff.rfl
  | cons step _ ih =>
    obtain ⟨elapsed, operation⟩ := step
    have hlater : clock ≤ clock + elapsed := by omega
    obtain ⟨hsame, hnext⟩ := perform_agrees (h.mono hlater) operation
    apply Iff.intro
    · rintro ⟨hanswer, hrest⟩
      exact ⟨hsame.mp hanswer, (ih (hnext hanswer)).mp hrest⟩
    · rintro ⟨hunnoticed, hrest⟩
      have hanswer := hsame.mpr hunnoticed
      exact ⟨hanswer, (ih (hnext hanswer)).mpr hrest⟩

end

/-- From empty stores, both give the same answers to every operation exactly as long as what a
claim or a look-up finds in Redis is in memory as well and not at its deadline. -/
theorem storesAgree_iff_unnoticed (clock : ℤ) (history : List (ℕ × IdempotencyOperation)) :
    Agree {} {} clock history ↔ EveryUnnoticed (fun _ => {}) {} clock history :=
  agree_iff (matches_empty clock)

/-- A response that comes when the window of its claim is over, and after another look-up. -/
def lateResponse : List (ℕ × IdempotencyOperation) :=
  [(0, .start "key" "tenant" 60), (60001, .get "other" "tenant"),
   (0, .set "key" "tenant" ⟨1, "f", 201, .null⟩ 60), (0, .get "key" "tenant")]

/-- The store over Redis gives the response for a replay, the store in memory does not. -/
theorem lateResponse_replayed : ¬ Agree {} {} 0 lateResponse := by
  rintro ⟨-, -, -, hanswers, -⟩
  have hdifferent : IdempotencyAnswer.found (some (.entry ⟨1, "f", 201, .null⟩)) = .found none :=
    hanswers
  cases hdifferent

end Fluxora.Idempotency
