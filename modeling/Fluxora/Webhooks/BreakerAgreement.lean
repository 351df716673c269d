/-
# The two stores of circuit breakers

The store in memory is there to take the place of the one in Redis. It never forgets: a record
whose time to live is over is a closed circuit in Redis and what it was in memory. And Redis takes
no lock without a time to live, so that an attempt is admitted without becoming the probe.
-/

import Fluxora.Webhooks.BreakerStore

namespace Fluxora.Webhooks

open Lib.TtlTable

/-! ## Histories of operations -/

/-- An operation on the breaker of a URL. A reset is a success under the default policy. -/
inductive BreakerOperation
  | checkAndClaimAttempt (url : String) (policy : CircuitBreakerPolicy)
  | recordSuccess (url : String) (policy : CircuitBreakerPolicy)
  | recordFailure (url : String) (policy : CircuitBreakerPolicy)
  | getState (url : String)

def BreakerOperation.url : BreakerOperation → String
  | checkAndClaimAttempt url _ => url
  | recordSuccess url _ => url
  | recordFailure url _ => url
  | getState url => url

inductive BreakerAnswer
  | checked (result : WebhookCircuitBreakerCheckResult)
  | recorded (record : WebhookCircuitBreakerRecord)
  | shown (record : Option WebhookCircuitBreakerRecord)
  deriving DecidableEq

section

variable (hashConsumerUrl : String → String)

def RedisBreakers.perform (redis : RedisBreakers) (now : ℤ) :
    BreakerOperation → BreakerAnswer × RedisBreakers
  | .checkAndClaimAttempt url policy =>
    (redis.checkAndClaimAttempt (hashConsumerUrl url) policy now).map .checked id
  | .recordSuccess url policy =>
    (redis.recordSuccess (hashConsumerUrl url) policy now).map .recorded id
  | .recordFailure url policy =>
    (redis.recordFailure (hashConsumerUrl url) policy now).map .recorded id
  | .getState url => (.shown (redis.getState (hashConsumerUrl url) now), redis)

def MemoryBreakers.perform (memory : MemoryBreakers) (now : ℤ) :
    BreakerOperation → BreakerAnswer × MemoryBreakers
  | .checkAndClaimAttempt url policy =>
    (memory.checkAndClaimAttempt (hashConsumerUrl url) policy now).map .checked id
  | .recordSuccess url policy =>
    (memory.recordSuccess (hashConsumerUrl url) policy now).map .recorded id
  | .recordFailure url policy =>
    (memory.recordFailure (hashConsumerUrl url) policy now).map .recorded id
  | .getState url => (.shown (memory.getState (hashConsumerUrl url)), memory)

/-- The stores give the same answers to operations at times. -/
def Agree : RedisBreakers → MemoryBreakers → List (ℤ × BreakerOperation) → Prop
  | _, _, [] => True
  | redis, memory, (now, operation) :: rest =>
    (redis.perform hashConsumerUrl now operation).1 =
        (memory.perform hashConsumerUrl now operation).1 ∧
      Agree (redis.perform hashConsumerUrl now operation).2
        (memory.perform hashConsumerUrl now operation).2 rest

/-! ## Histories without a difference -/

/-- An operation does not see that the time of a record is over. -/
def HidesExpiry (record : WebhookCircuitBreakerRecord) : BreakerOperation → Prop
  | .checkAndClaimAttempt _ policy =>
    policy.threshold = 0 ∨ record.state = .closed ∧ record.consecutiveFailures = 0
  | .recordSuccess _ _ => True
  | .recordFailure _ policy =>
    policy.threshold = 0 ∨
      if record.state = .halfOpen then policy.threshold = 1 ∧ record.consecutiveFailures = 1
      else record.consecutiveFailures = 0
  | .getState _ => False

/-- A probe that an operation claims at a time can be locked. -/
def LocksProbe (record : WebhookCircuitBreakerRecord) (now : ℤ) : BreakerOperation → Prop
  | .checkAndClaimAttempt _ policy =>
    policy.threshold ≠ 0 → record.state = .opened → record.resetAt ≤ now → policy.resetMs ≠ 0
  | _ => True

/-- The record of an operation, if it was ever written, is within its time and can be locked, or
the operation does not notice. -/
def Unnoticed (redis : RedisBreakers) (now : ℤ) (operation : BreakerOperation) : Prop :=
  ∀ entry, redis.states (hashConsumerUrl operation.url) = some entry →
    if now ≤ entry.expireAt then LocksProbe entry.value now operation
    else HidesExpiry entry.value operation

def EveryUnnoticed : RedisBreakers → List (ℤ × BreakerOperation) → Prop
  | _, [] => True
  | redis, (now, operation) :: rest =>
    Unnoticed hashConsumerUrl redis now operation ∧
      EveryUnnoticed (redis.perform hashConsumerUrl now operation).2 rest

/-- The stores were written alike, and no probe is locked while a circuit is open. -/
structure Matches (redis : RedisBreakers) (memory : MemoryBreakers) : Prop where
  states : ∀ key, memory.states key = (redis.states key).map Entry.value
  probes : ∀ key entry, redis.states key = some entry → entry.value.state = .opened →
    redis.probes key = none ∧ memory.probes key = none

end

theorem Matches.empty : Matches {} {} := ⟨fun _ => rfl, fun _ _ h => by cases h⟩

section

variable {redis : RedisBreakers} {memory : MemoryBreakers} {key : String}
  {policy : CircuitBreakerPolicy} {now : ℤ} {record : WebhookCircuitBreakerRecord}

theorem Matches.setState (h : Matches redis memory) (record : WebhookCircuitBreakerRecord) :
    Matches ((redis.setState key policy now record).delProbe key)
      (memory.setState key record) := by
  constructor
  · intro key'
    simp only [MemoryBreakers.setState, RedisBreakers.delProbe, RedisBreakers.setState]
    by_cases hkey : key' = key
    · rw [hkey, Function.update_self, set_self]
      rfl
    · rw [Function.update_of_ne hkey, set_of_ne hkey]
      exact h.states key'
  · intro key' entry hentry hopened
    simp only [MemoryBreakers.setState, RedisBreakers.delProbe, RedisBreakers.setState] at hentry ⊢
    by_cases hkey : key' = key
    · rw [hkey, Function.update_self, del_self]
      exact ⟨rfl, rfl⟩
    · rw [set_of_ne hkey] at hentry
      rw [Function.update_of_ne hkey, del_of_ne hkey]
      exact h.probes key' entry hentry hopened

theorem Matches.claim (h : Matches redis memory) (record : WebhookCircuitBreakerRecord) :
    Matches
      (RedisBreakers.setState
        { redis with probes := set redis.probes now key () policy.probeLockMs }
        key policy now (probeRecord policy now record))
      { states := Function.update memory.states key (some (probeRecord policy now record))
        probes := Function.update memory.probes key (some (now + policy.probeLockMs)) } := by
  constructor
  · intro key'
    simp only [RedisBreakers.setState]
    by_cases hkey : key' = key
    · rw [hkey, set_self, Function.update_self]
      rfl
    · rw [set_of_ne hkey, Function.update_of_ne hkey]
      exact h.states key'
  · intro key' entry hentry hopened
    simp only [RedisBreakers.setState] at hentry ⊢
    by_cases hkey : key' = key
    · rw [hkey, set_self] at hentry
      cases hentry
      cases hopened
    · rw [set_of_ne hkey] at hentry
      rw [set_of_ne hkey, Function.update_of_ne hkey]
      exact h.probes key' entry hentry hopened

/-! ## One operation -/

theorem recordOf_of_none (now : ℤ) (h : Matches redis memory) (hnone : redis.states key = none) :
    redis.recordOf key now = closedRecord ∧ memory.recordOf key = closedRecord := by
  rw [RedisBreakers.recordOf, MemoryBreakers.recordOf, h.states key, Lib.TtlTable.get, hnone]
  exact ⟨rfl, rfl⟩

variable {entry : Entry WebhookCircuitBreakerRecord}

theorem memory_recordOf (h : Matches redis memory) (hentry : redis.states key = some entry) :
    memory.recordOf key = entry.value := by
  rw [MemoryBreakers.recordOf, h.states key, hentry]
  rfl

theorem redis_recordOf (now : ℤ) (hentry : redis.states key = some entry) :
    redis.recordOf key now = if now ≤ entry.expireAt then entry.value else closedRecord := by
  rw [RedisBreakers.recordOf, Lib.TtlTable.get, hentry, Option.filter_some]
  by_cases hlives : now ≤ entry.expireAt
  · rw [if_pos (decide_eq_true hlives), if_pos hlives]
    rfl
  · rw [if_neg (by simpa using hlives), if_neg hlives]
    rfl

theorem admission_eq_claiming_iff :
    admission now record = .claiming ↔ record.state = .opened ∧ record.resetAt ≤ now := by
  unfold admission
  split
  · rename_i hstate
    rw [hstate]
    exact ⟨nofun, fun h => nomatch h.1⟩
  · rename_i hstate
    rw [hstate]
    split_ifs with hearly
    · exact ⟨nofun, fun h => absurd hearly (not_lt.mpr h.2)⟩
    · exact ⟨fun _ => ⟨rfl, not_lt.mp hearly⟩, fun _ => rfl⟩
  · rename_i hstate
    rw [hstate]
    exact ⟨nofun, fun h => nomatch h.1⟩

theorem checkAndClaimAttempt_same (h : Matches redis memory)
    (hredis : redis.recordOf key now = record) (hmemory : memory.recordOf key = record)
    (hprobes : record.state = .opened → redis.probes key = none ∧ memory.probes key = none)
    (hthreshold : policy.threshold ≠ 0) :
    ((redis.checkAndClaimAttempt key policy now).1 =
        (memory.checkAndClaimAttempt key policy now).1 ↔
      (record.state = .opened → record.resetAt ≤ now → policy.resetMs ≠ 0)) ∧
    ((redis.checkAndClaimAttempt key policy now).1 =
        (memory.checkAndClaimAttempt key policy now).1 →
      Matches (redis.checkAndClaimAttempt key policy now).2
        (memory.checkAndClaimAttempt key policy now).2) := by
  rw [RedisBreakers.checkAndClaimAttempt, MemoryBreakers.checkAndClaimAttempt,
    if_neg hthreshold, if_neg hthreshold, hredis, hmemory]
  dsimp only
  cases hadmission : admission now record with
  | answered =>
    refine ⟨⟨fun _ hopened hlate => ?_, fun _ => rfl⟩, fun _ => h⟩
    rw [admission_eq_claiming_iff.mpr ⟨hopened, hlate⟩] at hadmission
    cases hadmission
  | claiming =>
    obtain ⟨hopened, hlate⟩ := admission_eq_claiming_iff.mp hadmission
    obtain ⟨hnoLock, hnoProbe⟩ := hprobes hopened
    have hfree : (get redis.probes now key).isSome = false := by
      rw [Lib.TtlTable.get, hnoLock]
      rfl
    rw [hfree, hnoProbe]
    by_cases hlock : policy.probeLockMs = 0
    · have hreset : policy.resetMs = 0 := by
        rw [CircuitBreakerPolicy.probeLockMs, webhookCircuitBreakerProbeLockMaxMs] at hlock
        omega
      rw [if_pos hlock]
      exact ⟨⟨fun hsame => (by cases hsame), fun hne => absurd hreset (hne hopened hlate)⟩,
        fun hsame => by cases hsame⟩
    · have hreset : policy.resetMs ≠ 0 := by
        intro hreset
        rw [CircuitBreakerPolicy.probeLockMs, hreset] at hlock
        exact hlock rfl
      rw [if_neg hlock]
      exact ⟨⟨fun _ _ _ => hreset, fun _ => rfl⟩, fun _ => h.claim record⟩

theorem checkAndClaimAttempt_expired (h : Matches redis memory)
    (hredis : redis.recordOf key now = closedRecord) (hmemory : memory.recordOf key = record)
    (hthreshold : policy.threshold ≠ 0) :
    ((redis.checkAndClaimAttempt key policy now).1 =
        (memory.checkAndClaimAttempt key policy now).1 ↔
      record.state = .closed ∧ record.consecutiveFailures = 0) ∧
    ((redis.checkAndClaimAttempt key policy now).1 =
        (memory.checkAndClaimAttempt key policy now).1 →
      Matches (redis.checkAndClaimAttempt key policy now).2
        (memory.checkAndClaimAttempt key policy now).2) := by
  have hadmitted : redis.checkAndClaimAttempt key policy now = (failOpen, redis) := by
    rw [RedisBreakers.checkAndClaimAttempt, if_neg hthreshold, hredis]
    rfl
  rw [hadmitted, MemoryBreakers.checkAndClaimAttempt, if_neg hthreshold, hmemory, failOpen]
  unfold admission
  dsimp only
  cases hstate : record.state with
  | closed =>
    dsimp only
    apply And.intro
    · apply Iff.intro
      · intro heq
        exact ⟨rfl, (WebhookCircuitBreakerCheckResult.mk.inj heq).2.2.1.symm⟩
      · rintro ⟨-, hzero⟩
        rw [hzero]
    · exact fun _ => h
  | opened =>
    dsimp only
    have hne : ∀ result : WebhookCircuitBreakerCheckResult, result.state ≠ .closed →
        (⟨true, .closed, 0, none⟩ : WebhookCircuitBreakerCheckResult) ≠ result :=
      fun result hclosed heq => hclosed (by rw [← heq])
    by_cases hearly : now < record.resetAt
    · rw [if_pos hearly]
      exact ⟨⟨fun heq => absurd heq (hne _ nofun), nofun⟩, fun heq => absurd heq (hne _ nofun)⟩
    · rw [if_neg hearly]
      by_cases hprobe : (memory.probes key).any (now < ·) = true
      · rw [if_pos hprobe]
        exact ⟨⟨fun heq => absurd heq (hne _ nofun), nofun⟩, fun heq => absurd heq (hne _ nofun)⟩
      · rw [if_neg hprobe]
        exact ⟨⟨fun heq => absurd heq (hne _ nofun), nofun⟩, fun heq => absurd heq (hne _ nofun)⟩
  | halfOpen =>
    dsimp only
    exact ⟨⟨nofun, nofun⟩, nofun⟩

theorem failureRecord_closedRecord (hthreshold : policy.threshold ≠ 0) :
    failureRecord policy now closedRecord = failureRecord policy now record ↔
      if record.state = .halfOpen then policy.threshold = 1 ∧ record.consecutiveFailures = 1
      else record.consecutiveFailures = 0 := by
  have hfirst : failureRecord policy now closedRecord =
      if policy.threshold ≤ 1 then
        ⟨.opened, 1, now + policy.resetMs, some now, now + policy.ttlMs⟩
      else ⟨.closed, 1, 0, some now, now + policy.ttlMs⟩ := rfl
  rw [hfirst, failureRecord]
  by_cases hhalf : record.state = .halfOpen
  · rw [if_pos hhalf, if_pos hhalf]
    split_ifs with hone
    · simp only [WebhookCircuitBreakerRecord.mk.injEq, true_and, and_true]
      omega
    · simp only [WebhookCircuitBreakerRecord.mk.injEq, reduceCtorEq, false_and, false_iff]
      omega
  · rw [if_neg hhalf, if_neg hhalf]
    apply Iff.intro
    · intro heq
      have hcount := congrArg WebhookCircuitBreakerRecord.consecutiveFailures heq
      dsimp only at hcount
      split_ifs at hcount <;> (dsimp only at hcount; omega)
    · intro hzero
      rw [hzero]

end

section

variable {hashConsumerUrl : String → String} {redis : RedisBreakers} {memory : MemoryBreakers}
  {now : ℤ} {operation : BreakerOperation} {entry : Entry WebhookCircuitBreakerRecord}

/-! ## What is noticed of a record -/

theorem unnoticed_of_none (hentry : redis.states (hashConsumerUrl operation.url) = none) :
    Unnoticed hashConsumerUrl redis now operation := by
  intro entry h
  rw [hentry] at h
  cases h

theorem unnoticed_iff (hentry : redis.states (hashConsumerUrl operation.url) = some entry) :
    Unnoticed hashConsumerUrl redis now operation ↔
      if now ≤ entry.expireAt then LocksProbe entry.value now operation
      else HidesExpiry entry.value operation := by
  apply Iff.intro
  · exact fun h => h entry hentry
  · intro h other hother
    rw [hentry] at hother
    cases hother
    exact h

theorem unnoticed_iff_locksProbe
    (hentry : redis.states (hashConsumerUrl operation.url) = some entry)
    (hlives : now ≤ entry.expireAt) :
    Unnoticed hashConsumerUrl redis now operation ↔ LocksProbe entry.value now operation := by
  rw [unnoticed_iff hentry, if_pos hlives]

theorem unnoticed_iff_hidesExpiry
    (hentry : redis.states (hashConsumerUrl operation.url) = some entry)
    (hover : ¬ now ≤ entry.expireAt) :
    Unnoticed hashConsumerUrl redis now operation ↔ HidesExpiry entry.value operation := by
  rw [unnoticed_iff hentry, if_neg hover]

theorem unnoticed_of_forall
    (hlocks : ∀ record, LocksProbe record now operation)
    (hhides : ∀ record, HidesExpiry record operation) :
    Unnoticed hashConsumerUrl redis now operation := by
  intro entry _
  split_ifs
  · exact hlocks entry.value
  · exact hhides entry.value

/-! ## The operations at both stores -/

/-- The answers are the same exactly under a condition, and then the stores match on. -/
def AgreesWhen (condition : Prop) (ofRedis : BreakerAnswer × RedisBreakers)
    (ofMemory : BreakerAnswer × MemoryBreakers) : Prop :=
  (ofRedis.1 = ofMemory.1 ↔ condition) ∧ (ofRedis.1 = ofMemory.1 → Matches ofRedis.2 ofMemory.2)

theorem checkAndClaimAttempt_agrees (hashConsumerUrl : String → String) (now : ℤ)
    (h : Matches redis memory) (url : String) (policy : CircuitBreakerPolicy) :
    AgreesWhen (Unnoticed hashConsumerUrl redis now (.checkAndClaimAttempt url policy))
      (redis.perform hashConsumerUrl now (.checkAndClaimAttempt url policy))
      (memory.perform hashConsumerUrl now (.checkAndClaimAttempt url policy)) := by
  rw [AgreesWhen, RedisBreakers.perform, MemoryBreakers.perform]
  simp only [Prod.map_fst, Prod.map_snd, id, BreakerAnswer.checked.injEq]
  by_cases hthreshold : policy.threshold = 0
  · rw [RedisBreakers.checkAndClaimAttempt, MemoryBreakers.checkAndClaimAttempt,
      if_pos hthreshold, if_pos hthreshold]
    have hunnoticed : Unnoticed hashConsumerUrl redis now (.checkAndClaimAttempt url policy) :=
      unnoticed_of_forall (fun _ hne => absurd hthreshold hne) fun _ => .inl hthreshold
    exact ⟨iff_of_true rfl hunnoticed, fun _ => h⟩
  · cases hentry : redis.states (hashConsumerUrl url) with
    | none =>
      have hclosed := recordOf_of_none now h hentry
      have hcheck := checkAndClaimAttempt_same h hclosed.1 hclosed.2 nofun hthreshold
      exact ⟨iff_of_true (hcheck.1.mpr nofun) (unnoticed_of_none hentry), hcheck.2⟩
    | some entry =>
      have hmemory := memory_recordOf h hentry
      have hredis := redis_recordOf now hentry
      by_cases hlives : now ≤ entry.expireAt
      · rw [if_pos hlives] at hredis
        have hcheck := checkAndClaimAttempt_same h hredis hmemory
          (h.probes _ entry hentry) hthreshold
        rw [unnoticed_iff_locksProbe hentry hlives, LocksProbe, hcheck.1]
        exact ⟨⟨fun hlocks _ => hlocks, fun hlocks => hlocks hthreshold⟩,
          fun hlocks => hcheck.2 (hcheck.1.mpr hlocks)⟩
      · rw [if_neg hlives] at hredis
        have hcheck := checkAndClaimAttempt_expired h hredis hmemory hthreshold
        rw [unnoticed_iff_hidesExpiry hentry hlives, HidesExpiry, hcheck.1]
        exact ⟨(or_iff_right hthreshold).symm, fun hhides => hcheck.2 (hcheck.1.mpr hhides)⟩

theorem recordSuccess_agrees (h : Matches redis memory) (url : String)
    (policy : CircuitBreakerPolicy) :
    AgreesWhen (Unnoticed hashConsumerUrl redis now (.recordSuccess url policy))
      (redis.perform hashConsumerUrl now (.recordSuccess url policy))
      (memory.perform hashConsumerUrl now (.recordSuccess url policy)) :=
  ⟨iff_of_true rfl (unnoticed_of_forall (fun _ => trivial) fun _ => trivial),
    fun _ => h.setState _⟩

theorem recordFailure_agrees (hashConsumerUrl : String → String) (now : ℤ)
    (h : Matches redis memory) (url : String) (policy : CircuitBreakerPolicy) :
    AgreesWhen (Unnoticed hashConsumerUrl redis now (.recordFailure url policy))
      (redis.perform hashConsumerUrl now (.recordFailure url policy))
      (memory.perform hashConsumerUrl now (.recordFailure url policy)) := by
  rw [AgreesWhen, RedisBreakers.perform, MemoryBreakers.perform]
  simp only [Prod.map_fst, Prod.map_snd, id, BreakerAnswer.recorded.injEq]
  rw [RedisBreakers.recordFailure, MemoryBreakers.recordFailure]
  by_cases hthreshold : policy.threshold = 0
  · rw [if_pos hthreshold, if_pos hthreshold]
    have hunnoticed : Unnoticed hashConsumerUrl redis now (.recordFailure url policy) :=
      unnoticed_of_forall (fun _ => trivial) fun _ => .inl hthreshold
    exact ⟨iff_of_true rfl hunnoticed, fun _ => h⟩
  · rw [if_neg hthreshold, if_neg hthreshold]
    dsimp only
    have hwrites : ∀ record record', record = record' →
        Matches ((redis.setState (hashConsumerUrl url) policy now record).delProbe
          (hashConsumerUrl url)) (memory.setState (hashConsumerUrl url) record') := by
      rintro record _ rfl
      exact h.setState record
    refine ⟨?_, hwrites _ _⟩
    cases hentry : redis.states (hashConsumerUrl url) with
    | none =>
      rw [(recordOf_of_none now h hentry).1, (recordOf_of_none now h hentry).2]
      exact iff_of_true rfl (unnoticed_of_none hentry)
    | some entry =>
      rw [memory_recordOf h hentry, redis_recordOf now hentry]
      by_cases hlives : now ≤ entry.expireAt
      · rw [if_pos hlives, unnoticed_iff_locksProbe hentry hlives]
        exact iff_of_true rfl trivial
      · rw [if_neg hlives, failureRecord_closedRecord hthreshold,
          unnoticed_iff_hidesExpiry hentry hlives, HidesExpiry, or_iff_right hthreshold]

theorem getState_agrees (hashConsumerUrl : String → String) (now : ℤ)
    (h : Matches redis memory) (url : String) :
    AgreesWhen (Unnoticed hashConsumerUrl redis now (.getState url))
      (redis.perform hashConsumerUrl now (.getState url))
      (memory.perform hashConsumerUrl now (.getState url)) := by
  refine ⟨?_, fun _ => h⟩
  rw [RedisBreakers.perform, MemoryBreakers.perform, BreakerAnswer.shown.injEq,
    RedisBreakers.getState, MemoryBreakers.getState, h.states]
  cases hentry : redis.states (hashConsumerUrl url) with
  | none =>
    rw [Lib.TtlTable.get, hentry]
    exact iff_of_true rfl (unnoticed_of_none hentry)
  | some entry =>
    rw [Lib.TtlTable.get, hentry, Option.filter_some]
    by_cases hlives : now ≤ entry.expireAt
    · rw [if_pos (decide_eq_true hlives), unnoticed_iff_locksProbe hentry hlives]
      exact iff_of_true rfl trivial
    · rw [if_neg (by simpa using hlives), unnoticed_iff_hidesExpiry hentry hlives]
      exact iff_of_false (fun hsame => by cases hsame) id

theorem perform_agrees (hashConsumerUrl : String → String) (now : ℤ) (h : Matches redis memory)
    (operation : BreakerOperation) :
    AgreesWhen (Unnoticed hashConsumerUrl redis now operation)
      (redis.perform hashConsumerUrl now operation)
      (memory.perform hashConsumerUrl now operation) := by
  cases operation with
  | checkAndClaimAttempt url policy =>
    exact checkAndClaimAttempt_agrees hashConsumerUrl now h url policy
  | recordSuccess url policy => exact recordSuccess_agrees h url policy
  | recordFailure url policy => exact recordFailure_agrees hashConsumerUrl now h url policy
  | getState url => exact getState_agrees hashConsumerUrl now h url

theorem agree_iff (h : Matches redis memory) (history : List (ℤ × BreakerOperation)) :
    Agree hashConsumerUrl redis memory history ↔
      EveryUnnoticed hashConsumerUrl redis history := by
  induction history generalizing redis memory with
  | nil => exact Iff.rfl
  | cons step _ ih =>
    obtain ⟨now, operation⟩ := step
    obtain ⟨hsame, hmatches⟩ := perform_agrees hashConsumerUrl now h operation
    rw [Agree, EveryUnnoticed, ← hsame]
    exact and_congr_right fun heq => ih (hmatches heq)

end

/-- The stores give the same answers on the histories none of whose operations notices that the
time of a record is over or that a probe cannot be locked. -/
theorem storesAgree_iff (hashConsumerUrl : String → String)
    (history : List (ℤ × BreakerOperation)) :
    Agree hashConsumerUrl {} {} history ↔ EveryUnnoticed hashConsumerUrl {} history :=
  agree_iff Matches.empty history

/-- The history of an endpoint that fails once and is tried again when the record in Redis is
gone. -/
def forgottenFailure : List (ℤ × BreakerOperation) :=
  let policy : CircuitBreakerPolicy := ⟨some 1, none⟩
  [(0, .recordFailure "https://a.example" policy),
    (600001, .checkAndClaimAttempt "https://a.example" policy)]

/-- In memory the endpoint is probed, in Redis its circuit is closed. -/
theorem storesAgree_fails : ¬ ∀ (hashConsumerUrl : String → String)
    (history : List (ℤ × BreakerOperation)), (history.map Prod.fst).Pairwise (· ≤ ·) →
      Agree hashConsumerUrl {} {} history := by
  intro h
  have hagree := h id forgottenFailure (by decide)
  exact absurd hagree.2.1 (by decide)

end Fluxora.Webhooks
