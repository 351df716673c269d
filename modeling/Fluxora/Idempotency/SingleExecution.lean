/-
# One execution for a key

What Redis has under the key of the requests is nothing, a claim, or a response. As long as it is
not over there, a request moves on by what is kept: a claim is acquired only when nothing is, and
nothing is kept only before the first claim.
-/

import Fluxora.Idempotency.Middleware

namespace Fluxora.Idempotency

open Lib Lib.TtlTable Lib.Transition

/-! ## What is kept -/

section

variable (store : RedisIdempotencyStore) (now : ℤ) {key tenantId : String} {ttlSeconds : ℕ}

theorem RedisIdempotencyStore.start_of_free (httl : ttlSeconds ≠ 0)
    (hfree : TtlTable.get store.values now (buildKey key tenantId) = none) :
    (store.start now key tenantId ttlSeconds).1 = true ∧
      (store.start now key tenantId ttlSeconds).2.values =
        TtlTable.set store.values now (buildKey key tenantId) .inProgress (ttlSeconds * 1000) := by
  have hpruned : (TtlTable.get (store.pruneExpiredDeadlines now none).values now
      (buildKey key tenantId)).isSome = false := congrArg Option.isSome hfree
  rw [RedisIdempotencyStore.start]
  simp only [if_neg httl, hpruned, Bool.false_eq_true, if_false]
  exact ⟨trivial, rfl⟩

theorem RedisIdempotencyStore.start_of_taken (httl : ttlSeconds ≠ 0) {kept : Kept}
    (htaken : TtlTable.get store.values now (buildKey key tenantId) = some kept) :
    (store.start now key tenantId ttlSeconds).1 = false ∧
      (store.start now key tenantId ttlSeconds).2.values = store.values := by
  have hpruned : (TtlTable.get (store.pruneExpiredDeadlines now none).values now
      (buildKey key tenantId)).isSome = true := congrArg Option.isSome htaken
  rw [RedisIdempotencyStore.start]
  simp only [if_neg httl, hpruned, if_true]
  exact ⟨trivial, rfl⟩

theorem RedisIdempotencyStore.set_values (key tenantId : String) (entry : IdempotentEntry)
    (ttlSeconds : ℕ) :
    let stored := (store.set now key tenantId entry ttlSeconds).values (buildKey key tenantId)
    stored = store.values (buildKey key tenantId) ∨
      ∃ window, stored = some ⟨.entry entry.versioned, window⟩ := by
  rw [RedisIdempotencyStore.set]
  dsimp only
  split_ifs
  · exact .inl rfl
  · exact .inr ⟨_, Function.update_self _ _ _⟩

theorem RedisIdempotencyStore.perform_values_of_ne {operation : IdempotencyOperation}
    {fullKey : String} (hother : operation.fullKey ≠ fullKey) :
    (store.perform now operation).2.values fullKey = store.values fullKey := by
  cases operation with
  | start =>
    rw [RedisIdempotencyStore.perform, RedisIdempotencyStore.start]
    split_ifs
    · rfl
    · rfl
    · exact Function.update_of_ne (Ne.symm hother) _ _
  | get => rfl
  | set =>
    rw [RedisIdempotencyStore.perform, RedisIdempotencyStore.set]
    dsimp only
    split_ifs
    · rfl
    · exact Function.update_of_ne (Ne.symm hother) _ _

end

/-- What Redis has under the key of the requests. -/
def KeyedRequests.kept (requests : KeyedRequests) (values : Table String Kept) : Option Kept :=
  (values requests.fullKey).map (·.value)

namespace IdempotencySystem

variable {requests : KeyedRequests} {sha256 : String → String} {ttlSeconds : ℕ}
  {s s' : IdempotencySystem} {label : ℕ × IdempotencyEvent}

theorem get_eq_kept (h : s.Undisturbed requests ttlSeconds label) :
    TtlTable.get (s.later label.1).values (s.later label.1).clock requests.fullKey =
      requests.kept s.values := by
  rw [TtlTable.get, KeyedRequests.kept]
  cases hentry : (s.later label.1).values requests.fullKey with
  | none =>
    rw [show s.values requests.fullKey = none from hentry]
    rfl
  | some entry =>
    rw [show s.values requests.fullKey = some entry from hentry]
    have hlives : (s.later label.1).clock ≤ entry.expireAt := h.2 entry hentry
    rw [Option.filter_some, if_pos (decide_eq_true hlives)]

end IdempotencySystem

/-! ## The moves of the requests -/

/-- How the requests move on by what is kept under their key. -/
inductive Moves (requests : KeyedRequests) (sha256 : String → String) (kept : Option Kept)
    (progress : ℕ → Progress) : Option Kept → (ℕ → Progress) → Prop
  | lookUp (i : ℕ) (now : ℤ) (harrived : progress i = .arrived) :
      Moves requests sha256 kept progress kept
        (Function.update progress i (requests.afterGet sha256 now i kept))
  | refuse (i : ℕ) (hmissed : progress i = .missed) (htaken : kept ≠ none) :
      Moves requests sha256 kept progress kept
        (Function.update progress i (.answered (requests.request i).inProgressConflict))
  | acquire (i : ℕ) (hmissed : progress i = .missed) (hfree : kept = none) :
      Moves requests sha256 kept progress (some .inProgress)
        (Function.update progress i .running)
  | respond (i statusCode : ℕ) (body : Json) (hrunning : progress i = .running) :
      Moves requests sha256 kept progress kept
        (Function.update progress i (.responded statusCode body))
  | save (i statusCode : ℕ) (body : Json) (hresponded : progress i = .responded statusCode body)
      (hsuccess : isSuccess statusCode) (kept' : Option Kept)
      (hkept' : kept' = kept ∨
        kept' = some (.entry (requests.entryOf sha256 i statusCode body))) :
      Moves requests sha256 kept progress kept'
        (Function.update progress i (.stored statusCode body))
  | elsewhere : Moves requests sha256 kept progress kept progress

section

variable {requests : KeyedRequests} {sha256 : String → String} {ttlSeconds : ℕ}
  {progress : ℕ → Progress} (store : RedisIdempotencyStore) (now : ℤ) {i : ℕ}

theorem claim_moves (httl : ttlSeconds ≠ 0)
    (hget : TtlTable.get store.values now requests.fullKey = requests.kept store.values)
    (hmissed : progress i = .missed) :
    let started := store.start now requests.key requests.tenantId ttlSeconds
    Moves requests sha256 (requests.kept store.values) progress (requests.kept started.2.values)
      (Function.update progress i (requests.afterStart i started.1)) := by
  dsimp only
  cases hkept : requests.kept store.values with
  | none =>
    obtain ⟨hacquired, hvalues⟩ := store.start_of_free now httl (hget.trans hkept)
    have hclaimed : requests.kept (TtlTable.set store.values now requests.fullKey .inProgress
        (ttlSeconds * 1000)) = some .inProgress := by
      rw [KeyedRequests.kept, TtlTable.set, Function.update_self]
      rfl
    rw [hacquired, hvalues]
    exact hclaimed ▸ .acquire i hmissed rfl
  | some =>
    obtain ⟨hrefused, hvalues⟩ := store.start_of_taken now httl (hget.trans hkept)
    rw [hrefused, hvalues, hkept]
    exact .refuse i hmissed (Option.some_ne_none _)

theorem save_moves {statusCode : ℕ} {body : Json}
    (hresponded : progress i = .responded statusCode body) (hsuccess : isSuccess statusCode)
    (ttlSeconds : ℕ) :
    let entry := requests.entryOf sha256 i statusCode body
    Moves requests sha256 (requests.kept store.values) progress
      (requests.kept (store.set now requests.key requests.tenantId entry ttlSeconds).values)
      (Function.update progress i (.stored statusCode body)) := by
  refine .save i statusCode body hresponded hsuccess _ ?_
  rcases store.set_values now requests.key requests.tenantId
      (requests.entryOf sha256 i statusCode body) ttlSeconds with hsame | ⟨window, hentry⟩
  · exact .inl (congrArg (Option.map Entry.value) hsame)
  · exact .inr (congrArg (Option.map Entry.value) hentry)

theorem elsewhere_moves {operation : IdempotencyOperation}
    (hother : operation.fullKey ≠ requests.fullKey) :
    Moves requests sha256 (requests.kept store.values) progress
      (requests.kept (store.perform now operation).2.values) progress := by
  have hkept : requests.kept (store.perform now operation).2.values =
      requests.kept store.values :=
    congrArg (Option.map Entry.value) (store.perform_values_of_ne now hother)
  rw [hkept]
  exact .elsewhere

end

namespace IdempotencySystem

variable {requests : KeyedRequests} {sha256 : String → String} {ttlSeconds : ℕ}
  {s s' : IdempotencySystem} {label : ℕ × IdempotencyEvent}

theorem step_moves (h : s.Undisturbed requests ttlSeconds label)
    (hstep : s.step requests sha256 ttlSeconds label = some s') :
    Moves requests sha256 (requests.kept s.values) s.progress (requests.kept s'.values)
      s'.progress := by
  have hget := get_eq_kept h
  obtain ⟨elapsed, event⟩ := label
  rw [step] at hstep
  cases event with
  | lookUp i =>
    rw [handle] at hstep
    split at hstep
    · cases hstep
      change Moves requests sha256 (requests.kept s.values) s.progress (requests.kept s.values)
        (Function.update s.progress i (requests.afterGet sha256 (s.later elapsed).clock i
          (TtlTable.get (s.later elapsed).values (s.later elapsed).clock requests.fullKey)))
      rw [hget]
      exact .lookUp i _ ‹_›
    · cases hstep
  | claim i =>
    rw [handle] at hstep
    split at hstep
    · cases hstep
      exact claim_moves ((s.later elapsed).storeAt (requests.host i)) (s.later elapsed).clock h.1
        hget ‹_›
    · cases hstep
  | respond i statusCode body =>
    rw [handle] at hstep
    split at hstep
    · cases hstep
      exact .respond i statusCode body ‹_›
    · cases hstep
  | save i =>
    rw [handle] at hstep
    split at hstep
    · split_ifs at hstep with hsuccess
      cases hstep
      exact save_moves ((s.later elapsed).storeAt (requests.host i)) (s.later elapsed).clock ‹_›
        hsuccess ttlSeconds
    · cases hstep
  | elsewhere instanceId =>
    rw [handle] at hstep
    split_ifs at hstep with hother
    cases hstep
    exact elsewhere_moves ((s.later elapsed).storeAt instanceId) (s.later elapsed).clock hother

end IdempotencySystem

/-! ## What the moves keep -/

/-- The answers to a request whose handler is not called: another request is in progress, or a
response is stored under another fingerprint, or under the same. -/
inductive Answers (requests : KeyedRequests) (sha256 : String → String)
    (progress : ℕ → Progress) (i : ℕ) : HttpReply → Prop
  | inProgress (j : ℕ) (hexecuted : (progress j).Executed) :
      Answers requests sha256 progress i (requests.request i).inProgressConflict
  | mismatch (j statusCode : ℕ) (body : Json) (hstored : progress j = .stored statusCode body)
      (hother : requests.incomingHash sha256 j ≠ requests.incomingHash sha256 i) :
      Answers requests sha256 progress i
        ((requests.request i).fingerprintConflict (requests.incomingHash sha256 j)
          (requests.incomingHash sha256 i))
  | replay (j statusCode : ℕ) (body : Json) (now : ℤ)
      (hstored : progress j = .stored statusCode body) (hsuccess : isSuccess statusCode)
      (hsame : requests.incomingHash sha256 j = requests.incomingHash sha256 i) :
      Answers requests sha256 progress i
        (replayReply now requests.key (requests.request i) statusCode body)

structure Consistent (requests : KeyedRequests) (sha256 : String → String) (kept : Option Kept)
    (progress : ℕ → Progress) : Prop where
  free : kept = none → ∀ i, ¬ (progress i).Executed
  taken : kept ≠ none → ∃ i, (progress i).Executed
  single : ∀ i j, (progress i).Executed → (progress j).Executed → i = j
  entry : ∀ entry, kept = some (.entry entry) → ∃ i statusCode body,
    progress i = .stored statusCode body ∧ isSuccess statusCode ∧
      entry = requests.entryOf sha256 i statusCode body
  answered : ∀ i reply, progress i = .answered reply → Answers requests sha256 progress i reply

section

variable {requests : KeyedRequests} {sha256 : String → String} {kept kept' : Option Kept}
  {progress progress' : ℕ → Progress} {j : ℕ}

theorem afterGet_not_executed (now : ℤ) (i : ℕ) (kept : Option Kept) :
    ¬ (requests.afterGet sha256 now i kept).Executed := by
  unfold KeyedRequests.afterGet
  split
  · exact id
  · exact id
  · split_ifs <;> exact id

theorem Moves.stored (h : Moves requests sha256 kept progress kept' progress') {statusCode : ℕ}
    {body : Json} (hstored : progress j = .stored statusCode body) :
    progress' j = .stored statusCode body := by
  cases h with
  | elsewhere => exact hstored
  | lookUp i now hbefore | refuse i hbefore | acquire i hbefore | respond i _ _ hbefore
  | save i _ _ hbefore =>
    have hne : j ≠ i := by
      rintro rfl
      rw [hbefore] at hstored
      cases hstored
    rw [Function.update_of_ne hne]
    exact hstored

theorem Moves.executed (h : Moves requests sha256 kept progress kept' progress')
    (hexecuted : (progress j).Executed) : (progress' j).Executed := by
  cases h with
  | elsewhere => exact hexecuted
  | lookUp i _ hbefore | refuse i hbefore =>
    have hne : j ≠ i := by
      rintro rfl
      rw [hbefore] at hexecuted
      exact hexecuted
    rw [Function.update_of_ne hne]
    exact hexecuted
  | acquire i | respond i | save i =>
    by_cases hsame : j = i
    · rw [hsame, Function.update_self]
      trivial
    · rw [Function.update_of_ne hsame]
      exact hexecuted

theorem Moves.newly_executed (h : Moves requests sha256 kept progress kept' progress')
    (hbefore : ¬ (progress j).Executed) (hexecuted : (progress' j).Executed) :
    kept = none ∧ kept' = some .inProgress ∧ ∀ i, i ≠ j → progress' i = progress i := by
  cases h with
  | elsewhere => exact absurd hexecuted hbefore
  | acquire i _ hfree =>
    by_cases hsame : j = i
    · rw [hsame]
      exact ⟨hfree, rfl, fun other hother => Function.update_of_ne hother _ _⟩
    · rw [Function.update_of_ne hsame] at hexecuted
      exact absurd hexecuted hbefore
  | lookUp i now =>
    by_cases hsame : j = i
    · rw [hsame, Function.update_self] at hexecuted
      exact absurd hexecuted (afterGet_not_executed now i kept)
    · rw [Function.update_of_ne hsame] at hexecuted
      exact absurd hexecuted hbefore
  | refuse i =>
    by_cases hsame : j = i
    · rw [hsame, Function.update_self] at hexecuted
      exact hexecuted.elim
    · rw [Function.update_of_ne hsame] at hexecuted
      exact absurd hexecuted hbefore
  | respond i _ _ hcalled | save i _ _ hcalled =>
    have hne : j ≠ i := by
      rintro rfl
      rw [hcalled] at hbefore
      exact hbefore trivial
    rw [Function.update_of_ne hne] at hexecuted
    exact absurd hexecuted hbefore

theorem Moves.newly_answered (h : Moves requests sha256 kept progress kept' progress') {i : ℕ}
    {reply : HttpReply} (hbefore : progress i ≠ .answered reply)
    (hanswered : progress' i = .answered reply) :
    (∃ now, requests.afterGet sha256 now i kept = .answered reply) ∨
      kept ≠ none ∧ reply = (requests.request i).inProgressConflict := by
  cases h with
  | elsewhere => exact absurd hanswered hbefore
  | lookUp j now =>
    by_cases hsame : i = j
    · rw [hsame, Function.update_self] at hanswered
      exact .inl ⟨now, hsame ▸ hanswered⟩
    · rw [Function.update_of_ne hsame] at hanswered
      exact absurd hanswered hbefore
  | refuse j _ htaken =>
    by_cases hsame : i = j
    · rw [hsame, Function.update_self] at hanswered
      cases hanswered
      exact .inr ⟨htaken, hsame ▸ rfl⟩
    · rw [Function.update_of_ne hsame] at hanswered
      exact absurd hanswered hbefore
  | acquire j | respond j | save j =>
    by_cases hsame : i = j
    · rw [hsame, Function.update_self] at hanswered
      cases hanswered
    · rw [Function.update_of_ne hsame] at hanswered
      exact absurd hanswered hbefore

theorem Moves.kept_ne_none (h : Moves requests sha256 kept progress kept' progress')
    (htaken : kept ≠ none) : kept' ≠ none := by
  cases h with
  | acquire _ _ hfree => exact absurd hfree htaken
  | save _ _ _ _ _ _ hkept' =>
    rcases hkept' with rfl | rfl
    · exact htaken
    · exact Option.some_ne_none _
  | _ => exact htaken

theorem Answers.move (h : Moves requests sha256 kept progress kept' progress') {i : ℕ}
    {reply : HttpReply} (hanswer : Answers requests sha256 progress i reply) :
    Answers requests sha256 progress' i reply := by
  cases hanswer with
  | inProgress j hexecuted => exact .inProgress j (h.executed hexecuted)
  | mismatch j statusCode body hstored hother =>
    exact .mismatch j statusCode body (h.stored hstored) hother
  | replay j statusCode body now hstored hsuccess hsame =>
    exact .replay j statusCode body now (h.stored hstored) hsuccess hsame

namespace Consistent

theorem init : Consistent requests sha256 none fun _ => .arrived where
  free _ _ := id
  taken htaken := absurd rfl htaken
  single _ _ hexecuted := hexecuted.elim
  entry _ hentry := nomatch hentry
  answered _ _ hanswered := nomatch hanswered

theorem answers_afterGet (h : Consistent requests sha256 kept progress) (now : ℤ) (i : ℕ)
    {reply : HttpReply} (hreply : requests.afterGet sha256 now i kept = .answered reply) :
    Answers requests sha256 progress i reply := by
  unfold KeyedRequests.afterGet at hreply
  split at hreply
  · cases hreply
  · cases hreply
    obtain ⟨j, hexecuted⟩ := h.taken (Option.some_ne_none _)
    exact .inProgress j hexecuted
  · rename_i existing
    obtain ⟨j, statusCode, body, hstored, hsuccess, rfl⟩ := h.entry existing rfl
    split_ifs at hreply with hhash
    · cases hreply
      exact .mismatch j statusCode body hstored hhash
    · cases hreply
      exact .replay j statusCode body now hstored hsuccess (not_not.mp hhash)

theorem move (h : Consistent requests sha256 kept progress)
    (hmove : Moves requests sha256 kept progress kept' progress') :
    Consistent requests sha256 kept' progress' where
  free hnone i hexecuted := by
    have hfree : kept = none := by
      by_contra htaken
      exact hmove.kept_ne_none htaken hnone
    obtain ⟨-, hclaimed, -⟩ := hmove.newly_executed (h.free hfree i) hexecuted
    rw [hnone] at hclaimed
    cases hclaimed
  taken htaken := by
    by_cases hfree : kept = none
    · cases hmove with
      | acquire i | save i => exact ⟨i, by rw [Function.update_self]; trivial⟩
      | _ => exact absurd hfree htaken
    · obtain ⟨i, hexecuted⟩ := h.taken hfree
      exact ⟨i, hmove.executed hexecuted⟩
  single i j hi hj := by
    by_cases hi' : (progress i).Executed
    · by_cases hj' : (progress j).Executed
      · exact h.single i j hi' hj'
      · obtain ⟨hfree, -⟩ := hmove.newly_executed hj' hj
        exact absurd hi' (h.free hfree i)
    · obtain ⟨hfree, -, hothers⟩ := hmove.newly_executed hi' hi
      by_contra hne
      rw [hothers j (Ne.symm hne)] at hj
      exact h.free hfree j hj
  entry entry hentry := by
    have hkeeps : kept = some (.entry entry) → ∃ i statusCode body,
        progress' i = .stored statusCode body ∧ isSuccess statusCode ∧
          entry = requests.entryOf sha256 i statusCode body := by
      intro hkept
      obtain ⟨i, statusCode, body, hstored, hrest⟩ := h.entry entry hkept
      exact ⟨i, statusCode, body, hmove.stored hstored, hrest⟩
    cases hmove with
    | acquire => cases hentry
    | save i statusCode body _ hsuccess _ hkept' =>
      rcases hkept' with rfl | rfl
      · exact hkeeps hentry
      · cases hentry
        exact ⟨i, statusCode, body, Function.update_self _ _ _, hsuccess, rfl⟩
    | _ => exact hkeeps hentry
  answered i reply hreply := by
    by_cases hbefore : progress i = .answered reply
    · exact (h.answered i reply hbefore).move hmove
    · refine Answers.move hmove ?_
      rcases hmove.newly_answered hbefore hreply with ⟨now, hget⟩ | ⟨htaken, rfl⟩
      · exact h.answers_afterGet now i hget
      · obtain ⟨j, hexecuted⟩ := h.taken htaken
        exact .inProgress j hexecuted

end Consistent

end

/-! ## Runs -/

namespace IdempotencySystem

variable {requests : KeyedRequests} {sha256 : String → String} {ttlSeconds : ℕ} {clock : ℤ}
  {s s' : IdempotencySystem}

theorem consistent_of_reaches
    (hrun : Reaches (step · requests sha256 ttlSeconds) (Undisturbed · requests ttlSeconds)
      { clock := clock } s) : Consistent requests sha256 (requests.kept s.values) s.progress := by
  have hmoves : ∀ (s : IdempotencySystem) label s',
      Consistent requests sha256 (requests.kept s.values) s.progress →
        s.Undisturbed requests ttlSeconds label →
          s.step requests sha256 ttlSeconds label = some s' →
            Consistent requests sha256 (requests.kept s'.values) s'.progress :=
    fun _ _ _ h hallowed hstep => h.move (step_moves hallowed hstep)
  exact hrun.invariant hmoves Consistent.init

theorem answered_of_taken {i elapsed : ℕ} {event : IdempotencyEvent}
    (hallowed : s.Undisturbed requests ttlSeconds (elapsed, event))
    (htaken : requests.kept s.values ≠ none) (hevent : event = .lookUp i ∨ event = .claim i)
    (hstep : s.step requests sha256 ttlSeconds (elapsed, event) = some s') :
    ∃ reply, s'.progress i = .answered reply := by
  have hget := get_eq_kept hallowed
  rw [step] at hstep
  rcases hevent with rfl | rfl
  · rw [handle] at hstep
    split at hstep
    · cases hstep
      change ∃ reply, Function.update s.progress i (requests.afterGet sha256 (s.later elapsed).clock
        i (TtlTable.get (s.later elapsed).values (s.later elapsed).clock requests.fullKey)) i =
          .answered reply
      rw [hget, Function.update_self]
      unfold KeyedRequests.afterGet
      split
      · exact absurd ‹_› htaken
      · exact ⟨_, rfl⟩
      · split_ifs <;> exact ⟨_, rfl⟩
    · cases hstep
  · rw [handle] at hstep
    split at hstep
    · cases hstep
      obtain ⟨kept, hkept⟩ := Option.ne_none_iff_exists'.mp htaken
      obtain ⟨hrefused, -⟩ := RedisIdempotencyStore.start_of_taken
        ((s.later elapsed).storeAt (requests.host i)) (s.later elapsed).clock hallowed.1
        (hget.trans hkept)
      change ∃ reply, Function.update s.progress i (requests.afterStart i
        (((s.later elapsed).storeAt (requests.host i)).start
          (s.later elapsed).clock requests.key requests.tenantId ttlSeconds).1) i =
            .answered reply
      rw [hrefused, Function.update_self]
      exact ⟨_, rfl⟩
    · cases hstep

/-- While Redis answers and nothing expires, the handler is called for one request at most. Every
other request is answered with its next step: that one is in progress, or there is a stored
response with another fingerprint, or it is replayed. -/
theorem handler_called_once
    (hrun : Reaches (step · requests sha256 ttlSeconds) (Undisturbed · requests ttlSeconds)
      { clock := clock } s) :
    (∀ i j, (s.progress i).Executed → (s.progress j).Executed → i = j) ∧
      (∀ i reply, s.progress i = .answered reply → Answers requests sha256 s.progress i reply) ∧
        ∀ i j elapsed event s', (s.progress j).Executed →
          s.Undisturbed requests ttlSeconds (elapsed, event) →
          event = .lookUp i ∨ event = .claim i →
          s.step requests sha256 ttlSeconds (elapsed, event) = some s' →
            ∃ reply, s'.progress i = .answered reply := by
  have hconsistent := consistent_of_reaches hrun
  refine ⟨hconsistent.single, hconsistent.answered, ?_⟩
  intro i j elapsed event s' hexecuted hallowed hevent hstep
  have htaken : requests.kept s.values ≠ none := fun hfree => hconsistent.free hfree j hexecuted
  exact answered_of_taken hallowed htaken hevent hstep

end IdempotencySystem

/-! ## A replay -/

/-- Requests of one client with one body. -/
def sameRequests : KeyedRequests where
  tenantId := "anonymous"
  key := "key"
  request _ := ⟨"POST", some "key", none, none, .object [], none⟩
  host _ := 0
  inScope _ := rfl

def createdBody : Json := .object [("message", .string "success"), ("data", .object [])]

/-- A request is executed and stored before another one arrives. -/
def executeAndReplay : List (ℕ × IdempotencyEvent) :=
  [(0, .lookUp 0), (1, .claim 0), (1, .respond 0 201 createdBody), (1, .save 0), (1, .lookUp 1)]

theorem executeAndReplay_reaches : ∃ s : IdempotencySystem,
    Reaches (IdempotencySystem.step · sameRequests (fun _ => "f") 60)
      (IdempotencySystem.Undisturbed · sameRequests 60) { clock := 0 } s ∧
      s.progress 0 = .stored 201 createdBody ∧
      s.progress 1 =
        .answered (replayReply 4 "key" (sameRequests.request 1) 201 createdBody) := by
  obtain ⟨s, hrun, hfirst, hsecond⟩ : ∃ s, runUnder
      (IdempotencySystem.step · sameRequests (fun _ => "f") 60)
      (IdempotencySystem.Undisturbed · sameRequests 60) { clock := 0 } executeAndReplay = some s ∧
      s.progress 0 = .stored 201 createdBody ∧
      s.progress 1 =
        .answered (replayReply 4 "key" (sameRequests.request 1) 201 createdBody) :=
    ⟨_, rfl, rfl, rfl⟩
  exact ⟨s, Reaches.of_runUnder hrun, hfirst, hsecond⟩

/-- One handler is called, and the other request gets the replay. -/
theorem executeAndReplay_called_once : ∃ s : IdempotencySystem,
    s.progress 0 = .stored 201 createdBody ∧ ∀ i, (s.progress i).Executed → i = 0 := by
  obtain ⟨s, hrun, hfirst, -⟩ := executeAndReplay_reaches
  have honce := (IdempotencySystem.handler_called_once hrun).1
  exact ⟨s, hfirst, fun i hexecuted => honce i 0 hexecuted (hfirst ▸ trivial)⟩

/-- The body of the replay is another envelope than the stored one. -/
theorem replay_not_exact : ¬ ∀ (requests : KeyedRequests) (sha256 : String → String)
    (ttlSeconds : ℕ) (clock : ℤ) (s : IdempotencySystem),
    Reaches (IdempotencySystem.step · requests sha256 ttlSeconds)
      (IdempotencySystem.Undisturbed · requests ttlSeconds) { clock := clock } s →
    ∀ i reply, s.progress i = .answered reply → reply.statusCode = 409 ∨
      ∃ j statusCode body, s.progress j = .stored statusCode body ∧
        reply.statusCode = statusCode ∧ reply.body = body := by
  intro hexact
  obtain ⟨s, hrun, hfirst, hsecond⟩ := executeAndReplay_reaches
  rcases hexact _ _ _ _ s hrun 1 _ hsecond with hconflict | ⟨j, statusCode, body, hstored, -, hbody⟩
  · exact absurd hconflict (by decide)
  · have hconsistent := IdempotencySystem.consistent_of_reaches hrun
    have hfirst' : j = 0 := hconsistent.single j 0 (hstored ▸ trivial) (hfirst ▸ trivial)
    rw [hfirst', hfirst] at hstored
    cases hstored
    simp [replayReply, idempotentReplayResponse, createdBody] at hbody

end Fluxora.Idempotency
