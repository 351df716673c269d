/-
# Revocations that stick

A token that has been revoked until it expires should be found revoked until then, through
all later revocations and through failures of Redis; and a check that cannot ask Redis
should find it revoked. This is so in a run in which the client is set up while Redis can be
reached, never gives up, and in which no later revocation ends the entry earlier.
-/

import Fluxora.Lib.Fallible
import Fluxora.Redis.RevocationStore

namespace Fluxora.Redis

open Lib.Fallible Lib.Transition

/-! ## The property -/

/-- What the answers given so far should be. -/
structure RevocationSticks (log : List RevocationRecord) : Prop where
  /-- Once a token has been revoked, it is found revoked at every time before it expires. -/
  sticks : log.Pairwise fun earlier later =>
    ∀ (jti : String) (exp : ℚ) (answer : Answer),
      earlier = .revoked jti exp → later = .answered answer →
      answer.jti = jti → answer.time < 1000 * exp → answer.answer = .ok true
  /-- Without Redis every token is found revoked. -/
  failsClosed : ∀ answer : Answer, .answered answer ∈ log → answer.reachable = false →
    answer.answer = .ok true
  /-- With Redis the answer is that of the store. -/
  answersFromStore : ∀ answer : Answer, .answered answer ∈ log → answer.reachable = true →
    answer.answer = .ok answer.stored

/-! ## The condition -/

def IsPositiveInteger (value : ℚ) : Prop := value.den = 1 ∧ 0 < value

/-- The options are valid, and not those of an expired token. -/
def RevocationOptions.Writes (calledAt : ℤ) : RevocationOptions → Prop
  | .default => True
  | .ttl seconds => IsPositiveInteger seconds
  | .object callerTtl exp nowSeconds =>
    IsPositiveInteger exp ∧ (∀ seconds ∈ callerTtl, IsPositiveInteger seconds) ∧
      secondsOf calledAt nowSeconds < exp

/-- The seconds the caller asks for. -/
def RevocationOptions.seconds (calledAt : ℤ) : RevocationOptions → ℚ
  | .default => 7 * 24 * 60 * 60
  | .ttl seconds => seconds
  | .object _ exp nowSeconds => ⌈exp - secondsOf calledAt nowSeconds⌉

/-- The expiry times that an entry has to reach: those of the revocations that have
succeeded, and the one of the call itself. -/
def Due (s : RevocationState) (jti : String) (options : RevocationOptions) (exp : ℚ) : Prop :=
  .revoked jti exp ∈ s.log ∨ ∃ ttl nowSeconds, options = .object ttl exp nowSeconds

/-- The step gives the client no reason to fail for good and takes no time from a
revocation. A check names a token that the store takes. -/
def Harmless (retryOptions : RetryOptions) (s : RevocationState) : RevocationEvent → Prop
  | .redisFails random =>
    s.client = .present .ready → (defaultRetryStrategy retryOptions random 1).isSome
  | .reconnect random =>
    s.reachable = true ∨ ∀ times, s.client = .present (.reconnecting times) →
      (defaultRetryStrategy retryOptions random (times + 1)).isSome
  | .revoke jti options calledAt _ =>
    options.Writes calledAt →
      (s.client = .unset → s.reachable = true) ∧
        ∀ exp : ℚ, Due s jti options exp →
          1000 * exp ≤ s.now + 1000 * options.seconds calledAt
  | .isRevoked jti =>
    (s.client = .unset → s.reachable = true) ∧
      (s.reachable = true → jti ≠ "" ∧ assertRedisKey (buildKey jti) = .ok ())
  | _ => True

/-! ## Times to live -/

theorem assertPositiveInteger_eq_ok {value : ℚ} {field : String}
    (h : assertPositiveInteger value field = .ok ()) : IsPositiveInteger value := by
  unfold assertPositiveInteger at h
  split_ifs at h with hbad
  rw [not_or, not_not, not_le] at hbad
  exact hbad

theorem num_eq_of_isPositiveInteger {value : ℚ} (h : IsPositiveInteger value) :
    (value.num : ℚ) = value :=
  Rat.coe_int_num_of_den_eq_one h.1

theorem lt_of_remaining {exp nowSeconds : ℚ} {ttl : ℤ}
    (h : (if ⌈exp - nowSeconds⌉ ≤ 0 then .ok none else .ok (some ⌈exp - nowSeconds⌉) :
      Except RevocationError (Option ℤ)) = .ok (some ttl)) :
    nowSeconds < exp ∧ ⌈exp - nowSeconds⌉ = ttl := by
  split_ifs at h with hexpired
  · cases h
  · rw [not_le, Int.ceil_pos, sub_pos] at hexpired
    exact ⟨hexpired, Option.some_inj.mp (Except.ok.inj h)⟩

variable {calledAt : ℤ}

theorem resolveRevocationTtl_some {ttl : ℤ} {options : RevocationOptions}
    (h : resolveRevocationTtl calledAt options = .ok (some ttl)) :
    options.Writes calledAt ∧ (ttl : ℚ) = options.seconds calledAt := by
  cases options with
  | default =>
    cases h
    refine ⟨trivial, ?_⟩
    norm_num [RevocationOptions.seconds, defaultRevocationTtlSeconds]
  | ttl =>
    obtain ⟨_, hvalid, h⟩ := bind_eq_ok.mp h
    have hinteger := assertPositiveInteger_eq_ok hvalid
    cases h
    exact ⟨hinteger, num_eq_of_isPositiveInteger hinteger⟩
  | object callerTtl =>
    obtain ⟨_, hvalid, h⟩ := bind_eq_ok.mp h
    have hexp := assertPositiveInteger_eq_ok hvalid
    cases callerTtl with
    | none =>
      obtain ⟨hlater, hceil⟩ := lt_of_remaining h
      refine ⟨⟨hexp, ?_, hlater⟩, congrArg Int.cast hceil.symm⟩
      rintro _ ⟨⟩
    | some =>
      obtain ⟨_, hcaller, h⟩ := bind_eq_ok.mp h
      obtain ⟨hlater, hceil⟩ := lt_of_remaining h
      refine ⟨⟨hexp, ?_, hlater⟩, congrArg Int.cast hceil.symm⟩
      rintro _ ⟨⟩
      exact assertPositiveInteger_eq_ok hcaller

/-! ## What the calls do -/

section

variable {s : RevocationState} {jti : String} {options : RevocationOptions}

/-- The client is not set up yet, or works on its connection. -/
def StoreClient.Usable : StoreClient → Prop
  | .unset | .present .ready | .present (.reconnecting _) => True
  | .rejected _ | .present .ended => False

theorem getRedisClient_of_usable (husable : s.client.Usable)
    (hsetUp : s.client = .unset → s.reachable = true) :
    ∃ status, s.getRedisClient = (.ok status, .present status) ∧
      (StoreClient.present status).Usable := by
  unfold RevocationState.getRedisClient
  cases hclient : s.client with
  | unset =>
    rw [if_pos (hsetUp hclient)]
    exact ⟨.ready, rfl, trivial⟩
  | rejected =>
    rw [hclient] at husable
    exact husable.elim
  | present status =>
    rw [hclient] at husable
    exact ⟨status, rfl, husable⟩

variable {status : ClientStatus}

theorem sendCommand_of_usable (husable : (StoreClient.present status).Usable) :
    s.sendCommand status = .ok () ↔ s.reachable = true := by
  cases status with
  | ended => exact husable.elim
  | ready | reconnecting =>
    unfold RevocationState.sendCommand
    split_ifs with hreachable <;> simp [hreachable]

theorem afterCommand_usable (result : Except String Unit)
    (husable : (StoreClient.present status).Usable) : (afterCommand status result).Usable := by
  cases result with
  | ok => trivial
  | error => exact husable

theorem isRevoked_of_usable (husable : s.client.Usable) (jti : String)
    (hsetUp : s.client = .unset → s.reachable = true) :
    (s.isRevoked jti).2.Usable ∧
      (s.reachable = false → (s.isRevoked jti).1 = .ok true) ∧
      (s.reachable = true → jti ≠ "" → assertRedisKey (buildKey jti) = .ok () →
        (s.isRevoked jti).1 = .ok (s.keyExists (buildKey jti))) := by
  obtain ⟨status, hclient, hstatus⟩ := getRedisClient_of_usable husable hsetUp
  have hsend := sendCommand_of_usable (s := s) hstatus
  unfold RevocationState.isRevoked
  split_ifs with hempty
  · exact ⟨husable, fun _ => rfl, fun _ hjti => absurd hempty hjti⟩
  · rw [hclient]
    dsimp only
    cases hkey : assertRedisKey (buildKey jti) with
    | error =>
      refine ⟨hstatus, fun _ => rfl, fun _ _ hok => ?_⟩
      cases hok
    | ok =>
      dsimp only
      cases hcommand : s.sendCommand status with
      | error =>
        refine ⟨hstatus, fun _ => rfl, fun hreachable => ?_⟩
        rw [hsend.mpr hreachable] at hcommand
        cases hcommand
      | ok =>
        refine ⟨trivial, fun hunreachable => ?_, fun _ _ _ => rfl⟩
        rw [hsend.mp hcommand] at hunreachable
        cases hunreachable

theorem set_usable (husable : (StoreClient.present status).Usable) (key : String) (ex : ℤ) :
    (s.set status key ex).2.Usable := by
  unfold RevocationState.set
  split
  · exact husable
  · exact husable
  · exact afterCommand_usable _ husable

variable {outcome : Except RevocationError RevocationResult}

theorem recordOf_eq_nil (h : ∀ result, outcome = .ok result → result.revoked = false) :
    recordOf jti options outcome = [] := by
  unfold recordOf
  split
  · cases h _ rfl
  · rfl

theorem mem_recordOf {record : RevocationRecord} (h : record ∈ recordOf jti options outcome) :
    ∃ ttl exp nowSeconds, options = .object ttl exp nowSeconds ∧ record = .revoked jti exp := by
  unfold recordOf at h
  split at h
  · exact ⟨_, _, _, rfl, List.mem_singleton.mp h⟩
  · cases h

theorem revoke_cases (husable : s.client.Usable) {replyLost : Bool}
    (hsetUp : options.Writes calledAt → s.client = .unset → s.reachable = true) :
    (∃ (result : Except RevocationError RevocationResult) (client : StoreClient),
      s.revoke jti options calledAt replyLost = (result, { s with client }) ∧
        client.Usable ∧ recordOf jti options result = []) ∨
    (∃ (result : Except RevocationError RevocationResult) (client : StoreClient) (ttl : ℤ),
      s.revoke jti options calledAt replyLost =
          (result,
            { s with
              client
              entries := Function.update s.entries (buildKey jti)
                (some (s.now + 1000 * ttl)) }) ∧
        client.Usable ∧ options.Writes calledAt ∧ (ttl : ℚ) = options.seconds calledAt) := by
  unfold RevocationState.revoke
  by_cases hempty : jti = ""
  · rw [if_pos hempty]
    exact .inl ⟨_, s.client, rfl, husable, recordOf_eq_nil (by simp)⟩
  · rw [if_neg hempty]
    cases httl : resolveRevocationTtl calledAt options with
    | error => exact .inl ⟨_, s.client, rfl, husable, recordOf_eq_nil (by simp)⟩
    | ok resolved =>
      cases resolved with
      | none => exact .inl ⟨_, s.client, rfl, husable, recordOf_eq_nil (by simp)⟩
      | some ttl =>
        obtain ⟨hwrites, hseconds⟩ := resolveRevocationTtl_some httl
        obtain ⟨status, hclient, hstatus⟩ :=
          getRedisClient_of_usable husable (hsetUp hwrites)
        rw [hclient]
        dsimp only
        have hset := set_usable (s := s) hstatus (buildKey jti) ttl
        split
        · next message client herror =>
            rw [herror] at hset
            exact .inl ⟨_, client, rfl, hset, recordOf_eq_nil (by simp)⟩
        · next client hok =>
            rw [hok] at hset
            cases replyLost with
            | false | true => exact .inr ⟨_, client, ttl, rfl, hset, hwrites, hseconds⟩

end

/-! ## The invariant -/

/-- A usable client, and entries that last as long as the revocations that have
succeeded. -/
structure Sound (s : RevocationState) : Prop where
  client : s.client.Usable
  entries : ∀ (jti : String) (exp : ℚ), .revoked jti exp ∈ s.log →
    ∃ expiry, s.entries (buildKey jti) = some expiry ∧ 1000 * exp ≤ expiry
  sticks : RevocationSticks s.log

theorem buildKey_injective : Function.Injective buildKey := by
  intro jti other hkeys
  exact (String.append_right_inj _).mp hkeys

section

variable {retryOptions : RetryOptions} {s s' : RevocationState}

theorem RevocationSticks.append_revoked {log : List RevocationRecord} (h : RevocationSticks log)
    {records : List RevocationRecord}
    (hrecords : ∀ record ∈ records, ∃ jti exp, record = .revoked jti exp) :
    RevocationSticks (log ++ records) := by
  have hold : ∀ answer : Answer, .answered answer ∈ log ++ records → .answered answer ∈ log := by
    intro answer hanswer
    rcases List.mem_append.mp hanswer with hold | hnew
    · exact hold
    · obtain ⟨jti, exp, hrevoked⟩ := hrecords _ hnew
      cases hrevoked
  refine ⟨?_, fun answer hanswer => h.failsClosed answer (hold answer hanswer),
    fun answer hanswer => h.answersFromStore answer (hold answer hanswer)⟩
  have hlater : ∀ (earlier : RevocationRecord), ∀ later ∈ records,
      ∀ (jti : String) (exp : ℚ) (answer : Answer), earlier = .revoked jti exp →
        later = .answered answer → answer.jti = jti → answer.time < 1000 * exp →
          answer.answer = .ok true := by
    intro earlier later hlater jti exp answer _ hanswered
    obtain ⟨jti', exp', hrevoked⟩ := hrecords later hlater
    rw [hanswered] at hrevoked
    cases hrevoked
  refine List.pairwise_append.mpr ⟨h.sticks, ?_, fun earlier _ => hlater earlier⟩
  exact List.pairwise_of_forall_mem_list fun earlier _ later hmem => hlater earlier later hmem

theorem RevocationSticks.append_answered {log : List RevocationRecord} (h : RevocationSticks log)
    {answer : Answer}
    (hrevoked : ∀ exp : ℚ, .revoked answer.jti exp ∈ log → answer.time < 1000 * exp →
      answer.answer = .ok true)
    (hclosed : answer.reachable = false → answer.answer = .ok true)
    (hstore : answer.reachable = true → answer.answer = .ok answer.stored) :
    RevocationSticks (log ++ [.answered answer]) := by
  refine ⟨?_, ?_, ?_⟩
  · refine List.pairwise_append.mpr ⟨h.sticks, List.pairwise_singleton _ _, ?_⟩
    rintro earlier hearlier later hlater jti exp other rfl rfl rfl htime
    cases List.mem_singleton.mp hlater
    exact hrevoked exp hearlier htime
  · intro other hother
    rcases List.mem_append.mp hother with hold | hnew
    · exact h.failsClosed other hold
    · cases List.mem_singleton.mp hnew
      exact hclosed
  · intro other hother
    rcases List.mem_append.mp hother with hold | hnew
    · exact h.answersFromStore other hold
    · cases List.mem_singleton.mp hnew
      exact hstore

theorem Sound.of_client (hsound : Sound s) (hentries : s'.entries = s.entries)
    (hlog : s'.log = s.log) (hclient : s'.client.Usable) : Sound s' := by
  refine ⟨hclient, ?_, ?_⟩
  · rw [hlog, hentries]
    exact hsound.entries
  · rw [hlog]
    exact hsound.sticks

theorem retry_usable {random : ℚ} {times : ℕ}
    (h : (defaultRetryStrategy retryOptions random times).isSome) :
    (retry retryOptions random times).Usable := by
  rw [retry, if_pos h]
  trivial

theorem Sound.revoke (hsound : Sound s) {jti : String} {options : RevocationOptions}
    {replyLost : Bool}
    (hharmless : Harmless retryOptions s (.revoke jti options calledAt replyLost))
    {result : Except RevocationError RevocationResult} {next : RevocationState}
    (hrevoke : s.revoke jti options calledAt replyLost = (result, next)) :
    Sound { next with log := s.log ++ recordOf jti options result } := by
  have hsticks : RevocationSticks (s.log ++ recordOf jti options result) := by
    refine hsound.sticks.append_revoked fun record hrecord => ?_
    obtain ⟨_, exp, _, _, hrevoked⟩ := mem_recordOf hrecord
    exact ⟨jti, exp, hrevoked⟩
  rcases revoke_cases hsound.client fun hwrites => (hharmless hwrites).1 with
    ⟨_, client, houtcome, hclient, hnone⟩ | ⟨_, client, ttl, houtcome, hclient, hwrites, hseconds⟩
  · cases hrevoke.symm.trans houtcome
    refine ⟨hclient, ?_, hsticks⟩
    rw [hnone, List.append_nil]
    exact hsound.entries
  · cases hrevoke.symm.trans houtcome
    refine ⟨hclient, fun other exp hrevoked => ?_, hsticks⟩
    by_cases hother : other = jti
    · -- The entry is written anew, and has been asked to last.
      subst hother
      have hdue : Due s other options exp := by
        rcases List.mem_append.mp hrevoked with hold | hnew
        · exact .inl hold
        · obtain ⟨callerTtl, exp', nowSeconds, rfl, hrecord⟩ := mem_recordOf hnew
          cases hrecord
          exact .inr ⟨callerTtl, nowSeconds, rfl⟩
      refine ⟨s.now + 1000 * ttl, Function.update_self _ _ _, ?_⟩
      push_cast
      rw [hseconds]
      exact (hharmless hwrites).2 exp hdue
    · have hold : .revoked other exp ∈ s.log := by
        rcases List.mem_append.mp hrevoked with hold | hnew
        · exact hold
        · obtain ⟨_, _, _, _, hrecord⟩ := mem_recordOf hnew
          cases hrecord
          exact absurd rfl hother
      have hkey : buildKey other ≠ buildKey jti := fun hkeys => hother (buildKey_injective hkeys)
      obtain ⟨expiry, hentry, hlasts⟩ := hsound.entries other exp hold
      exact ⟨expiry, (Function.update_of_ne hkey _ _).trans hentry, hlasts⟩

theorem Sound.isRevoked (hsound : Sound s) {jti : String}
    (hharmless : Harmless retryOptions s (.isRevoked jti)) :
    Sound
      { s with
        client := (s.isRevoked jti).2
        log := s.log ++ [.answered ⟨jti, s.now, s.reachable, s.keyExists (buildKey jti),
          (s.isRevoked jti).1⟩] } := by
  obtain ⟨hclient, hclosed, hstore⟩ := isRevoked_of_usable hsound.client jti hharmless.1
  have hanswer : s.reachable = true →
      (s.isRevoked jti).1 = .ok (s.keyExists (buildKey jti)) := by
    intro hreachable
    obtain ⟨hjti, hkey⟩ := hharmless.2 hreachable
    exact hstore hreachable hjti hkey
  refine ⟨hclient, ?_, hsound.sticks.append_answered ?_ hclosed hanswer⟩
  · intro other exp hrevoked
    rcases List.mem_append.mp hrevoked with hold | hnew
    · exact hsound.entries other exp hold
    · cases List.mem_singleton.mp hnew
  · intro exp hrevoked htime
    obtain ⟨expiry, hentry, hlasts⟩ := hsound.entries jti exp hrevoked
    have hstored : s.keyExists (buildKey jti) = true := by
      rw [RevocationState.keyExists, hentry, Option.any_some, decide_eq_true_eq]
      exact_mod_cast (htime.trans_le hlasts).le
    cases hreachable : s.reachable with
    | false => exact hclosed hreachable
    | true => rw [hanswer hreachable, hstored]

theorem Sound.step (hsound : Sound s) {event : RevocationEvent}
    (hharmless : Harmless retryOptions s event)
    (hstep : revocationStep retryOptions s event = some s') : Sound s' := by
  cases event with
  | tick =>
    cases hstep
    exact hsound.of_client rfl rfl hsound.client
  | redisFails =>
    cases hstep
    refine hsound.of_client rfl rfl ?_
    dsimp only
    split_ifs with hready
    · exact retry_usable (hharmless hready)
    · exact hsound.client
  | redisRecovers =>
    cases hstep
    exact hsound.of_client rfl rfl hsound.client
  | reconnect =>
    simp only [revocationStep] at hstep
    split at hstep
    · next times hclient =>
        cases hstep
        refine hsound.of_client rfl rfl ?_
        dsimp only
        split_ifs with hreachable
        · trivial
        · exact retry_usable (hharmless.resolve_left hreachable times hclient)
    · cases hstep
  | revoke jti options calledAt replyLost =>
    simp only [revocationStep] at hstep
    split_ifs at hstep
    cases hrevoke : s.revoke jti options calledAt replyLost with
    | mk =>
      rw [hrevoke] at hstep
      cases hstep
      exact hsound.revoke hharmless hrevoke
  | isRevoked =>
    cases hstep
    exact hsound.isRevoked hharmless
  | closeRevocationStore =>
    simp only [revocationStep] at hstep
    split at hstep
    · cases hstep
      refine hsound.of_client rfl rfl ?_
      dsimp only
      split_ifs
      · trivial
      · exact hsound.client
    · cases hstep
      exact hsound

theorem Sound.initial (now : ℤ) (reachable : Bool) : Sound (.initial now reachable) :=
  ⟨trivial, fun _ _ hrevoked => (List.not_mem_nil hrevoked).elim,
    ⟨.nil, fun _ hanswer => (List.not_mem_nil hanswer).elim,
      fun _ hanswer => (List.not_mem_nil hanswer).elim⟩⟩

end

/-- Revocations stick in a run whose steps are harmless. -/
theorem revocationSticks_of_reaches {retryOptions : RetryOptions} {now : ℤ} {reachable : Bool}
    {s : RevocationState}
    (hrun : Reaches (revocationStep retryOptions) (Harmless retryOptions)
      (.initial now reachable) s) : RevocationSticks s.log :=
  (hrun.invariant (fun _ _ _ hsound hharmless hstep => hsound.step hharmless hstep)
    (Sound.initial now reachable)).sticks

/-! ## Runs with an outage -/

def defaultRetries : RetryOptions where
  baseDelayMs := 50
  maxDelayMs := 2000
  maxAttempts := 10

/-- The token is revoked until a time of its own. -/
def revokeUntil (exp : ℚ) : RevocationEvent := .revoke "jti-1" (.object none exp none) 0 false

/-- The log at the end of a run that starts with Redis in reach. -/
def logOf (labels : List RevocationEvent) : Option (List RevocationRecord) :=
  (run (revocationStep defaultRetries) (.initial 0 true) labels).map RevocationState.log

theorem harmless_revokeUntil : Harmless defaultRetries (.initial 0 true) (revokeUntil 3600) := by
  refine fun _ => ⟨fun _ => rfl, fun exp hdue => ?_⟩
  rcases hdue with hlogged | ⟨ttl, nowSeconds, hoptions⟩
  · cases hlogged
  · cases hoptions
    norm_num [RevocationOptions.seconds, secondsOf, RevocationState.initial]

/-- The token has been revoked. -/
def onceRevoked : RevocationState where
  now := 0
  reachable := true
  entries := Function.update (fun _ => none) (buildKey "jti-1") (some 3600000)
  client := .present .ready
  log := [.revoked "jti-1" 3600]

theorem step_revokeUntil :
    revocationStep defaultRetries (.initial 0 true) (revokeUntil 3600) = some onceRevoked := by
  have hresolve : resolveRevocationTtl 0 (.object none 3600 none) = .ok (some 3600) := by
    decide +kernel
  have hset : (RevocationState.initial 0 true).set .ready (buildKey "jti-1") 3600 =
      (.ok (), .present .ready) := by
    decide +kernel
  have hrevoke : (RevocationState.initial 0 true).revoke "jti-1" (.object none 3600 none) 0
      false = (.ok ⟨true, 3600⟩, { onceRevoked with log := [] }) := by
    rw [RevocationState.revoke, if_neg (by decide), hresolve]
    dsimp only [RevocationState.getRedisClient, RevocationState.initial] at hset ⊢
    rw [if_pos rfl]
    dsimp only
    rw [hset]
    rfl
  rw [revokeUntil, revocationStep, if_neg (by decide), hrevoke]
  rfl

/-- Redis cannot be reached any more. -/
def revokedInOutage : RevocationState :=
  { onceRevoked with reachable := false, client := .present (.reconnecting 1) }

theorem step_redisFails :
    revocationStep defaultRetries onceRevoked (.redisFails 0) = some revokedInOutage := by
  have hretry : retry defaultRetries 0 1 = .present (.reconnecting 1) := by decide +kernel
  rw [revocationStep, hretry]
  rfl

theorem step_isRevoked :
    revocationStep defaultRetries revokedInOutage (.isRevoked "jti-1") =
      some
        { revokedInOutage with
          log := [.revoked "jti-1" 3600, .answered ⟨"jti-1", 0, false, true, .ok true⟩] } := by
  have hanswer : revokedInOutage.isRevoked "jti-1" =
      (.ok true, .present (.reconnecting 1)) := by
    decide +kernel
  have hstored : revokedInOutage.keyExists (buildKey "jti-1") = true := by decide +kernel
  rw [revocationStep, hanswer, hstored]
  rfl

/-- The token is revoked, and checked while Redis cannot be reached. -/
theorem revocationSticks_outage :
    RevocationSticks [.revoked "jti-1" 3600, .answered ⟨"jti-1", 0, false, true, .ok true⟩] := by
  have hfails : Harmless defaultRetries onceRevoked (.redisFails 0) :=
    fun _ => by decide +kernel
  have hchecks : Harmless defaultRetries revokedInOutage (.isRevoked "jti-1") := by
    apply And.intro
    · intro hunset
      cases hunset
    · intro hreachable
      cases hreachable
  exact revocationSticks_of_reaches ((((Reaches.refl _).tail harmless_revokeUntil
    step_revokeUntil).tail hfails step_redisFails).tail hchecks step_isRevoked)

/-- A second revocation with a time to live of one second ends the first one. The first
check fails if Redis cannot be reached, and so do those after it. -/
theorem revocationSticks_fails_secondRevoke :
    (∃ log, logOf [revokeUntil 3600, .revoke "jti-1" (.ttl 1) 0 false, .tick 2000,
        .isRevoked "jti-1"] = some log ∧ ¬RevocationSticks log) ∧
      ∃ log, logOf [.redisFails 0, .isRevoked "jti-1", .redisRecovers, .isRevoked "jti-1"] =
        some log ∧ ¬RevocationSticks log := by
  apply And.intro
  · refine ⟨[.revoked "jti-1" 3600, .answered ⟨"jti-1", 2000, true, false, .ok false⟩],
      by decide +kernel, fun hsticks => ?_⟩
    have hanswer := List.rel_of_pairwise_cons hsticks.sticks (List.mem_singleton_self _)
      "jti-1" 3600 _ rfl rfl rfl (by norm_num)
    cases hanswer
  · refine ⟨[.answered ⟨"jti-1", 0, false, false, .error (.setUp "Connection is closed.")⟩,
      .answered ⟨"jti-1", 0, true, false, .error (.setUp "Connection is closed.")⟩],
      by decide +kernel, fun hsticks => ?_⟩
    cases hsticks.failsClosed _ List.mem_cons_self rfl

end Fluxora.Redis
