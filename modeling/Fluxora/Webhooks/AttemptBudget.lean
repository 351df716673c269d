/-
# The attempts of one delivery

The service makes a first attempt when a delivery is queued, and passes over the deliveries that
are due make the others. A pass reads its list before it attempts the first of them, and passes
may overlap. An attempt has its number from the records that the delivery holds when its request
is sent, and its own record is added when the request has ended.

The number of requests is counted beside. It is the number of records as long as the delivery is
attempted at once when it is queued and the passes that deal with it do not overlap.
-/

import Fluxora.Lib.Transition
import Fluxora.Webhooks.Service

namespace Fluxora.Webhooks

open Lib.Transition

universe u

/-! ## The service at one delivery -/

/-- An attempt whose request is under way, or whose outcome the breaker is told. -/
inductive AttemptProgress
  | requesting (snapshot : WebhookDelivery)
  | recording (attempt : WebhookDeliveryAttempt) (attemptNumber index : ℕ)

structure ServiceWorld where
  delivery : WebhookDelivery
  queue : List DeadLetterQueueItem
  /-- The gate in front of the first attempt has answered. -/
  queued : Bool := false
  /-- Passes that have found the delivery and have not come to it yet. -/
  found : ℕ := 0
  underWay : List AttemptProgress := []
  /-- The requests that have been sent. -/
  sent : ℕ := 0

inductive ServiceStep
  | queueDeferred (now retryAt : ℤ)
  | queueAllowed
  /-- A pass reads its list. -/
  | findDue (now : ℤ)
  | retryDeferred (retryAt : ℤ)
  | retryAllowed
  /-- The request of an attempt ends. -/
  | respond (i : ℕ) (exchange : HttpExchange) (now : ℤ) (random : ℚ)
  /-- The breaker has answered with its count of failures. -/
  | settle (i consecutiveFailures : ℕ) (now : ℤ) (random : ℚ)

/-- Pending, with a time for the next retry that has come. -/
def WebhookDelivery.isDue (delivery : WebhookDelivery) (now : ℤ) : Bool :=
  delivery.status = .pending &&
    (delivery.attempts.getLast?.bind (·.nextRetryAt)).any fun retryAt =>
      retryAt ≠ 0 && retryAt ≤ now

/-- What an attempt is made with at a time. -/
def AttemptEnv.at (env : AttemptEnv) (now : ℤ) (random : ℚ) : AttemptEnv :=
  { env with ended := now, random := random }

namespace ServiceWorld

variable (env : AttemptEnv) (w : ServiceWorld)

/-- The request of a new attempt is sent. -/
def sendRequest : ServiceWorld :=
  { w with underWay := w.underWay ++ [.requesting w.delivery], sent := w.sent + 1 }

/-- The outcome of a request in the record of a delivery, which may have changed since. -/
def record (exchange : HttpExchange) (snapshot : WebhookDelivery) :
    WebhookDeliveryAttempt × WebhookDelivery :=
  let run := runDeliveryAttempt env.runtime env.policy env.maxResponseBytes exchange env.ended
    env.random
  let attempt := (run snapshot).1
  (attempt, { w.delivery with
    status := (run w.delivery).2.status, attempts := w.delivery.attempts ++ [attempt] })

def step : ServiceStep → Option ServiceWorld
  | .queueDeferred now retryAt =>
    if w.queued then none
    else some { w with queued := true, delivery := deferQueued now retryAt w.delivery }
  | .queueAllowed => if w.queued then none else some (sendRequest { w with queued := true })
  | .findDue now =>
    if w.queued && w.delivery.isDue now then some { w with found := w.found + 1 } else none
  | .retryDeferred retryAt =>
    match w.found with
    | 0 => none
    | others + 1 =>
      some { w with found := others, delivery := deferRetry retryAt w.delivery }
  | .retryAllowed =>
    match w.found with
    | 0 => none
    | others + 1 => some (sendRequest { w with found := others })
  | .respond i exchange now random =>
    match w.underWay[i]? with
    | some (.requesting snapshot) =>
      let recorded := w.record (env.at now random) exchange snapshot
      some { w with
        delivery := recorded.2
        underWay := w.underWay.set i (.recording recorded.1 (snapshot.attempts.length + 1)
          w.delivery.attempts.length) }
    | _ => none
  | .settle i consecutiveFailures now random =>
    match w.underWay[i]? with
    | some (.recording attempt attemptNumber index) =>
      let settled := settleDelivery (env.at now random) attempt attemptNumber
        consecutiveFailures index w.delivery w.queue
      some { w with
        delivery := settled.1, queue := settled.2, underWay := w.underWay.eraseIdx i }
    | _ => none

end ServiceWorld

/-! ## The budget and its condition -/

/-- How often a delivery is in the dead-letter queue. -/
def filed (deliveryId : String) (queue : List DeadLetterQueueItem) : ℕ :=
  queue.countP (·.deliveryId = deliveryId)

/-- A delivery that is given up because its retries are exhausted has had as many requests as the
policy allows, and is in the dead-letter queue once; being put off costs nothing. -/
def BudgetKept (policy : EnhancedRetryPolicy) (w w' : ServiceWorld) : ServiceStep → Prop
  | .queueDeferred _ _ => w'.delivery.attempts.length = w.delivery.attempts.length
  | .retryDeferred _ => w'.delivery.attempts.length = w.delivery.attempts.length
  | .settle i _ _ _ => ∀ attempt attemptNumber index,
      w.underWay[i]? = some (.recording attempt attemptNumber index) →
        policy.maxAttempts ≤ attemptNumber → w'.delivery.status = .permanentFailure →
          (w.sent : ℤ) = policy.maxAttempts ∧ filed w'.delivery.deliveryId w'.queue = 1
  | _ => True

/-- The first attempt is not put off, and a pass finds the delivery only when no other one deals
with it. -/
def InTurn (w : ServiceWorld) : ServiceStep → Prop
  | .queueDeferred _ _ => False
  | .findDue _ => w.found = 0 ∧ w.underWay = []
  | _ => True

instance (w : ServiceWorld) : DecidablePred (InTurn w) := fun label => by
  unfold InTurn
  split
  · infer_instance
  · cases hidle : w.underWay with
    | nil => exact decidable_of_iff (w.found = 0) ⟨fun h => ⟨h, rfl⟩, And.left⟩
    | cons => exact .isFalse fun h => nomatch h.2
  · infer_instance

/-- A delivery as it is queued. -/
def ServiceWorld.start (delivery : WebhookDelivery) (queue : List DeadLetterQueueItem) :
    ServiceWorld where
  delivery := { delivery with status := .pending, attempts := [] }
  queue := queue

/-! ## Requests are counted -/

/-- The requests and the records while the attempts of a delivery follow each other. -/
inductive Counted (limit : ℤ) (w : ServiceWorld) : Prop
  | new (hqueued : w.queued = false) (hfound : w.found = 0) (hidle : w.underWay = [])
      (hrecords : w.delivery.attempts.length = 0) (hsent : w.sent = 0)
  | between (hqueued : w.queued = true) (hidle : w.underWay = [])
      (hsent : w.sent = w.delivery.attempts.length)
      (hmore : w.delivery.status = .pending → (w.sent : ℤ) < limit)
      (hfound : w.found = 0 ∨ w.found = 1 ∧ w.delivery.status = .pending)
  | requesting (hqueued : w.queued = true) (hfound : w.found = 0) (snapshot : WebhookDelivery)
      (hunderWay : w.underWay = [.requesting snapshot])
      (hsnapshot : snapshot.attempts.length = w.delivery.attempts.length)
      (hsent : w.sent = w.delivery.attempts.length + 1) (hlimit : (w.sent : ℤ) ≤ limit)
  | recording (hqueued : w.queued = true) (hfound : w.found = 0)
      (attempt : WebhookDeliveryAttempt) (index : ℕ)
      (hunderWay : w.underWay = [.recording attempt w.sent index])
      (hsent : w.sent = w.delivery.attempts.length) (hlimit : (w.sent : ℤ) ≤ limit)

variable {limit : ℤ} {i : ℕ} {w' : ServiceWorld} {label : ServiceStep}

theorem Counted.sendRequest {w : ServiceWorld} (hqueued : w.queued = true) (hfound : w.found = 0)
    (hidle : w.underWay = []) (hsent : w.sent = w.delivery.attempts.length)
    (hmore : (w.sent : ℤ) < limit) : Counted limit w.sendRequest := by
  refine .requesting hqueued hfound w.delivery ?_ rfl ?_ ?_
  · rw [ServiceWorld.sendRequest, hidle]
    rfl
  · rw [ServiceWorld.sendRequest, hsent]
  · rw [ServiceWorld.sendRequest]
    dsimp only
    omega

theorem eq_of_getElem? {progress found : AttemptProgress}
    (h : [progress][i]? = some found) : i = 0 ∧ progress = found := by
  cases i with
  | zero => exact ⟨rfl, Option.some.inj h⟩
  | succ => cases h

theorem length_deferRetry (retryAt : ℤ) (delivery : WebhookDelivery) :
    (deferRetry retryAt delivery).attempts.length = delivery.attempts.length :=
  List.length_modify _ _ _

/-- What becomes of a delivery leaves the number of its records. It is pending only when it may be
tried again, and in the dead-letter queue when it is given up. -/
theorem settleDelivery_spec (env : AttemptEnv) (attempt : WebhookDeliveryAttempt)
    (attemptNumber consecutiveFailures index : ℕ) (delivery : WebhookDelivery)
    (queue : List DeadLetterQueueItem) :
    let settled := settleDelivery env attempt attemptNumber consecutiveFailures index delivery queue
    settled.1.attempts.length = delivery.attempts.length ∧
      settled.1.deliveryId = delivery.deliveryId ∧
      (settled.1.status = .pending → (attemptNumber : ℤ) < env.policy.maxAttempts) ∧
      (settled.1.status = .permanentFailure ∧ (∃ reason,
          settled.2 = enqueuePermanentFailureToDlq settled.1 reason .other queue) ∨
        settled.1.status ≠ .permanentFailure ∧ settled.2 = queue) := by
  rw [settleDelivery]
  dsimp only
  split_ifs with hdelivered hretry
  · have hother : ∀ status, status ≠ .delivered → delivery.status ≠ status := fun status hne h =>
      hne (h.symm.trans hdelivered)
    exact ⟨rfl, rfl, fun h => absurd h (hother _ nofun), .inr ⟨hother _ nofun, rfl⟩⟩
  · refine ⟨List.length_modify _ _ _, rfl, fun _ => ?_, .inr ⟨nofun, rfl⟩⟩
    rw [shouldRetry] at hretry
    split_ifs at hretry with hspent hthreshold
    exact not_le.mp hspent
  · exact ⟨rfl, rfl, nofun, .inl ⟨rfl, _, rfl⟩⟩

theorem Counted.of_found {w : ServiceWorld} (h : Counted limit w) {others : ℕ}
    (hfound : w.found = others + 1) : others = 0 ∧ w.queued = true ∧ w.underWay = [] ∧
      w.sent = w.delivery.attempts.length ∧ w.delivery.status = .pending ∧
        (w.sent : ℤ) < limit := by
  cases h with
  | new => omega
  | between hqueued hidle hsent hmore hone =>
    rcases hone with hnone | ⟨hone, hpending⟩
    · omega
    · exact ⟨by omega, hqueued, hidle, hsent, hpending, hmore hpending⟩
  | requesting | recording => omega

theorem Counted.of_requesting {w : ServiceWorld} (h : Counted limit w) {snapshot : WebhookDelivery}
    (hi : w.underWay[i]? = some (.requesting snapshot)) :
    i = 0 ∧ w.queued = true ∧ w.found = 0 ∧ w.underWay = [.requesting snapshot] ∧
      snapshot.attempts.length = w.delivery.attempts.length ∧
      w.sent = w.delivery.attempts.length + 1 ∧ (w.sent : ℤ) ≤ limit := by
  cases h with
  | new _ _ hidle | between _ hidle =>
    rw [hidle] at hi
    cases hi
  | requesting hqueued hnone _ hunderWay hsnapshot hsent hlimit =>
    rw [hunderWay] at hi
    obtain ⟨rfl, hsame⟩ := eq_of_getElem? hi
    cases hsame
    exact ⟨rfl, hqueued, hnone, hunderWay, hsnapshot, hsent, hlimit⟩
  | recording _ _ _ _ hunderWay =>
    rw [hunderWay] at hi
    cases (eq_of_getElem? hi).2

theorem Counted.of_recording {w : ServiceWorld} (h : Counted limit w)
    {attempt : WebhookDeliveryAttempt} {attemptNumber index : ℕ}
    (hi : w.underWay[i]? = some (.recording attempt attemptNumber index)) :
    i = 0 ∧ w.queued = true ∧ w.found = 0 ∧
      w.underWay = [.recording attempt attemptNumber index] ∧ attemptNumber = w.sent ∧
      w.sent = w.delivery.attempts.length ∧ (w.sent : ℤ) ≤ limit := by
  cases h with
  | new _ _ hidle | between _ hidle =>
    rw [hidle] at hi
    cases hi
  | requesting _ _ _ hunderWay =>
    rw [hunderWay] at hi
    cases (eq_of_getElem? hi).2
  | recording hqueued hnone _ _ hunderWay hsent hlimit =>
    rw [hunderWay] at hi
    obtain ⟨rfl, hsame⟩ := eq_of_getElem? hi
    cases hsame
    exact ⟨rfl, hqueued, hnone, hunderWay, rfl, hsent, hlimit⟩

theorem Counted.step {env : AttemptEnv} {w : ServiceWorld} (h : Counted env.policy.maxAttempts w)
    (hpolicy : 1 ≤ env.policy.maxAttempts) (hturn : InTurn w label)
    (hstep : w.step env label = some w') : Counted env.policy.maxAttempts w' := by
  cases label with
  | queueDeferred => exact hturn.elim
  | queueAllowed =>
    rw [ServiceWorld.step] at hstep
    split_ifs at hstep with hqueued
    cases hstep
    cases h with
    | new _ hfound hidle hrecords hsent =>
      refine sendRequest rfl hfound hidle (hsent.trans hrecords.symm) ?_
      dsimp only
      omega
    | between h | requesting h | recording h => exact absurd h hqueued
  | findDue =>
    rw [ServiceWorld.step] at hstep
    split_ifs at hstep with hdue
    cases hstep
    obtain ⟨hqueued, hdue⟩ := Bool.and_eq_true_iff.mp hdue
    have hpending := of_decide_eq_true (Bool.and_eq_true_iff.mp hdue).1
    obtain ⟨hnone, hfree⟩ := hturn
    cases h with
    | new h =>
      rw [h] at hqueued
      cases hqueued
    | between _ hidle hsent hmore =>
      exact .between hqueued hidle hsent hmore (.inr ⟨congrArg (· + 1) hnone, hpending⟩)
    | requesting _ _ _ hunderWay | recording _ _ _ _ hunderWay =>
      rw [hfree] at hunderWay
      cases hunderWay
  | retryDeferred retryAt =>
    rw [ServiceWorld.step] at hstep
    split at hstep
    · cases hstep
    · next others hfound =>
        cases hstep
        obtain ⟨hnone, hqueued, hidle, hsent, -, hmore⟩ := h.of_found hfound
        exact .between hqueued hidle (hsent.trans (length_deferRetry retryAt w.delivery).symm)
          (fun _ => hmore) (.inl hnone)
  | retryAllowed =>
    rw [ServiceWorld.step] at hstep
    split at hstep
    · cases hstep
    · next others hfound =>
        cases hstep
        obtain ⟨hnone, hqueued, hidle, hsent, -, hmore⟩ := h.of_found hfound
        exact sendRequest hqueued hnone hidle hsent hmore
  | respond _ exchange now random =>
    rw [ServiceWorld.step] at hstep
    split at hstep
    · next snapshot hi =>
        cases hstep
        obtain ⟨rfl, hqueued, hnone, hunderWay, hsnapshot, hsent, hlimit⟩ := h.of_requesting hi
        refine .recording hqueued hnone (w.record (env.at now random) exchange snapshot).1
          w.delivery.attempts.length ?_ ?_ hlimit
        · dsimp only
          rw [hunderWay, hsnapshot, hsent]
          rfl
        · rw [ServiceWorld.record]
          dsimp only
          rw [List.length_append, hsent]
          rfl
    · cases hstep
  | settle _ consecutiveFailures now random =>
    rw [ServiceWorld.step] at hstep
    split at hstep
    · next attempt attemptNumber index hi =>
        cases hstep
        obtain ⟨rfl, hqueued, hnone, hunderWay, rfl, hsent, -⟩ := h.of_recording hi
        obtain ⟨hlength, -, hmore, -⟩ := settleDelivery_spec (env.at now random) attempt
          w.sent consecutiveFailures index w.delivery w.queue
        refine .between hqueued ?_ (hsent.trans hlength.symm) hmore (.inl hnone)
        dsimp only
        rw [hunderWay]
        rfl
    · cases hstep

/-! ## Filed once -/

theorem filed_enqueue {delivery : WebhookDelivery} {queue : List DeadLetterQueueItem}
    (hfiled : filed delivery.deliveryId queue ≤ 1) (reason : String) (reasonCode : DLQReasonCode) :
    filed delivery.deliveryId
      (enqueuePermanentFailureToDlq delivery reason reasonCode queue) = 1 := by
  rw [enqueuePermanentFailureToDlq]
  split_ifs with hqueued
  · have hpos : 0 < filed delivery.deliveryId queue :=
      List.countP_pos_iff.mpr (List.any_eq_true.mp hqueued)
    omega
  · have hnone : filed delivery.deliveryId queue = 0 :=
      List.countP_eq_zero.mpr fun item hitem hsame =>
        hqueued (List.any_eq_true.mpr ⟨item, hitem, hsame⟩)
    rw [filed] at hnone ⊢
    rw [List.countP_append, hnone, Nat.zero_add, List.countP_singleton]
    exact if_pos (decide_eq_true rfl)

theorem filed_step {env : AttemptEnv} {w : ServiceWorld}
    (h : filed w.delivery.deliveryId w.queue ≤ 1) (hstep : w.step env label = some w') :
    filed w'.delivery.deliveryId w'.queue ≤ 1 := by
  cases label with
  | settle _ consecutiveFailures now random =>
    rw [ServiceWorld.step] at hstep
    split at hstep
    · next attempt attemptNumber index hfound =>
        cases hstep
        obtain ⟨-, hid, -, hqueue⟩ := settleDelivery_spec (env.at now random) attempt
          attemptNumber consecutiveFailures index w.delivery w.queue
        dsimp only
        rcases hqueue with ⟨-, reason, hqueue⟩ | ⟨-, hqueue⟩
        · rw [hqueue]
          exact (filed_enqueue (by rw [hid]; exact h) reason .other).le
        · rw [hqueue, hid]
          exact h
    · cases hstep
  | queueDeferred | queueAllowed | findDue =>
    rw [ServiceWorld.step] at hstep
    split_ifs at hstep
    cases hstep
    exact h
  | retryDeferred | retryAllowed | respond =>
    rw [ServiceWorld.step] at hstep
    split at hstep <;> cases hstep
    exact h

/-! ## Runs -/

theorem Counted.budgetKept {env : AttemptEnv} {w : ServiceWorld}
    (h : Counted env.policy.maxAttempts w) (hfiled : filed w.delivery.deliveryId w.queue ≤ 1)
    (hturn : InTurn w label) (hstep : w.step env label = some w') :
    BudgetKept env.policy w w' label := by
  cases label with
  | queueDeferred => exact hturn.elim
  | queueAllowed | findDue => trivial
  | retryDeferred retryAt =>
    rw [ServiceWorld.step] at hstep
    split at hstep <;> cases hstep
    exact length_deferRetry retryAt w.delivery
  | retryAllowed | respond => trivial
  | settle _ consecutiveFailures now random =>
    intro attempt attemptNumber index hfound hspent hgivenUp
    rw [ServiceWorld.step, hfound] at hstep
    cases hstep
    obtain ⟨-, hid, -, hqueue⟩ := settleDelivery_spec (env.at now random) attempt
      attemptNumber consecutiveFailures index w.delivery w.queue
    apply And.intro
    · obtain ⟨-, -, -, -, hnumber, -, hlimit⟩ := h.of_recording hfound
      rw [hnumber] at hspent
      exact le_antisymm hlimit hspent
    · rcases hqueue with ⟨-, reason, hqueue⟩ | ⟨hother, -⟩
      · dsimp only at hqueue ⊢
        rw [hqueue]
        exact filed_enqueue (by rw [hid]; exact hfiled) reason .other
      · exact absurd hgivenUp hother

/-- In a run in which the first attempt is not put off and the passes that deal with the delivery
do not overlap, its retries are exhausted after exactly as many requests as the policy allows, it is
then in the dead-letter queue once, and being put off costs nothing. -/
theorem budgetKept_of_inTurn {env : AttemptEnv} {delivery : WebhookDelivery}
    {queue : List DeadLetterQueueItem} (hpolicy : 1 ≤ env.policy.maxAttempts)
    (hfresh : filed delivery.deliveryId queue = 0) {w w' : ServiceWorld} {label : ServiceStep}
    (hrun : Reaches (ServiceWorld.step env) InTurn (.start delivery queue) w)
    (hturn : InTurn w label) (hstep : w.step env label = some w') :
    BudgetKept env.policy w w' label := by
  have hcounted : Counted env.policy.maxAttempts w := hrun.invariant
    (fun _ _ _ h hturn hstep => Counted.step h hpolicy hturn hstep) (.new rfl rfl rfl rfl rfl)
  have hfiled : filed w.delivery.deliveryId w.queue ≤ 1 := hrun.invariant
    (P := fun w => filed w.delivery.deliveryId w.queue ≤ 1)
    (fun _ _ _ h _ hstep => filed_step h hstep) (Nat.le_succ_of_le hfresh.le)
  exact hcounted.budgetKept hfiled hturn hstep

/-- Two attempts, without a pause between them. -/
def twoAttempts : AttemptEnv where
  runtime := ⟨fun _ => none, fun _ => "", fun _ => none, fun _ => none⟩
  policy := { defaultRetryPolicy with
    maxAttempts := 2, initialBackoffMs := 0, jitterPercent := 0 }
  maxResponseBytes := 1000
  started := 0
  ended := 0
  random := 0

def queuedDelivery : WebhookDelivery :=
  ⟨"delivery_1", "deliv_1", "event_1", "stream.created", "https://consumer.example/hook", .pending,
    [], 0, 0, "\x7b\x7d"⟩

/-- Two requests fail, and the delivery is given up. -/
theorem refusedTwice_budgetKept : ∃ w w',
    Reaches (ServiceWorld.step twoAttempts) InTurn (.start queuedDelivery []) w ∧
      w'.delivery.status = .permanentFailure ∧ w'.sent = 2 ∧
        BudgetKept twoAttempts.policy w w' (.settle 0 2 1000 0) := by
  have hend : (runUnder (ServiceWorld.step twoAttempts) InTurn (.start queuedDelivery [])
      [.queueAllowed, .respond 0 (.failure "ECONNREFUSED") 500 0, .settle 0 1 500 0,
        .findDue 1000, .retryAllowed, .respond 0 (.failure "ECONNREFUSED") 1000 0]).bind
      (fun w => (w.step twoAttempts (.settle 0 2 1000 0)).map fun w' =>
        (w'.delivery.status, w'.sent)) = some (.permanentFailure, 2) := by decide +kernel
  obtain ⟨w, hrun, hsettled⟩ := Option.bind_eq_some_iff.mp hend
  obtain ⟨w', hstep, hresult⟩ := Option.map_eq_some_iff.mp hsettled
  obtain ⟨hgivenUp, hsent⟩ := Prod.mk.inj hresult
  have hreached := Reaches.of_runUnder hrun
  exact ⟨w, w', hreached, hgivenUp, hsent,
    budgetKept_of_inTurn (by decide) rfl hreached trivial hstep⟩

/-- A delivery that is put off when it is queued is given up after one request out of two. -/
theorem deferred_losesAttempt : ¬ ∀ env delivery queue w w' label,
    1 ≤ env.policy.maxAttempts → filed delivery.deliveryId queue = 0 →
      Reaches (ServiceWorld.step env) (fun _ _ => True) (.start delivery queue) w →
        w.step env label = some w' → BudgetKept env.policy w w' label := by
  intro h
  let labels : List ServiceStep :=
    [.queueDeferred 0 1000, .findDue 1000, .retryAllowed,
      .respond 0 (.failure "ECONNREFUSED") 1000 0]
  obtain ⟨w, w', hrun, hstep, hgivenUp, hsent, attempt, hi⟩ : ∃ w w',
      run (ServiceWorld.step twoAttempts) (.start queuedDelivery []) labels = some w ∧
      w.step twoAttempts (.settle 0 1 1000 0) = some w' ∧
        w'.delivery.status = .permanentFailure ∧ w.sent = 1 ∧
          ∃ attempt, w.underWay[0]? = some (.recording attempt 2 1) :=
    ⟨_, _, rfl, rfl, rfl, rfl, _, rfl⟩
  have hreached := Reaches.of_run (fun _ _ (_ : _ ∈ labels) => trivial) hrun
  have hkept := h twoAttempts queuedDelivery [] w w' _ (by decide) rfl hreached hstep
  have hcount := (hkept attempt 2 1 hi (by decide) hgivenUp).1
  rw [hsent] at hcount
  exact absurd hcount (by decide)

end Fluxora.Webhooks
