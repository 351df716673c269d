/-
# Batches of outbox rows

A poll claims the oldest rows that are due and delivers them one after another in one transaction.
A row whose payload fails its check is filed and marked like any other; but the endpoint is
resolved before the checks of the row, and an endpoint that is refused there throws out of the
batch.
-/

import Mathlib.Data.List.Sort
import Fluxora.Webhooks.DeliveryIdentity

namespace Fluxora.Webhooks

open Lib Lib.Transition

/-! ## Endpoints -/

/-- With the host name of a text that is a URL. -/
structure HostRuntime extends Runtime where
  hostname : String → String

def isLoopbackHostname (hostname : String) : Bool :=
  hostname = "localhost" || hostname = "127.0.0.1" || hostname = "::1"

def assertSafeWebhookEndpoint (rt : HostRuntime) (production : Bool) (endpointUrl : String) :
    Except String Unit :=
  match rt.parseUrl endpointUrl with
  | none => .error "Invalid URL"
  | some url =>
    if url.username ≠ "" ∨ url.password ≠ "" then
      .error "Webhook endpoint must not include credentials"
    else if url.protocol ≠ "https:" ∧ url.protocol ≠ "http:" then
      .error "Webhook endpoint must use http or https"
    else if production = true ∧ url.protocol ≠ "https:" ∧
        isLoopbackHostname (rt.hostname endpointUrl) = false then
      .error "Webhook endpoint must use https in production"
    else .ok ()

structure WebhookDispatcher where
  endpointUrl : Option String
  secret : Option String
  pollIntervalMs : ℕ
  batchSize : ℕ
  maxBatchBackoffMs : ℕ
  policy : EnhancedRetryPolicy
  maxResponseBytes : ℕ
  rt : HostRuntime
  production : Bool

/-- A text of the payload, or the one that is configured. -/
def textProperty (key : String) (payload : Json) (fallback : String) : String :=
  match property key payload with
  | some (.string text) => text
  | _ => fallback

namespace WebhookDispatcher

variable (d : WebhookDispatcher)

def configured : Bool := truthy d.endpointUrl && truthy d.secret

/-- The endpoint that a row asks for. -/
def endpoint (row : OutboxRow) : ResolvedEndpoint :=
  let payload := normalizePayload d.rt.toRuntime row.payload
  ⟨textProperty "endpointUrl" payload (d.endpointUrl.getD ""),
    textProperty "secret" payload (d.secret.getD "")⟩

def resolveEndpoint (row : OutboxRow) : Except String (Option ResolvedEndpoint) :=
  if !d.configured then .ok none
  else
    match assertSafeWebhookEndpoint d.rt d.production (d.endpoint row).endpointUrl with
    | .error message => .error message
    | .ok () => .ok (some (d.endpoint row))

def context : OutboxDeliveryContext := ⟨d.policy, d.maxResponseBytes, d.resolveEndpoint⟩

end WebhookDispatcher

/-! ## Polling -/

structure BatchBackoff where
  consecutiveBatchFailures : ℕ := 0
  currentBatchBackoffMs : ℤ := 0

structure OutboxSystem where
  world : World := ⟨[], 0, []⟩
  backoff : BatchBackoff := {}

/-- What a poll meets: the time, the rows that other transactions have locked, the services and
the consumer at each row, and the jitter. -/
structure Poll where
  now : ℤ
  locked : ℕ → Bool
  services : OutboxRow → GateServices
  exchange : OutboxRow → HttpExchange
  random : ℚ

/-- `ORDER BY created_at ASC, id ASC` -/
def OutboxRecord.IsOlder (record other : OutboxRecord) : Prop :=
  record.createdAt < other.createdAt ∨
    (record.createdAt = other.createdAt ∧ record.id ≤ other.id)

instance : DecidableRel OutboxRecord.IsOlder := fun record other =>
  inferInstanceAs (Decidable (record.createdAt < other.createdAt ∨
    (record.createdAt = other.createdAt ∧ record.id ≤ other.id)))

inductive BatchStep
  | publish (streamId eventType : String) (payload : Json) (createdAt : ℤ)
  | poll (poll : Poll)

namespace WebhookDispatcher

variable (d : WebhookDispatcher) (poll : Poll)

/-- The rows that a batch takes. -/
def claim (outbox : List OutboxRecord) : List OutboxRow :=
  if d.configured then
    (((outbox.filter fun record =>
      !record.processed && record.createdAt ≤ poll.now && !poll.locked record.id).insertionSort
        OutboxRecord.IsOlder).take d.batchSize).map OutboxRecord.row
  else []

def deliver (row : OutboxRow) : Except DeliveryException (List Effect) :=
  deliverOutboxRow d.rt.toRuntime d.context (poll.services row) (poll.exchange row) row

/-- What is done for a row that passes all checks. -/
def deliverSoundRow (row : OutboxRow) : List Effect :=
  Webhooks.deliverSoundRow d.rt.toRuntime d.context (poll.services row) (poll.exchange row) row
    (d.endpoint row)

/-- The rows that are delivered up to the first that throws, each with its effects. -/
def deliverRows : List OutboxRow → List (OutboxRow × List Effect) × Option DeliveryException
  | [] => ([], none)
  | row :: rest =>
    match d.deliver poll row with
    | .error exception => ([], some exception)
    | .ok effects => ((row, effects) :: (deliverRows rest).1, (deliverRows rest).2)

def resetBatchBackoff : BatchBackoff := {}

def recordBatchFailure (backoff : BatchBackoff) (random : ℚ) : BatchBackoff :=
  let failures := backoff.consecutiveBatchFailures + 1
  let capped : ℚ := min (d.pollIntervalMs * 2 ^ (failures - 1)) d.maxBatchBackoffMs
  let jitter := capped * (random * (1 / 2) - 1 / 4)
  ⟨failures, max 0 (mathRound (capped + jitter))⟩

/-- One poll. A roll-back takes neither the numbers of the sequence back nor the entries of the
dead-letter queue, which is in memory. -/
def processBatch (s : OutboxSystem) : OutboxSystem :=
  if d.configured then
    let batch := d.deliverRows poll (d.claim poll s.world.outbox)
    let world := s.world.run (batch.1.flatMap Prod.snd)
    match batch.2 with
    | none => ⟨world, resetBatchBackoff⟩
    | some _ =>
      ⟨{ world with outbox := s.world.outbox }, d.recordBatchFailure s.backoff poll.random⟩
  else s

def step (s : OutboxSystem) : BatchStep → Option OutboxSystem
  | .publish streamId eventType payload createdAt =>
    some { s with world := s.world.apply (.insertOutbox streamId eventType payload createdAt) }
  | .poll poll => some (d.processBatch poll s)

/-! ## Isolation -/

/-- The endpoint of the row is taken, and there is room for its earlier attempts. -/
structure Accepted (row : OutboxRow) : Prop where
  endpoint : assertSafeWebhookEndpoint d.rt d.production (d.endpoint row).endpointUrl = .ok ()
  attempts :
    let payload := normalizePayload d.rt.toRuntime row.payload
    validateWebhookPayload d.rt.toRuntime payload = .ok () →
      extractAttemptNumber payload - 1 < maxArrayLength

/-- The payload matches its schema as well. -/
structure WellFormed (row : OutboxRow) : Prop extends d.Accepted row where
  payload : validateWebhookPayload d.rt.toRuntime
    (normalizePayload d.rt.toRuntime row.payload) = .ok ()

/-- Every well-formed row that is claimed is taken to the gate and what comes of it is committed,
and no claimed row is pending afterwards. -/
structure Isolates (s s' : OutboxSystem) : Prop where
  committed : ∀ row ∈ d.claim poll s.world.outbox, d.WellFormed row →
    (row, d.deliverSoundRow poll row) ∈ (d.deliverRows poll (d.claim poll s.world.outbox)).1 ∧
      s'.world = s.world.run
        ((d.deliverRows poll (d.claim poll s.world.outbox)).1.flatMap Prod.snd)
  removed : ∀ row ∈ d.claim poll s.world.outbox, ∀ record ∈ s'.world.outbox,
    record.id = row.id → record.processed = true

def IsolatesStep (s : OutboxSystem) (label : BatchStep) (s' : OutboxSystem) : Prop :=
  match label with
  | .publish _ _ _ _ => True
  | .poll poll => d.Isolates poll s s'

/-- All rows that are claimed are accepted. -/
def AcceptsStep (s : OutboxSystem) (label : BatchStep) : Prop :=
  match label with
  | .publish _ _ _ _ => True
  | .poll poll => ∀ row ∈ d.claim poll s.world.outbox, d.Accepted row

/-! ## Delivering one row -/

section

variable {d poll} {row : OutboxRow} {effects : List Effect}

theorem validateWebhookUrl_of_assertSafe {rt : HostRuntime} {production : Bool}
    {endpointUrl : String} (h : assertSafeWebhookEndpoint rt production endpointUrl = .ok ()) :
    validateWebhookUrl rt.toRuntime endpointUrl = .ok () := by
  rw [assertSafeWebhookEndpoint] at h
  rw [validateWebhookUrl]
  cases hparse : rt.parseUrl endpointUrl with
  | none =>
    rw [hparse] at h
    cases h
  | some =>
    rw [hparse] at h
    dsimp only at h ⊢
    split_ifs at h with hcredentials hprotocol
    rw [if_neg hprotocol, if_neg hcredentials]

theorem isPoisonRow_iff
    (hsafe : assertSafeWebhookEndpoint d.rt d.production (d.endpoint row).endpointUrl = .ok ()) :
    isPoisonRow d.rt.toRuntime row (d.endpoint row) = true ↔
      validateWebhookPayload d.rt.toRuntime
        (normalizePayload d.rt.toRuntime row.payload) ≠ .ok () := by
  rw [isPoisonRow, validateWebhookUrl_of_assertSafe hsafe]
  simp

theorem deliver_of_refused (hconfigured : d.configured = true) {message : String}
    (hrefused : assertSafeWebhookEndpoint d.rt d.production (d.endpoint row).endpointUrl =
      .error message) : d.deliver poll row = .error (.endpointRejected message) := by
  have hresolve : d.context.resolveEndpoint row = .error message := by
    change d.resolveEndpoint row = _
    rw [WebhookDispatcher.resolveEndpoint, hconfigured, hrefused]
    rfl
  rw [deliver, deliverOutboxRow, hresolve]

theorem deliver_of_taken (hconfigured : d.configured = true)
    (hsafe : assertSafeWebhookEndpoint d.rt d.production (d.endpoint row).endpointUrl = .ok ()) :
    d.deliver poll row =
      if validateWebhookPayload d.rt.toRuntime
          (normalizePayload d.rt.toRuntime row.payload) ≠ .ok () then
        .ok [.enqueueDlq (rowDelivery d.rt.toRuntime row (d.endpoint row) .permanentFailure []
            (poll.services row).now)
            "Webhook payload or endpoint is structurally invalid and non-retryable" .poison,
          .markProcessed row.id]
      else if extractAttemptNumber (normalizePayload d.rt.toRuntime row.payload) - 1 ≥
          maxArrayLength then .error .rangeError
      else .ok (d.deliverSoundRow poll row) := by
  have hresolve : d.context.resolveEndpoint row = .ok (some (d.endpoint row)) := by
    change d.resolveEndpoint row = _
    rw [WebhookDispatcher.resolveEndpoint, hconfigured, hsafe]
    rfl
  rw [deliver, deliverOutboxRow, hresolve]
  exact if_congr (isPoisonRow_iff hsafe) rfl rfl

theorem deliver_of_wellFormed (hconfigured : d.configured = true) (h : d.WellFormed row) :
    d.deliver poll row = .ok (d.deliverSoundRow poll row) := by
  rw [deliver_of_taken hconfigured h.endpoint, if_neg (not_not.mpr h.payload),
    if_neg (Nat.not_le.mpr (h.attempts h.payload))]

theorem exists_deliver_iff (hconfigured : d.configured = true) :
    (∃ effects, d.deliver poll row = .ok effects) ↔ d.Accepted row := by
  cases hsafe : assertSafeWebhookEndpoint d.rt d.production (d.endpoint row).endpointUrl with
  | error =>
    rw [deliver_of_refused hconfigured hsafe]
    exact iff_of_false nofun fun h => nomatch hsafe.symm.trans h.endpoint
  | ok =>
    rw [deliver_of_taken hconfigured hsafe]
    split_ifs with hpayload hlarge
    · exact iff_of_true ⟨_, rfl⟩ ⟨hsafe, fun hvalid => absurd hvalid hpayload⟩
    · exact iff_of_false nofun fun h =>
        Nat.not_le.mpr (h.attempts (not_not.mp hpayload)) hlarge
    · exact iff_of_true ⟨_, rfl⟩ ⟨hsafe, fun _ => Nat.not_le.mp hlarge⟩

theorem effects_ne_nil (hconfigured : d.configured = true)
    (hdeliver : d.deliver poll row = .ok effects) : effects ≠ [] := by
  have h : d.Accepted row := (exists_deliver_iff hconfigured).mp ⟨effects, hdeliver⟩
  rw [deliver_of_taken hconfigured h.endpoint] at hdeliver
  split_ifs at hdeliver
  · cases hdeliver
    exact List.cons_ne_nil _ _
  · cases hdeliver
    rw [deliverSoundRow, Webhooks.deliverSoundRow]
    split <;> exact List.cons_ne_nil _ _

end

/-! ## Delivering a batch -/

section

variable {d poll} {rows : List OutboxRow} {row : OutboxRow} {effects : List Effect}

theorem deliver_of_mem_deliverRows (h : (row, effects) ∈ (d.deliverRows poll rows).1) :
    row ∈ rows ∧ d.deliver poll row = .ok effects := by
  induction rows with
  | nil => cases h
  | cons first _ ih =>
    rw [deliverRows] at h
    cases hdeliver : d.deliver poll first with
    | error =>
      rw [hdeliver] at h
      cases h
    | ok =>
      rw [hdeliver] at h
      rcases List.mem_cons.mp h with heq | hrest
      · cases heq
        exact ⟨List.mem_cons_self, hdeliver⟩
      · exact (ih hrest).imp_left (List.mem_cons_of_mem first)

theorem deliverRows_eq_none_iff : (d.deliverRows poll rows).2 = none ↔
    ∀ row ∈ rows, ∃ effects, d.deliver poll row = .ok effects := by
  induction rows with
  | nil => exact iff_of_true rfl fun _ h => nomatch h
  | cons first _ ih =>
    rw [deliverRows, List.forall_mem_cons]
    cases hdeliver : d.deliver poll first with
    | error => exact iff_of_false nofun fun h => nomatch h.1
    | ok done => exact ih.trans (and_iff_right ⟨done, rfl⟩).symm

theorem mem_deliverRows (hnone : (d.deliverRows poll rows).2 = none) (hmem : row ∈ rows)
    (hdeliver : d.deliver poll row = .ok effects) :
    (row, effects) ∈ (d.deliverRows poll rows).1 := by
  induction rows with
  | nil => cases hmem
  | cons first _ ih =>
    rw [deliverRows] at hnone ⊢
    cases hfirst : d.deliver poll first with
    | error =>
      rw [hfirst] at hnone
      cases hnone
    | ok =>
      rw [hfirst] at hnone
      rcases List.mem_cons.mp hmem with rfl | hrest
      · cases hfirst.symm.trans hdeliver
        exact List.mem_cons_self
      · exact List.mem_cons_of_mem _ (ih hnone hrest)

end

end WebhookDispatcher

/-! ## The table after a batch -/

/-- Numbers of the sequence are new. -/
def World.IdsBelow (world : World) : Prop := ∀ record ∈ world.outbox, record.id < world.nextId

/-- No row of this number is pending. -/
def World.Done (world : World) (id : ℕ) : Prop :=
  ∀ record ∈ world.outbox, record.id = id → record.processed = true

theorem World.run_append (world : World) (front back : List Effect) :
    world.run (front ++ back) = (world.run front).run back := List.foldl_append

variable {id : ℕ} {world : World} {handled : List (OutboxRow × List Effect)}
  {outbox : List OutboxRecord}

theorem OutboxRun.done_markProcessed {other : ℕ}
    (h : other = id ∨ ∀ record ∈ outbox, record.id = other → record.processed = true) :
    ∀ record ∈ markProcessed id outbox, record.id = other → record.processed = true := by
  intro record hmem hid
  by_contra hwaits
  rw [Bool.not_eq_true] at hwaits
  obtain ⟨hold, hne⟩ := OutboxRun.mem_markProcessed_waits hmem hwaits
  rcases h with rfl | hdone
  · exact hne hid
  · exact Bool.false_ne_true (hwaits.symm.trans (hdone record hold hid))

theorem RowEffects.run_outbox {row : OutboxRow} {effects : List Effect} (h : RowEffects row effects)
    (hsome : effects ≠ []) (world : World) : ∃ news : List OutboxRecord,
      (world.run effects).outbox = markProcessed row.id world.outbox ++ news ∧
        ∀ record ∈ news, record.id = world.nextId ∧
          (world.run effects).nextId = world.nextId + 1 := by
  obtain ⟨news, hnews, houtbox, hnextId⟩ := (h.run world).resolve_left hsome
  apply Exists.intro news
  apply And.intro houtbox
  intro record hmem
  rcases hnews with rfl | ⟨only, rfl, honly⟩
  · cases hmem
  · obtain rfl := List.mem_singleton.mp hmem
    exact ⟨honly, hnextId⟩

theorem RowEffects.nextId_le {row : OutboxRow} {effects : List Effect}
    (h : RowEffects row effects) (world : World) : world.nextId ≤ (world.run effects).nextId := by
  rcases h.run world with rfl | ⟨news, -, -, hnextId⟩
  · exact le_refl _
  · omega

theorem RowEffects.idsBelow {row : OutboxRow} {effects : List Effect} (h : RowEffects row effects)
    (hsome : effects ≠ []) (hids : world.IdsBelow) : (world.run effects).IdsBelow := by
  obtain ⟨news, houtbox, hnews⟩ := h.run_outbox hsome world
  intro record hmem
  rw [houtbox] at hmem
  rcases List.mem_append.mp hmem with hold | hnew
  · obtain ⟨old, hold, hsame⟩ := OutboxRun.mem_markProcessed_id hold
    exact hsame ▸ (hids old hold).trans_le (h.nextId_le world)
  · have hnew := hnews record hnew
    omega

theorem RowEffects.done {row : OutboxRow} {effects : List Effect} (h : RowEffects row effects)
    (hsome : effects ≠ []) (hid : id < world.nextId)
    (hdone : id = row.id ∨ world.Done id) : (world.run effects).Done id := by
  obtain ⟨news, houtbox, hnews⟩ := h.run_outbox hsome world
  intro record hmem hrecord
  rw [houtbox] at hmem
  rcases List.mem_append.mp hmem with hold | hnew
  · exact OutboxRun.done_markProcessed hdone record hold hrecord
  · have hnew := (hnews record hnew).1
    omega

theorem idsBelow_run (h : ∀ pair ∈ handled, RowEffects pair.1 pair.2 ∧ pair.2 ≠ [])
    (hids : world.IdsBelow) : (world.run (handled.flatMap Prod.snd)).IdsBelow := by
  induction handled generalizing world with
  | nil => exact hids
  | cons _ _ ih =>
    rw [List.forall_mem_cons] at h
    rw [List.flatMap_cons, World.run_append]
    exact ih h.2 (h.1.1.idsBelow h.1.2 hids)

theorem nextId_le_run (h : ∀ pair ∈ handled, RowEffects pair.1 pair.2 ∧ pair.2 ≠ []) :
    world.nextId ≤ (world.run (handled.flatMap Prod.snd)).nextId := by
  induction handled generalizing world with
  | nil => exact le_refl _
  | cons _ _ ih =>
    rw [List.forall_mem_cons] at h
    rw [List.flatMap_cons, World.run_append]
    exact (h.1.1.nextId_le world).trans (ih h.2)

theorem done_run (h : ∀ pair ∈ handled, RowEffects pair.1 pair.2 ∧ pair.2 ≠ [])
    (hid : id < world.nextId) (hdone : world.Done id ∨ ∃ pair ∈ handled, id = pair.1.id) :
    (world.run (handled.flatMap Prod.snd)).Done id := by
  induction handled generalizing world with
  | nil => exact hdone.resolve_right fun ⟨_, hmem, _⟩ => nomatch hmem
  | cons _ _ ih =>
    rw [List.forall_mem_cons] at h
    rw [List.flatMap_cons, World.run_append]
    apply ih h.2 (hid.trans_le (h.1.1.nextId_le world))
    rcases hdone with hdone | ⟨pair, hmem, hpair⟩
    · exact .inl (h.1.1.done h.1.2 hid (.inr hdone))
    · rcases List.mem_cons.mp hmem with rfl | hrest
      · exact .inl (h.1.1.done h.1.2 hid (.inl hpair))
      · exact .inr ⟨pair, hrest, hpair⟩

namespace WebhookDispatcher

variable {d : WebhookDispatcher} {poll : Poll} {s s' : OutboxSystem}

theorem configured_of_mem_claim {row : OutboxRow} (hmem : row ∈ d.claim poll outbox) :
    d.configured = true := by
  by_contra hnot
  rw [claim, if_neg hnot] at hmem
  cases hmem

theorem pending_of_mem_claim {row : OutboxRow} (hmem : row ∈ d.claim poll outbox) :
    ∃ record ∈ outbox, record.id = row.id ∧ record.processed = false := by
  rw [claim, if_pos (configured_of_mem_claim hmem)] at hmem
  obtain ⟨record, hrecord, rfl⟩ := List.mem_map.mp hmem
  have hsorted := (List.mem_insertionSort _).mp (List.mem_of_mem_take hrecord)
  obtain ⟨hold, hdue⟩ := List.mem_filter.mp hsorted
  rw [Bool.and_eq_true, Bool.and_eq_true, Bool.not_eq_true'] at hdue
  exact ⟨record, hold, rfl, hdue.1.1⟩

theorem rowEffects_of_mem {rows : List OutboxRow} (hconfigured : d.configured = true) :
    ∀ pair ∈ (d.deliverRows poll rows).1, RowEffects pair.1 pair.2 ∧ pair.2 ≠ [] := by
  intro pair hmem
  have hdeliver := (deliver_of_mem_deliverRows hmem).2
  exact ⟨rowEffects_of_ok hdeliver, effects_ne_nil hconfigured hdeliver⟩

theorem processBatch_of_accepted (hconfigured : d.configured = true)
    (haccepted : ∀ row ∈ d.claim poll s.world.outbox, d.Accepted row) :
    d.processBatch poll s = ⟨s.world.run
      ((d.deliverRows poll (d.claim poll s.world.outbox)).1.flatMap Prod.snd), {}⟩ := by
  have hnone : (d.deliverRows poll (d.claim poll s.world.outbox)).2 = none :=
    (deliverRows_eq_none_iff).mpr fun row hmem =>
      (exists_deliver_iff hconfigured).mpr (haccepted row hmem)
  rw [processBatch, if_pos hconfigured]
  dsimp only
  rw [hnone]
  rfl

theorem outbox_of_refused {row : OutboxRow} (hmem : row ∈ d.claim poll s.world.outbox)
    (hrefused : ¬ d.Accepted row) : (d.processBatch poll s).world.outbox = s.world.outbox := by
  have hconfigured := configured_of_mem_claim hmem
  rw [processBatch, if_pos hconfigured]
  dsimp only
  cases hfailure : (d.deliverRows poll (d.claim poll s.world.outbox)).2 with
  | none =>
    exact absurd ((exists_deliver_iff hconfigured).mp
      ((deliverRows_eq_none_iff).mp hfailure row hmem)) hrefused
  | some => rfl

theorem isolates_iff (hids : s.world.IdsBelow) : d.Isolates poll s (d.processBatch poll s) ↔
    ∀ row ∈ d.claim poll s.world.outbox, d.Accepted row := by
  apply Iff.intro
  · intro hisolates row hmem
    by_contra hrefused
    obtain ⟨record, hrecord, hid, hwaits⟩ := pending_of_mem_claim hmem
    rw [← outbox_of_refused hmem hrefused] at hrecord
    exact Bool.false_ne_true
      (hwaits.symm.trans (hisolates.removed row hmem record hrecord hid))
  · intro haccepted
    apply Isolates.mk
    · intro row hmem hwell
      have hconfigured := configured_of_mem_claim hmem
      rw [processBatch_of_accepted hconfigured haccepted]
      apply And.intro _ rfl
      apply mem_deliverRows _ hmem (deliver_of_wellFormed hconfigured hwell)
      exact (deliverRows_eq_none_iff).mpr fun other hother =>
        (exists_deliver_iff hconfigured).mpr (haccepted other hother)
    · intro row hmem
      have hconfigured := configured_of_mem_claim hmem
      obtain ⟨record, hrecord, hid, -⟩ := pending_of_mem_claim hmem
      obtain ⟨effects, hdeliver⟩ := (exists_deliver_iff hconfigured).mpr (haccepted row hmem)
      rw [processBatch_of_accepted hconfigured haccepted]
      apply done_run (rowEffects_of_mem hconfigured) (hid ▸ hids record hrecord)
      refine .inr ⟨(row, effects), ?_, rfl⟩
      apply mem_deliverRows _ hmem hdeliver
      exact (deliverRows_eq_none_iff).mpr fun other hother =>
        (exists_deliver_iff hconfigured).mpr (haccepted other hother)

theorem idsBelow_processBatch (hids : s.world.IdsBelow) :
    (d.processBatch poll s).world.IdsBelow := by
  rw [processBatch]
  split_ifs with hconfigured
  · dsimp only
    split
    · exact idsBelow_run (rowEffects_of_mem hconfigured) hids
    · intro record hmem
      exact (hids record hmem).trans_le (nextId_le_run (rowEffects_of_mem hconfigured))
  · exact hids

variable {label : BatchStep}

theorem idsBelow_step (hids : s.world.IdsBelow) (hstep : d.step s label = some s') :
    s'.world.IdsBelow := by
  cases label with
  | publish =>
    cases hstep
    intro record hmem
    rcases List.mem_append.mp hmem with hold | hnew
    · exact (hids record hold).trans (Nat.lt_succ_self _)
    · rw [List.mem_singleton.mp hnew]
      exact Nat.lt_succ_self _
  | poll =>
    cases hstep
    exact idsBelow_processBatch hids

theorem isolatesStep_iff (hids : s.world.IdsBelow) (hstep : d.step s label = some s') :
    d.IsolatesStep s label s' ↔ d.AcceptsStep s label := by
  cases label with
  | publish => exact Iff.rfl
  | poll =>
    cases hstep
    exact isolates_iff hids

/-- Along every run, every batch isolates its malformed rows exactly as long as every row that is
claimed has an endpoint that is taken, and room for its earlier attempts. -/
theorem isolates_iff_accepted (d : WebhookDispatcher) (labels : List BatchStep) :
    EveryStep d.step d.IsolatesStep {} labels ↔
      EveryStep d.step (fun s label _ => d.AcceptsStep s label) {} labels := by
  have hinit : (OutboxSystem.world {}).IdsBelow := fun _ hmem => nomatch hmem
  apply Iff.intro
  · apply EveryStep.imp (fun s => s.world.IdsBelow) _ hinit
    intro s label s' hids hstep hisolates
    exact ⟨(isolatesStep_iff hids hstep).mp hisolates, idsBelow_step hids hstep⟩
  · apply EveryStep.imp (fun s => s.world.IdsBelow) _ hinit
    intro s label s' hids hstep haccepts
    exact ⟨(isolatesStep_iff hids hstep).mpr haccepts, idsBelow_step hids hstep⟩

/-- An endpoint that is no URL and an event for the configured one, both due. -/
def mixedBatch : List BatchStep :=
  [.publish "stream-1" "stream.updated" (.object [("endpointUrl", .string "consumer")]) 0,
    .publish "stream-2" "stream.updated" (.object [("amount", .string "5")]) 0,
    .poll ⟨0, fun _ => false, fun _ => lossServices, fun _ => answerWith 200, 0⟩]

def singleConsumer : WebhookDispatcher where
  endpointUrl := some "https://consumer.example/hook"
  secret := some "secret"
  pollIntervalMs := 1000
  batchSize := 50
  maxBatchBackoffMs := 60000
  policy := defaultRetryPolicy
  maxResponseBytes := 1024
  rt := { lossRuntime with
    parseUrl := fun text =>
      if text = "https://consumer.example/hook" then some ⟨"https:", "", ""⟩ else none
    hostname := fun _ => "consumer.example" }
  production := true

/-- The first row throws, the second is not attempted, and both are pending as before. -/
theorem mixedBatch_rolledBack : ¬ ∀ (d : WebhookDispatcher) (labels : List BatchStep),
    EveryStep d.step d.IsolatesStep {} labels := by
  intro hall
  have hpoll := ((hall singleConsumer mixedBatch _ rfl).2 _ rfl).2 _ rfl
  have hisolates := hpoll.1.removed
    ⟨0, "stream-1", "stream.updated", .object [("endpointUrl", .string "consumer")], 0⟩
    List.mem_cons_self
    ⟨0, "stream-1", "stream.updated", .object [("endpointUrl", .string "consumer")], 0, false⟩
    List.mem_cons_self rfl
  cases hisolates

end WebhookDispatcher

end Fluxora.Webhooks
