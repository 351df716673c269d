/-
# The store of webhook deliveries

`WebhookDeliveryStore` keeps deliveries, an outbox and a dead-letter queue in memory. An item of
the outbox is an object that is held twice, in a map under its id and in the array of its priority;
its status and its lock change in place. Counters are kept by hand.

The store in Postgres has such a store as its mirror and loads the stored rows into it with two
queries, between which the store is in use. A load that has failed is tried again.
-/

import Fluxora.Lib.Indexed
import Fluxora.Lib.Transition
import Fluxora.Webhooks.Delivery

namespace Fluxora.Webhooks

open Lib

/-! ## Items of the outbox -/

inductive OutboxItemStatus
  | pending
  | inFlight
  | delivered
  | failed
  deriving DecidableEq, Inhabited

/-- What an item is added with. The type leaves out the id and the status only. -/
structure NewOutboxItem where
  deliveryId : String
  eventId : String
  eventType : String
  endpointUrl : String
  payload : String
  secret : String
  priority : String
  createdAt : ℤ
  scheduledFor : ℤ
  attempts : ℕ
  maxAttempts : ℕ
  lockedAt : Option ℤ := none
  lockedBy : Option String := none
  deriving Inhabited

structure OutboxItem extends NewOutboxItem where
  id : String
  status : OutboxItemStatus
  deriving Inhabited

def defaultClaimLockTimeoutMs : ℤ := 30000

structure ClaimOptions where
  workerId : Option String
  lockTimeoutMs : Option ℤ
  now : ℤ

namespace ClaimOptions

variable (opts : ClaimOptions)

def worker : String := opts.workerId.getD "default-worker"

def timeout : ℤ := opts.lockTimeoutMs.getD defaultClaimLockTimeoutMs

/-- Locks that are older have expired. -/
def reclaimWindow : ℤ := opts.now - opts.timeout

end ClaimOptions

namespace OutboxItem

variable (item : OutboxItem)

/-- In flight under a lock that is older than the window. -/
def isStuck (opts : ClaimOptions) : Bool :=
  item.status = .inFlight && item.lockedAt.any (· < opts.reclaimWindow)

def isClaimable (opts : ClaimOptions) : Bool :=
  item.attempts < item.maxAttempts &&
    (item.status = .pending && item.scheduledFor ≤ opts.now || item.isStuck opts)

def lock (opts : ClaimOptions) : OutboxItem :=
  { item with status := .inFlight, lockedAt := some opts.now, lockedBy := some opts.worker }

/-- The status once the lock is given up. -/
def unlock (status : OutboxItemStatus) : OutboxItem :=
  { item with status := status, lockedAt := none, lockedBy := none }

end OutboxItem

/-! ## The store -/

structure StoredDeadLetter where
  item : DeadLetterQueueItem
  createdAt : ℤ

structure StoreMetrics where
  totalDeliveries : ℤ := 0
  successfulDeliveries : ℤ := 0
  failedDeliveries : ℤ := 0
  dlqItems : ℤ := 0
  outboxItems : ℤ := 0

structure DeliveryStore where
  deliveries : List (String × WebhookDelivery) := []
  deliveryIdIndex : List (String × String) := []
  /-- The objects that have been made, and how many of them. -/
  objects : ℕ → OutboxItem := fun _ => default
  made : ℕ := 0
  /-- `outbox` and `outboxPriorityQueue`. -/
  outbox : Indexed String ℕ := {}
  deadLetterQueue : List (String × StoredDeadLetter) := []
  metrics : StoreMetrics := {}

namespace DeliveryStore

variable (s : DeliveryStore)

/-- Store a webhook delivery record. -/
def store (delivery : WebhookDelivery) : DeliveryStore :=
  { s with
    deliveries := Properties.set delivery.id delivery s.deliveries
    deliveryIdIndex := Properties.set delivery.deliveryId delivery.id s.deliveryIdIndex
    metrics := { s.metrics with totalDeliveries := s.metrics.totalDeliveries + 1 } }

def registerDeliveryId (deliveryId : String) : DeliveryStore :=
  { s with deliveryIdIndex := Properties.set deliveryId deliveryId s.deliveryIdIndex }

def updateStatus (id : String) (status : WebhookDeliveryStatus) (now : ℤ) : DeliveryStore :=
  match s.deliveries.lookup id with
  | none => s
  | some delivery =>
    let updated := { s with
      deliveries := Properties.set id { delivery with status := status, updatedAt := now }
        s.deliveries }
    if delivery.status ≠ .delivered ∧ status = .delivered then
      { updated with
        metrics.successfulDeliveries := s.metrics.successfulDeliveries + 1 }
    else if delivery.status ≠ .permanentFailure ∧ status = .permanentFailure then
      { updated with metrics.failedDeliveries := s.metrics.failedDeliveries + 1 }
    else updated

/-- A new object in the map, in the array of its priority and in the count. -/
def hydrateOutboxItem (item : OutboxItem) : DeliveryStore :=
  { s with
    objects := Function.update s.objects s.made item
    made := s.made + 1
    outbox := s.outbox.insert item.id item.priority s.made
    metrics.outboxItems := s.metrics.outboxItems + 1 }

/-- Add item to outbox, under an id that is drawn. -/
def addToOutbox (id : String) (item : NewOutboxItem) : DeliveryStore :=
  s.hydrateOutboxItem { item with id := id, status := .pending }

/-- An object leaves the map and the array of its priority. -/
def dropItem (id : String) (ref : ℕ) : DeliveryStore :=
  { s with
    outbox := Indexed.remove (fun r => (s.objects r).id) s.outbox id (s.objects ref).priority
    metrics.outboxItems := s.metrics.outboxItems - 1 }

def removeFromOutbox (id : String) : DeliveryStore :=
  match s.outbox.find id with
  | none => s
  | some ref => s.dropItem id ref

def setItem (ref : ℕ) (item : OutboxItem) : DeliveryStore :=
  { s with objects := Function.update s.objects ref item }

def updateOutboxItemAttempt (id : String) (attempts : ℕ) : DeliveryStore :=
  match s.outbox.find id with
  | none => s
  | some ref => s.setItem ref { s.objects ref with attempts := attempts }

def priorities : List String := ["high", "normal", "low"]

/-- Claim the ready and the stuck items for a worker. The objects that are handed out, and the
store. -/
def claimReadyOutboxItems (opts : ClaimOptions) : List ℕ × DeliveryStore :=
  let changed := changeMatching (·.isClaimable opts) (·.lock opts)
    (priorities.flatMap s.outbox.buckets) s.objects
  (changed.2, { s with objects := changed.1 })

/-- Reclaim stuck items whose lock has expired. -/
def reclaimStuckItems (opts : ClaimOptions) : List ℕ × DeliveryStore :=
  let changed := changeMatching (·.isStuck opts) (·.lock opts) s.outbox.refs s.objects
  (changed.2, { s with objects := changed.1 })

/-- Items whose lock has expired are pending again. -/
def releaseExpiredLeases (opts : ClaimOptions) : List ℕ × DeliveryStore :=
  let changed := changeMatching (·.isStuck opts) (·.unlock .pending) s.outbox.refs s.objects
  (changed.2, { s with objects := changed.1 })

/-- The object under an id, if a worker holds its lock. -/
def lockedItem (id workerId : String) : Option ℕ :=
  (s.outbox.find id).filter fun ref => (s.objects ref).lockedBy = some workerId

def releaseOutboxItem (id workerId : String) : Bool × DeliveryStore :=
  match s.lockedItem id workerId with
  | none => (false, s)
  | some ref => (true, s.setItem ref ((s.objects ref).unlock .pending))

def markOutboxItemDelivered (id workerId : String) : Bool × DeliveryStore :=
  match s.lockedItem id workerId with
  | none => (false, s)
  | some ref => (true, (s.setItem ref ((s.objects ref).unlock .delivered)).dropItem id ref)

/-- Add a failed delivery to the dead-letter queue, under an id that is drawn. -/
def addToDeadLetterQueue (id : String) (now : ℤ) (delivery : WebhookDelivery)
    (failureReason : String) (reasonCode : DLQReasonCode) : DeliveryStore :=
  { s with
    deadLetterQueue := Properties.set id
      ⟨deadLetterQueueItem delivery failureReason reasonCode, now⟩ s.deadLetterQueue
    metrics.dlqItems := s.metrics.dlqItems + 1 }

def processDeadLetterQueueItem (id : String) : DeliveryStore :=
  if (s.deadLetterQueue.lookup id).isSome then
    { s with
      deadLetterQueue := Properties.erase id s.deadLetterQueue
      metrics.dlqItems := s.metrics.dlqItems - 1 }
  else s

/-- Delete deliveries that succeeded and dead letters before a time. The counters stay. -/
def cleanup (cutoff : ℤ) : DeliveryStore :=
  let isOld (delivery : WebhookDelivery) : Bool :=
    delivery.status = .delivered && delivery.updatedAt < cutoff
  let gone := s.deliveries.filter fun entry => isOld entry.2
  { s with
    deliveries := s.deliveries.filter fun entry => !isOld entry.2
    deliveryIdIndex := s.deliveryIdIndex.filter fun entry =>
      !gone.any fun old => old.2.deliveryId = entry.1
    deadLetterQueue := s.deadLetterQueue.filter fun entry => cutoff ≤ entry.2.createdAt }

/-- Clear all data. The objects stay with those who hold them. -/
def clear : DeliveryStore := { objects := s.objects, made := s.made }

end DeliveryStore

/-! ## Loading the stored rows -/

/-- What the query for the outbox returns: active rows, one for each id. -/
structure OutboxRows where
  rows : List OutboxItem
  nodup : (rows.map (·.id)).Nodup
  active : ∀ row ∈ rows, row.status = .pending ∨ row.status = .inFlight

/-- A stored dead letter: the id that is drawn for it, and the delivery if it can be parsed. -/
structure DeadLetterRow where
  id : String
  originalDelivery : Option WebhookDelivery
  failureReason : String
  reasonCode : DLQReasonCode

def DeliveryStore.loadOutbox (s : DeliveryStore) (rows : OutboxRows) : DeliveryStore :=
  rows.rows.foldl DeliveryStore.hydrateOutboxItem s

def DeliveryStore.loadDeadLetter (now : ℤ) (s : DeliveryStore) (row : DeadLetterRow) :
    DeliveryStore :=
  match row.originalDelivery with
  | none => s
  | some delivery =>
    s.addToDeadLetterQueue row.id now delivery row.failureReason row.reasonCode

/-- The mirror, and the loads that wait for the answer of their first or second query. -/
structure StoreWorld where
  mirror : DeliveryStore := {}
  hydrated : Bool := false
  awaitingOutbox : ℕ := 0
  awaitingDeadLetters : ℕ := 0

inductive StoreOperation
  | store (delivery : WebhookDelivery)
  | registerDeliveryId (deliveryId : String)
  | updateStatus (id : String) (status : WebhookDeliveryStatus) (now : ℤ)
  | addToOutbox (id : String) (item : NewOutboxItem)
  | removeFromOutbox (id : String)
  | updateOutboxItemAttempt (id : String) (attempts : ℕ)
  | claimReadyOutboxItems (opts : ClaimOptions)
  | reclaimStuckItems (opts : ClaimOptions)
  | releaseExpiredLeases (opts : ClaimOptions)
  | releaseOutboxItem (id workerId : String)
  | markOutboxItemDelivered (id workerId : String)
  | addToDeadLetterQueue (id : String) (now : ℤ) (delivery : WebhookDelivery)
      (failureReason : String) (reasonCode : DLQReasonCode)
  | processDeadLetterQueueItem (id : String)
  | cleanup (cutoff : ℤ)
  | clear

/-- The store after an operation. -/
def DeliveryStore.perform (s : DeliveryStore) : StoreOperation → DeliveryStore
  | .store delivery => s.store delivery
  | .registerDeliveryId deliveryId => s.registerDeliveryId deliveryId
  | .updateStatus id status now => s.updateStatus id status now
  | .addToOutbox id item => s.addToOutbox id item
  | .removeFromOutbox id => s.removeFromOutbox id
  | .updateOutboxItemAttempt id attempts => s.updateOutboxItemAttempt id attempts
  | .claimReadyOutboxItems opts => (s.claimReadyOutboxItems opts).2
  | .reclaimStuckItems opts => (s.reclaimStuckItems opts).2
  | .releaseExpiredLeases opts => (s.releaseExpiredLeases opts).2
  | .releaseOutboxItem id workerId => (s.releaseOutboxItem id workerId).2
  | .markOutboxItemDelivered id workerId => (s.markOutboxItemDelivered id workerId).2
  | .addToDeadLetterQueue id now delivery failureReason reasonCode =>
    s.addToDeadLetterQueue id now delivery failureReason reasonCode
  | .processDeadLetterQueueItem id => s.processDeadLetterQueueItem id
  | .cleanup cutoff => s.cleanup cutoff
  | .clear => s.clear

inductive StoreStep
  | perform (operation : StoreOperation)
  /-- A call of `hydrate`, which does nothing once a load has succeeded. -/
  | hydrate
  | outboxLoaded (rows : OutboxRows)
  | outboxFailed
  | deadLettersLoaded (now : ℤ) (rows : List DeadLetterRow)
  | deadLettersFailed

def StoreWorld.step (w : StoreWorld) : StoreStep → Option StoreWorld
  | .perform operation => some { w with mirror := w.mirror.perform operation }
  | .hydrate =>
    if w.hydrated then some w else some { w with awaitingOutbox := w.awaitingOutbox + 1 }
  | .outboxLoaded rows =>
    match w.awaitingOutbox with
    | 0 => none
    | others + 1 => some { w with
        mirror := w.mirror.loadOutbox rows
        awaitingOutbox := others
        awaitingDeadLetters := w.awaitingDeadLetters + 1 }
  | .outboxFailed =>
    match w.awaitingOutbox with
    | 0 => none
    | others + 1 => some { w with awaitingOutbox := others }
  | .deadLettersLoaded now rows =>
    match w.awaitingDeadLetters with
    | 0 => none
    | others + 1 => some { w with
        mirror := rows.foldl (DeliveryStore.loadDeadLetter now) w.mirror
        hydrated := true
        awaitingDeadLetters := others }
  | .deadLettersFailed =>
    match w.awaitingDeadLetters with
    | 0 => none
    | others + 1 => some { w with awaitingDeadLetters := others }

end Fluxora.Webhooks
