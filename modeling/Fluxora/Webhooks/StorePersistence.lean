/-
# The stored rows of the delivery store

The store in Postgres changes its mirror at once and issues a statement for the rows, which is
carried out some time later, in no order, or fails. A new process loads what is stored: the items
of the outbox under their ids; a dead letter is parsed again from a column that the driver has
parsed already, and would be added as a new one.

A row is followed through the statements that are still to be carried out.
-/

import Fluxora.Lib.KeyedTable
import Fluxora.Lib.Waiting
import Fluxora.Webhooks.StoreRepresentation

namespace Fluxora.Webhooks

open Lib Lib.KeyedTable Lib.PendingWrites Lib.Transition

/-! ## Tables and statements -/

/-- A row of `webhook_dlq`. -/
structure DlqRow where
  id : String
  item : DeadLetterQueueItem
  createdAt : ℤ
  processed : Bool := false

inductive StoreWrite
  /-- `INSERT … ON CONFLICT (id) DO NOTHING` -/
  | insertOutboxItem (item : OutboxItem)
  | setDelivered (id : String)
  | setAttempts (id : String) (attempts : ℕ)
  | lockItems (ids : List String) (opts : ClaimOptions)
  | unlockItems (ids : List String) (status : OutboxItemStatus)
  | deleteOutboxItems
  | insertDeadLetter (row : DlqRow)
  | setProcessed (id : String)
  | deleteProcessed (cutoff : ℤ)
  | deleteDeadLetters

/-- The statements that an operation issues, by what it does to the mirror. The deliveries have a
table of their own, which is not loaded. -/
def DeliveryStore.persist (s : DeliveryStore) : StoreOperation → List StoreWrite
  | .addToOutbox id item => [.insertOutboxItem
      { item with id := id, status := .pending, lockedAt := none, lockedBy := none }]
  | .removeFromOutbox id => if (s.outbox.find id).isSome then [.setDelivered id] else []
  | .updateOutboxItemAttempt id attempts => [.setAttempts id attempts]
  | .claimReadyOutboxItems opts =>
    match (s.claimReadyOutboxItems opts).1 with
    | [] => []
    | claimed => [.lockItems (claimed.map s.idOf) opts]
  | .reclaimStuckItems opts =>
    match (s.reclaimStuckItems opts).1 with
    | [] => []
    | reclaimed => [.lockItems (reclaimed.map s.idOf) opts]
  | .releaseExpiredLeases opts =>
    match (s.releaseExpiredLeases opts).1 with
    | [] => []
    | released => [.unlockItems (released.map s.idOf) .pending]
  | .releaseOutboxItem id workerId =>
    if (s.releaseOutboxItem id workerId).1 then [.unlockItems [id] .pending] else []
  | .markOutboxItemDelivered id workerId =>
    if (s.markOutboxItemDelivered id workerId).1 then [.unlockItems [id] .delivered] else []
  | .addToDeadLetterQueue id now delivery failureReason reasonCode =>
    [.insertDeadLetter ⟨id, deadLetterQueueItem delivery failureReason reasonCode, now, false⟩]
  | .processDeadLetterQueueItem id =>
    if (s.deadLetterQueue.lookup id).isSome then [.setProcessed id] else []
  | .cleanup cutoff => [.deleteProcessed cutoff]
  | .clear => [.deleteOutboxItems, .deleteDeadLetters]
  | .store _ => []
  | .registerDeliveryId _ => []
  | .updateStatus _ _ _ => []

structure PgStore where
  mirror : DeliveryStore := {}
  outboxItems : List OutboxItem := []
  deadLetters : List DlqRow := []
  writes : List StoreWrite := []

namespace OutboxItem

variable (item : OutboxItem)

def deliver : OutboxItem := { item with status := .delivered }

def withAttempts (attempts : ℕ) : OutboxItem := { item with attempts := attempts }

theorem id_deliver : item.deliver.id = item.id := rfl

theorem id_withAttempts (attempts : ℕ) : (item.withAttempts attempts).id = item.id := rfl

end OutboxItem

def DlqRow.process (row : DlqRow) : DlqRow := { row with processed := true }

theorem DlqRow.id_process (row : DlqRow) : row.process.id = row.id := rfl

def PgStore.carryOut (s : PgStore) : StoreWrite → PgStore
  | .insertOutboxItem item =>
    { s with outboxItems := insertRow OutboxItem.id s.outboxItems item }
  | .setDelivered id =>
    { s with outboxItems := changeRows OutboxItem.id [id] (·.deliver) s.outboxItems }
  | .setAttempts id attempts =>
    { s with
      outboxItems := changeRows OutboxItem.id [id] (·.withAttempts attempts) s.outboxItems }
  | .lockItems ids opts =>
    { s with outboxItems := changeRows OutboxItem.id ids (·.lock opts) s.outboxItems }
  | .unlockItems ids status =>
    { s with outboxItems := changeRows OutboxItem.id ids (·.unlock status) s.outboxItems }
  | .deleteOutboxItems => { s with outboxItems := [] }
  | .insertDeadLetter row => { s with deadLetters := insertRow DlqRow.id s.deadLetters row }
  | .setProcessed id =>
    { s with deadLetters := changeRows DlqRow.id [id] DlqRow.process s.deadLetters }
  | .deleteProcessed cutoff =>
    { s with deadLetters := s.deadLetters.filter fun row =>
        !(row.processed && row.createdAt < cutoff) }
  | .deleteDeadLetters => { s with deadLetters := [] }

/-! ## Loading -/

/-- `status NOT IN ('delivered', 'failed')` -/
def OutboxItem.isActive (item : OutboxItem) : Bool :=
  item.status = .pending || item.status = .inFlight

def loadLimit : ℕ := 1000

def DlqRow.IsNewer (row other : DlqRow) : Prop := other.createdAt ≤ row.createdAt

instance : DecidableRel DlqRow.IsNewer := fun row other =>
  inferInstanceAs (Decidable (other.createdAt ≤ row.createdAt))

def OutboxItem.IsSooner (item other : OutboxItem) : Prop := item.scheduledFor ≤ other.scheduledFor

instance : DecidableRel OutboxItem.IsSooner := fun item other =>
  inferInstanceAs (Decidable (item.scheduledFor ≤ other.scheduledFor))

section

-- `JSON.parse(row.original_delivery)`: the column is `jsonb`, which the driver hands over parsed,
-- and what parsing that again gives is up to the driver
variable (reparse : WebhookDelivery → Option WebhookDelivery)

/-- The mirror of a new process, with the ids that are drawn for dead letters. -/
def hydrate (ids : ℕ → String) (now : ℤ) (outboxItems : List OutboxItem)
    (deadLetters : List DlqRow) : DeliveryStore :=
  let items := (outboxItems.filter (·.isActive)).insertionSort OutboxItem.IsSooner
  let letters := ((deadLetters.filter (!·.processed)).insertionSort DlqRow.IsNewer).take loadLimit
  (letters.mapIdx fun n row => (⟨ids n, reparse row.item.originalDelivery, row.item.failureReason,
    row.item.reasonCode⟩ : DeadLetterRow)).foldl (DeliveryStore.loadDeadLetter now)
      (items.foldl DeliveryStore.hydrateOutboxItem {})

inductive PgStep
  | perform (operation : StoreOperation)
  /-- A statement that was issued is carried out. -/
  | carryOut (i : ℕ)
  | fail (i : ℕ)
  /-- The process ends, and a new one loads the rows. -/
  | restart (ids : ℕ → String) (now : ℤ)

def PgStore.step (s : PgStore) : PgStep → Option PgStore
  | .perform operation => some { s with
      mirror := s.mirror.perform operation
      writes := s.writes ++ s.mirror.persist operation }
  | .carryOut i => s.writes[i]?.map fun write =>
    { s.carryOut write with writes := s.writes.eraseIdx i }
  | .fail i => s.writes[i]?.map fun _ => { s with writes := s.writes.eraseIdx i }
  | .restart ids now =>
    some { s with mirror := hydrate reparse ids now s.outboxItems s.deadLetters }

end

/-! ## What is kept -/

/-- An item without its status and lock. -/
def OutboxItem.content (item : OutboxItem) : NewOutboxItem :=
  { item.toNewOutboxItem with lockedAt := none, lockedBy := none }

/-- What is loaded of a row. -/
def activeContent (row : Option OutboxItem) : Option NewOutboxItem :=
  (row.filter OutboxItem.isActive).map OutboxItem.content

def openItem (row : Option DlqRow) : Option DeadLetterQueueItem :=
  (row.filter (!·.processed)).map DlqRow.item

namespace DeliveryStore

variable (s : DeliveryStore)

def outboxItem (id : String) : Option OutboxItem := (s.outbox.find id).map s.objects

def deadLetter (id : String) : Option DeadLetterQueueItem :=
  (s.deadLetterQueue.lookup id).map (·.item)

/-- Two mirrors have the same items and dead letters under the same ids. -/
structure SameItems (s s' : DeliveryStore) : Prop where
  outbox : ∀ id, (s'.outboxItem id).map OutboxItem.content =
    (s.outboxItem id).map OutboxItem.content
  deadLetters : ∀ id, s'.deadLetter id = s.deadLetter id

end DeliveryStore

/-- What a statement makes of the row under an id. -/
def outboxEffect : StoreWrite → String → Option OutboxItem → Option OutboxItem
  | .insertOutboxItem item, id, row => if id = item.id then row.or (some item) else row
  | .setDelivered id', id, row => if id ∈ [id'] then row.map (·.deliver) else row
  | .setAttempts id' attempts, id, row =>
    if id ∈ [id'] then row.map (·.withAttempts attempts) else row
  | .lockItems ids opts, id, row => if id ∈ ids then row.map (·.lock opts) else row
  | .unlockItems ids status, id, row => if id ∈ ids then row.map (·.unlock status) else row
  | .deleteOutboxItems, _, _ => none
  | _, _, row => row

def deadLetterEffect : StoreWrite → String → Option DlqRow → Option DlqRow
  | .insertDeadLetter new, id, row => if id = new.id then row.or (some new) else row
  | .setProcessed id', id, row => if id ∈ [id'] then row.map DlqRow.process else row
  | .deleteProcessed cutoff, _, row =>
    row.filter fun row => !(row.processed && row.createdAt < cutoff)
  | .deleteDeadLetters, _, _ => none
  | _, _, row => row

namespace PgStore

variable (s : PgStore)

/-- The row under an id once all statements are carried out. -/
def outboxRow (id : String) : Option OutboxItem :=
  settle outboxEffect s.writes id (row OutboxItem.id s.outboxItems id)

def deadLetterRow (id : String) : Option DlqRow :=
  settle deadLetterEffect s.writes id (row DlqRow.id s.deadLetters id)

/-- The rows will be what the mirror holds: what is in the mirror is active in the table and the
other way round. -/
structure Persisted : Prop where
  outbox : ∀ id, (s.mirror.outboxItem id).map OutboxItem.content = activeContent (s.outboxRow id)
  deadLetters : ∀ id, s.mirror.deadLetter id = openItem (s.deadLetterRow id)

/-- The property of a step. -/
def Keeps (s : PgStore) (label : PgStep) (s' : PgStore) : Prop :=
  s'.Persisted ∧
    match label with
    | .restart _ _ => s.mirror.SameItems s'.mirror
    | _ => True

/-- Ids that are drawn are new, no cleanup meets an old dead letter, every statement is carried
out, those on a row in their order, and a process that ends has none to carry out and no dead
letters. -/
def Durable (s : PgStore) : PgStep → Prop
  | .perform (.addToOutbox id _) => s.outboxRow id = none
  | .perform (.addToDeadLetterQueue id _ _ _ _) => s.deadLetterRow id = none
  | .perform (.cleanup cutoff) => ∀ entry ∈ s.mirror.deadLetterQueue, cutoff ≤ entry.2.createdAt
  | .perform _ => True
  | .carryOut i => ∀ write ∈ s.writes[i]?, ∀ earlier ∈ s.writes.take i,
      Apart outboxEffect earlier write ∧ Apart deadLetterEffect earlier write
  | .fail _ => False
  | .restart _ _ => s.writes = [] ∧ s.mirror.deadLetterQueue = []

end PgStore

/-! ## The mirror -/

namespace DeliveryStore

variable {s : DeliveryStore}

theorem Held.outboxItem_hydrateOutboxItem (h : s.Held) (item : OutboxItem) (id : String) :
    (s.hydrateOutboxItem item).outboxItem id =
      if id = item.id then some item else s.outboxItem id := by
  have hfind : (s.hydrateOutboxItem item).outbox.find id =
      (Properties.set item.id s.made s.outbox.entries).lookup id := rfl
  rw [outboxItem, hfind]
  split_ifs with hid
  · subst hid
    rw [Properties.lookup_set_self, Option.map_some, objects_hydrateOutboxItem_self]
  · rw [Properties.lookup_set_of_ne hid, outboxItem]
    apply Option.map_congr
    intro ref hmem
    exact h.objects_hydrateOutboxItem item (h.of_find hmem).1

theorem outboxItem_dropItem (id : String) (ref : ℕ) (id' : String) :
    (s.dropItem id ref).outboxItem id' = if id' = id then none else s.outboxItem id' := by
  have hfind : (s.dropItem id ref).outbox.find id' =
      (Properties.erase id s.outbox.entries).lookup id' := rfl
  rw [outboxItem, hfind, Properties.lookup_erase]
  split_ifs <;> rfl

theorem Held.outboxItem_setItem (h : s.Held) {id : String} {ref : ℕ}
    (hfind : s.outbox.find id = some ref) (item : OutboxItem) (id' : String) :
    (s.setItem ref item).outboxItem id' = if id' = id then some item else s.outboxItem id' := by
  rw [outboxItem, show (s.setItem ref item).outbox = s.outbox from rfl]
  split_ifs with hid
  · subst hid
    rw [hfind, Option.map_some]
    exact congrArg some (Function.update_self _ _ _)
  · apply Option.map_congr
    intro other hmem
    apply Function.update_of_ne
    intro hsame
    subst hsame
    exact hid ((h.of_find hmem).2.symm.trans (h.of_find hfind).2)

theorem Held.outboxItem_idOf (h : s.Held) {ref : ℕ} (hheld : ref ∈ s.outbox.refs) :
    s.outboxItem (s.idOf ref) = some (s.objects ref) := by
  rw [outboxItem, h.sameItems.find_eq_some_iff.mpr ⟨hheld, rfl⟩, Option.map_some]

theorem content_changeMatching (test : OutboxItem → Bool) {change : OutboxItem → OutboxItem}
    (hcontent : ∀ item, (change item).content = item.content) {refs : List ℕ}
    (hnodup : refs.Nodup) (id : String) :
    (outboxItem { s with objects := (changeMatching test change refs s.objects).1 } id).map
      OutboxItem.content = (s.outboxItem id).map OutboxItem.content := by
  rw [outboxItem, outboxItem, Option.map_map, Option.map_map]
  apply Option.map_congr
  intro ref _
  rw [Function.comp_apply, Function.comp_apply]
  dsimp only
  rw [changeMatching_fst hnodup]
  split_ifs
  · exact hcontent _
  · rfl

end DeliveryStore

/-! ## Statements, row by row -/

namespace PgStore

variable {s : PgStore}

theorem row_carryOut (write : StoreWrite) (id : String) :
    row OutboxItem.id (s.carryOut write).outboxItems id =
      outboxEffect write id (row OutboxItem.id s.outboxItems id) := by
  cases write with
  | insertOutboxItem => exact row_insertRow OutboxItem.id _ _ _
  | setDelivered => exact row_changeRows OutboxItem.id OutboxItem.id_deliver _ _ _
  | setAttempts _ attempts =>
    exact row_changeRows OutboxItem.id (fun item => item.id_withAttempts attempts) _ _ _
  | lockItems _ opts => exact row_changeRows OutboxItem.id (fun item => item.id_lock opts) _ _ _
  | unlockItems _ status =>
    exact row_changeRows OutboxItem.id (fun item => item.id_unlock status) _ _ _
  | deleteOutboxItems | insertDeadLetter | setProcessed | deleteProcessed | deleteDeadLetters => rfl

theorem deadLetterRow_carryOut (hnodup : (s.deadLetters.map DlqRow.id).Nodup) (write : StoreWrite)
    (id : String) : row DlqRow.id (s.carryOut write).deadLetters id =
      deadLetterEffect write id (row DlqRow.id s.deadLetters id) := by
  cases write with
  | insertDeadLetter => exact row_insertRow DlqRow.id _ _ _
  | setProcessed => exact row_changeRows DlqRow.id DlqRow.id_process _ _ _
  | deleteProcessed => exact row_filter DlqRow.id hnodup _ _
  | deleteDeadLetters | insertOutboxItem | setDelivered | setAttempts | lockItems | unlockItems
  | deleteOutboxItems => rfl

/-- Every table has one row for each id. -/
structure Keyed (s : PgStore) : Prop where
  outboxItems : (s.outboxItems.map OutboxItem.id).Nodup
  deadLetters : (s.deadLetters.map DlqRow.id).Nodup

theorem Keyed.changeItems (h : s.Keyed) (ids : List String) {change : OutboxItem → OutboxItem}
    (hid : ∀ item, (change item).id = item.id) :
    Keyed { s with outboxItems := changeRows OutboxItem.id ids change s.outboxItems } where
  outboxItems := (map_key_changeRows OutboxItem.id hid _ _).symm ▸ h.outboxItems
  deadLetters := h.deadLetters

theorem Keyed.carryOut (h : s.Keyed) (write : StoreWrite) : (s.carryOut write).Keyed := by
  cases write with
  | insertOutboxItem item =>
    exact ⟨nodup_insertAll OutboxItem.id h.outboxItems [item], h.deadLetters⟩
  | setDelivered => exact h.changeItems _ OutboxItem.id_deliver
  | setAttempts _ attempts => exact h.changeItems _ fun item => item.id_withAttempts attempts
  | lockItems _ opts => exact h.changeItems _ fun item => item.id_lock opts
  | unlockItems _ status => exact h.changeItems _ fun item => item.id_unlock status
  | deleteOutboxItems => exact ⟨List.nodup_nil, h.deadLetters⟩
  | insertDeadLetter new => exact ⟨h.outboxItems, nodup_insertAll DlqRow.id h.deadLetters [new]⟩
  | setProcessed =>
    refine ⟨h.outboxItems, ?_⟩
    rw [PgStore.carryOut, map_key_changeRows DlqRow.id DlqRow.id_process]
    exact h.deadLetters
  | deleteProcessed =>
    exact ⟨h.outboxItems, h.deadLetters.sublist (List.filter_sublist.map DlqRow.id)⟩
  | deleteDeadLetters => exact ⟨h.outboxItems, List.nodup_nil⟩

end PgStore

/-! ## Rows and contents -/

theorem activeContent_some (item : OutboxItem) :
    activeContent (some item) = if item.isActive then some item.content else none := by
  rw [activeContent, Option.filter_some]
  split_ifs <;> rfl

theorem activeContent_map {change : OutboxItem → OutboxItem} {row : Option OutboxItem}
    (hactive : ∀ item, (change item).isActive = true)
    (hcontent : ∀ item, (change item).content = item.content) (hsome : activeContent row ≠ none) :
    activeContent (row.map change) = activeContent row := by
  cases row with
  | none => exact absurd rfl hsome
  | some item =>
    rw [activeContent_some] at hsome
    rw [Option.map_some, activeContent_some, activeContent_some, if_pos (hactive item), hcontent]
    split_ifs at hsome ⊢
    · rfl
    · exact absurd rfl hsome

theorem activeContent_map_of_inactive {change : OutboxItem → OutboxItem}
    (hinactive : ∀ item, (change item).isActive = false) (row : Option OutboxItem) :
    activeContent (row.map change) = none := by
  cases row with
  | none => rfl
  | some =>
    rw [Option.map_some, activeContent_some, hinactive]
    rfl

theorem activeContent_withAttempts (attempts : ℕ) (row : Option OutboxItem) :
    activeContent (row.map (·.withAttempts attempts)) =
      (activeContent row).map ({ · with attempts := attempts }) := by
  cases row with
  | none => rfl
  | some item =>
    have hsame : (item.withAttempts attempts).isActive = item.isActive := rfl
    rw [Option.map_some, activeContent_some, activeContent_some, hsame]
    split_ifs <;> rfl

namespace DeliveryStore

variable {s : DeliveryStore}

theorem Held.claimed_held (h : s.Held) (opts : ClaimOptions) :
    ∀ ref ∈ (s.claimReadyOutboxItems opts).1, ref ∈ s.outbox.refs := by
  intro ref hmem
  rw [DeliveryStore.claimReadyOutboxItems] at hmem
  dsimp only at hmem
  rw [changeMatching_snd (h.sameItems.nodup_flatMap nodup_priorities)] at hmem
  exact h.sameItems.mem_of_flatMap (List.mem_filter.mp hmem).1

theorem Held.stuck_held (h : s.Held) (opts : ClaimOptions) (change : OutboxItem → OutboxItem) :
    ∀ ref ∈ (Lib.changeMatching (·.isStuck opts) change s.outbox.refs s.objects).2,
      ref ∈ s.outbox.refs := by
  intro ref hmem
  rw [changeMatching_snd h.sameItems.nodup_refs] at hmem
  exact (List.mem_filter.mp hmem).1

theorem outboxItem_updateStatus (id : String) (status : WebhookDeliveryStatus) (now : ℤ)
    (id' : String) : (s.updateStatus id status now).outboxItem id' = s.outboxItem id' := by
  rw [updateStatus]
  split
  · rfl
  · dsimp only
    split_ifs <;> rfl

end DeliveryStore

namespace PgStore

variable {s : PgStore}

theorem Persisted.active_of_held (hp : s.Persisted) (h : s.mirror.Held) {refs : List ℕ}
    (hheld : ∀ ref ∈ refs, ref ∈ s.mirror.outbox.refs) {id : String}
    (hmem : id ∈ refs.map s.mirror.idOf) : activeContent (s.outboxRow id) ≠ none := by
  obtain ⟨ref, href, rfl⟩ := List.mem_map.mp hmem
  rw [← hp.outbox, h.outboxItem_idOf (hheld ref href)]
  nofun

theorem Persisted.activeContent_ite (hp : s.Persisted) (h : s.mirror.Held) {refs : List ℕ}
    (hheld : ∀ ref ∈ refs, ref ∈ s.mirror.outbox.refs) {change : OutboxItem → OutboxItem}
    (hactive : ∀ item, (change item).isActive = true)
    (hcontent : ∀ item, (change item).content = item.content) (id : String) :
    activeContent (if id ∈ refs.map s.mirror.idOf then (s.outboxRow id).map change
      else s.outboxRow id) = activeContent (s.outboxRow id) := by
  split_ifs with hmem
  · exact activeContent_map hactive hcontent (hp.active_of_held h hheld hmem)
  · rfl

theorem settle_match (refs : List ℕ) (idOf : ℕ → String) (write : List String → StoreWrite)
    (change : OutboxItem → OutboxItem) (id : String) (row : Option OutboxItem)
    (heffect : ∀ ids row, outboxEffect (write ids) id row =
      if id ∈ ids then row.map change else row) :
    settle outboxEffect (match refs with | [] => [] | refs => [write (refs.map idOf)]) id row =
      if id ∈ refs.map idOf then row.map change else row := by
  cases refs with
  | nil => rfl
  | cons => exact heffect _ row

theorem settle_singleton {write : StoreWrite} (change : OutboxItem → OutboxItem) {id id' : String}
    {row : Option OutboxItem}
    (heffect : outboxEffect write id row = if id ∈ [id'] then row.map change else row) :
    settle outboxEffect [write] id row = if id = id' then row.map change else row :=
  heffect.trans (if_congr List.mem_singleton rfl rfl)

theorem isActive_lock (opts : ClaimOptions) (item : OutboxItem) :
    (item.lock opts).isActive = true := rfl

theorem content_lock (opts : ClaimOptions) (item : OutboxItem) :
    (item.lock opts).content = item.content := rfl

theorem isActive_unlock_pending (item : OutboxItem) :
    (item.unlock .pending).isActive = true := rfl

theorem content_unlock (status : OutboxItemStatus) (item : OutboxItem) :
    (item.unlock status).content = item.content := rfl

theorem Persisted.content_of_find (hp : s.Persisted) {id : String} {ref : ℕ}
    (hfind : s.mirror.outbox.find id = some ref) :
    activeContent (s.outboxRow id) = some (s.mirror.objects ref).content := by
  rw [← hp.outbox id, DeliveryStore.outboxItem, hfind]
  rfl

theorem outbox_perform (h : s.mirror.Held) (hp : s.Persisted) {operation : StoreOperation}
    (hdurable : s.Durable (.perform operation)) (id : String) :
    ((s.mirror.perform operation).outboxItem id).map OutboxItem.content =
      activeContent (settle outboxEffect (s.mirror.persist operation) id (s.outboxRow id)) := by
  cases operation with
  | store | registerDeliveryId | addToDeadLetterQueue | cleanup => exact hp.outbox id
  | clear => rfl
  | updateStatus =>
    rw [DeliveryStore.perform, DeliveryStore.outboxItem_updateStatus]
    exact hp.outbox id
  | processDeadLetterQueueItem =>
    rw [DeliveryStore.perform, DeliveryStore.processDeadLetterQueueItem, DeliveryStore.persist]
    split_ifs <;> exact hp.outbox id
  | addToOutbox =>
    rw [DeliveryStore.perform, DeliveryStore.addToOutbox, h.outboxItem_hydrateOutboxItem]
    rw [DeliveryStore.persist, settle, List.foldl_cons, List.foldl_nil, outboxEffect]
    dsimp only
    split_ifs with hid
    · have hfresh : s.outboxRow id = none := hid ▸ hdurable
      rw [hfresh]
      rfl
    · exact hp.outbox id
  | removeFromOutbox id' =>
    rw [DeliveryStore.perform, DeliveryStore.removeFromOutbox, DeliveryStore.persist]
    cases hfind : s.mirror.outbox.find id' with
    | none => exact hp.outbox id
    | some =>
      dsimp only
      rw [DeliveryStore.outboxItem_dropItem, if_pos Option.isSome_some,
        settle_singleton OutboxItem.deliver rfl]
      split_ifs
      · exact (activeContent_map_of_inactive (fun _ => rfl) _).symm
      · exact hp.outbox id
  | updateOutboxItemAttempt id' attempts =>
    rw [DeliveryStore.perform, DeliveryStore.updateOutboxItemAttempt, DeliveryStore.persist,
      settle_singleton (·.withAttempts attempts) rfl]
    cases hfind : s.mirror.outbox.find id' with
    | none =>
      dsimp only
      split_ifs with hid
      · subst hid
        rw [activeContent_withAttempts, ← hp.outbox id, DeliveryStore.outboxItem, hfind]
        rfl
      · exact hp.outbox id
    | some =>
      dsimp only
      rw [h.outboxItem_setItem hfind]
      split_ifs with hid
      · subst hid
        rw [activeContent_withAttempts, hp.content_of_find hfind]
        rfl
      · exact hp.outbox id
  | claimReadyOutboxItems opts =>
    have hheld := h.claimed_held opts
    rw [DeliveryStore.persist, settle_match _ _ (.lockItems · opts) (·.lock opts) id _
      fun _ _ => rfl, hp.activeContent_ite h hheld (isActive_lock opts) (content_lock opts),
      ← hp.outbox]
    exact DeliveryStore.content_changeMatching _ (content_lock opts)
      (h.sameItems.nodup_flatMap DeliveryStore.nodup_priorities) id
  | reclaimStuckItems opts =>
    have hheld : ∀ ref ∈ (s.mirror.reclaimStuckItems opts).1, ref ∈ s.mirror.outbox.refs :=
      h.stuck_held opts _
    rw [DeliveryStore.persist, settle_match _ _ (.lockItems · opts) (·.lock opts) id _
      fun _ _ => rfl, hp.activeContent_ite h hheld (isActive_lock opts) (content_lock opts),
      ← hp.outbox]
    exact DeliveryStore.content_changeMatching _ (content_lock opts) h.sameItems.nodup_refs id
  | releaseExpiredLeases opts =>
    have hheld : ∀ ref ∈ (s.mirror.releaseExpiredLeases opts).1, ref ∈ s.mirror.outbox.refs :=
      h.stuck_held opts _
    rw [DeliveryStore.persist, settle_match _ _ (.unlockItems · .pending) (·.unlock .pending) id _
      fun _ _ => rfl, hp.activeContent_ite h hheld isActive_unlock_pending (content_unlock _),
      ← hp.outbox]
    exact DeliveryStore.content_changeMatching _ (content_unlock _) h.sameItems.nodup_refs id
  | releaseOutboxItem id' workerId =>
    rw [DeliveryStore.perform, DeliveryStore.releaseOutboxItem, DeliveryStore.persist,
      DeliveryStore.releaseOutboxItem]
    cases hlocked : s.mirror.lockedItem id' workerId with
    | none => exact hp.outbox id
    | some =>
      have hfind := (DeliveryStore.find_of_lockedItem hlocked).1
      dsimp only
      rw [h.outboxItem_setItem hfind, if_pos rfl,
        settle_singleton (·.unlock .pending) rfl]
      split_ifs with hid
      · subst hid
        have hrow := hp.content_of_find hfind
        rw [activeContent_map isActive_unlock_pending (content_unlock _), hrow]
        · rfl
        · rw [hrow]
          intro hnone
          cases hnone
      · exact hp.outbox id
  | markOutboxItemDelivered id' workerId =>
    rw [DeliveryStore.perform, DeliveryStore.markOutboxItemDelivered, DeliveryStore.persist,
      DeliveryStore.markOutboxItemDelivered]
    cases hlocked : s.mirror.lockedItem id' workerId with
    | none => exact hp.outbox id
    | some =>
      have hfind := (DeliveryStore.find_of_lockedItem hlocked).1
      dsimp only
      rw [DeliveryStore.outboxItem_dropItem, h.outboxItem_setItem hfind, if_pos rfl,
        settle_singleton (·.unlock .delivered) rfl]
      split_ifs
      · exact (activeContent_map_of_inactive (fun _ => rfl) _).symm
      · exact hp.outbox id

theorem openItem_filter (cutoff : ℤ) (row : Option DlqRow) :
    openItem (row.filter fun row => !(row.processed && row.createdAt < cutoff)) = openItem row := by
  rw [openItem, openItem, Option.filter_filter]
  refine congrArg (fun test => (row.filter test).map DlqRow.item) (funext fun row => ?_)
  cases row.processed <;> simp

theorem openItem_process (row : Option DlqRow) : openItem (row.map DlqRow.process) = none := by
  cases row <;> rfl

theorem deadLetters_perform (hp : s.Persisted) {operation : StoreOperation}
    (hdurable : s.Durable (.perform operation)) (id : String) :
    (s.mirror.perform operation).deadLetter id =
      openItem (settle deadLetterEffect (s.mirror.persist operation) id (s.deadLetterRow id)) := by
  cases operation with
  | store | registerDeliveryId | addToOutbox => exact hp.deadLetters id
  | clear => rfl
  | updateStatus id' status now =>
    have hsame : (s.mirror.updateStatus id' status now).deadLetterQueue =
        s.mirror.deadLetterQueue := by
      rw [DeliveryStore.updateStatus]
      split
      · rfl
      · dsimp only
        split_ifs <;> rfl
    rw [DeliveryStore.perform, DeliveryStore.deadLetter, hsame]
    exact hp.deadLetters id
  | removeFromOutbox id' =>
    rw [DeliveryStore.perform, DeliveryStore.removeFromOutbox, DeliveryStore.persist]
    cases s.mirror.outbox.find id' <;> exact hp.deadLetters id
  | updateOutboxItemAttempt id' =>
    rw [DeliveryStore.perform, DeliveryStore.updateOutboxItemAttempt]
    cases s.mirror.outbox.find id' <;> exact hp.deadLetters id
  | claimReadyOutboxItems | reclaimStuckItems | releaseExpiredLeases =>
    rw [DeliveryStore.persist]
    split <;> exact hp.deadLetters id
  | releaseOutboxItem id' workerId =>
    rw [DeliveryStore.perform, DeliveryStore.releaseOutboxItem, DeliveryStore.persist,
      DeliveryStore.releaseOutboxItem]
    cases s.mirror.lockedItem id' workerId <;> exact hp.deadLetters id
  | markOutboxItemDelivered id' workerId =>
    rw [DeliveryStore.perform, DeliveryStore.markOutboxItemDelivered, DeliveryStore.persist,
      DeliveryStore.markOutboxItemDelivered]
    cases s.mirror.lockedItem id' workerId <;> exact hp.deadLetters id
  | addToDeadLetterQueue =>
    rw [DeliveryStore.perform, DeliveryStore.deadLetter, DeliveryStore.addToDeadLetterQueue,
      DeliveryStore.persist, settle, List.foldl_cons, List.foldl_nil, deadLetterEffect]
    dsimp only
    split_ifs with hid
    · have hfresh : s.deadLetterRow id = none := hid ▸ hdurable
      rw [hfresh, hid, Properties.lookup_set_self]
      rfl
    · rw [Properties.lookup_set_of_ne hid]
      exact hp.deadLetters id
  | processDeadLetterQueueItem =>
    rw [DeliveryStore.perform, DeliveryStore.processDeadLetterQueueItem, DeliveryStore.persist]
    split_ifs
    · rw [DeliveryStore.deadLetter, Properties.lookup_erase, settle, List.foldl_cons,
        List.foldl_nil, deadLetterEffect, if_congr List.mem_singleton rfl rfl]
      split_ifs
      · exact (openItem_process _).symm
      · exact hp.deadLetters id
    · exact hp.deadLetters id
  | cleanup cutoff =>
    have hkept : (s.mirror.deadLetterQueue.filter fun entry =>
        decide (cutoff ≤ entry.2.createdAt)) = s.mirror.deadLetterQueue :=
      List.filter_eq_self.mpr fun entry hmem => decide_eq_true (hdurable entry hmem)
    rw [DeliveryStore.perform, DeliveryStore.deadLetter, DeliveryStore.cleanup]
    dsimp only
    rw [hkept]
    exact (hp.deadLetters id).trans (openItem_filter cutoff _).symm

theorem Persisted.not_mem_keys (hp : s.Persisted) {id : String} (hnone : s.outboxRow id = none) :
    id ∉ Properties.keys s.mirror.outbox.entries := by
  have hitem := hp.outbox id
  rw [hnone] at hitem
  have hfind : s.mirror.outbox.entries.lookup id = none :=
    Option.map_eq_none_iff.mp (Option.map_eq_none_iff.mp hitem)
  intro hmem
  obtain ⟨entry, hentry, rfl⟩ := List.mem_map.mp hmem
  exact bne_iff_ne.mp (List.lookup_eq_none_iff.mp hfind entry hentry) rfl

end PgStore

/-! ## A new process -/

namespace DeliveryStore

variable {s : DeliveryStore}

theorem Held.load (h : s.Held) {items : List OutboxItem}
    (hnodup : (items.map OutboxItem.id).Nodup)
    (hfresh : ∀ item ∈ items, item.id ∉ Properties.keys s.outbox.entries) :
    (items.foldl DeliveryStore.hydrateOutboxItem s).Held ∧ ∀ id,
      (items.foldl DeliveryStore.hydrateOutboxItem s).outboxItem id =
        (row OutboxItem.id items id).or (s.outboxItem id) := by
  induction items generalizing s with
  | nil => exact ⟨h, fun _ => rfl⟩
  | cons first rest ih =>
    obtain ⟨hnot, hrest⟩ := List.nodup_cons.mp hnodup
    rw [List.forall_mem_cons] at hfresh
    have hkeys : ∀ item ∈ rest,
        item.id ∉ Properties.keys (s.hydrateOutboxItem first).outbox.entries := by
      intro item hmem hheld
      rw [DeliveryStore.hydrateOutboxItem, Indexed.insert] at hheld
      dsimp only at hheld
      rw [Properties.keys_set_of_not_mem hfresh.1, List.mem_append, List.mem_singleton] at hheld
      rcases hheld with hheld | hsame
      · exact hfresh.2 item hmem hheld
      · exact hnot (hsame ▸ List.mem_map_of_mem hmem)
    obtain ⟨hheld, hitem⟩ := ih (h.hydrateOutboxItem hfresh.1) hrest hkeys
    refine ⟨hheld, fun id => ?_⟩
    rw [List.foldl_cons, hitem, h.outboxItem_hydrateOutboxItem, row, row, List.find?_cons]
    by_cases hid : id = first.id
    · subst hid
      have hnone : rest.find? (fun item => decide (item.id = first.id)) = none :=
        (row_eq_none_iff OutboxItem.id).mpr hnot
      rw [if_pos rfl, hnone, decide_eq_true rfl]
      rfl
    · rw [if_neg hid, decide_eq_false (Ne.symm hid)]

theorem deadLetterQueue_load (items : List OutboxItem) :
    (items.foldl DeliveryStore.hydrateOutboxItem s).deadLetterQueue = s.deadLetterQueue := by
  induction items generalizing s with
  | nil => rfl
  | cons _ _ ih => exact ih

end DeliveryStore

namespace PgStore

variable {s s' : PgStore} {reparse : WebhookDelivery → Option WebhookDelivery}

/-- What holds along a run. -/
structure Inv (s : PgStore) : Prop where
  held : s.mirror.Held
  keyed : s.Keyed
  persisted : s.Persisted

theorem Inv.no_open_row (h : s.Inv) (hwrites : s.writes = [])
    (hempty : s.mirror.deadLetterQueue = []) : s.deadLetters.filter (!·.processed) = [] := by
  apply List.filter_eq_nil_iff.mpr
  intro letter hmem hopen
  have hrow : row DlqRow.id s.deadLetters letter.id = some letter :=
    (find?_key_eq_some_iff DlqRow.id h.keyed.deadLetters).mpr ⟨hmem, rfl⟩
  have hitem := h.persisted.deadLetters letter.id
  rw [DeliveryStore.deadLetter, hempty, deadLetterRow, hwrites, settle, List.foldl_nil, hrow,
    openItem, Option.filter_some, if_pos hopen] at hitem
  cases hitem

theorem Inv.hydrated (h : s.Inv) (reparse : WebhookDelivery → Option WebhookDelivery)
    (hwrites : s.writes = [])
    (hempty : s.mirror.deadLetterQueue = []) (ids : ℕ → String) (now : ℤ) :
    let mirror := hydrate reparse ids now s.outboxItems s.deadLetters
    mirror.Held ∧ mirror.deadLetterQueue = [] ∧
      ∀ id, mirror.outboxItem id =
        (row OutboxItem.id s.outboxItems id).filter OutboxItem.isActive := by
  intro mirror
  have hmirror : mirror = ((s.outboxItems.filter (·.isActive)).insertionSort
      OutboxItem.IsSooner).foldl DeliveryStore.hydrateOutboxItem {} := by
    change Webhooks.hydrate reparse ids now s.outboxItems s.deadLetters = _
    rw [Webhooks.hydrate, h.no_open_row hwrites hempty]
    rfl
  have hperm := (s.outboxItems.filter (·.isActive)).perm_insertionSort OutboxItem.IsSooner
  have hactive : ((s.outboxItems.filter (·.isActive)).map OutboxItem.id).Nodup :=
    h.keyed.outboxItems.sublist (List.filter_sublist.map OutboxItem.id)
  have hsorted := (hperm.map OutboxItem.id).nodup_iff.mpr hactive
  obtain ⟨hheld, hitem⟩ := (DeliveryStore.Held.empty default 0).load hsorted
    fun _ _ hmem => nomatch hmem
  rw [hmirror]
  refine ⟨hheld, DeliveryStore.deadLetterQueue_load _, fun id => ?_⟩
  exact (hitem id).trans ((Option.or_none).trans
    ((row_perm OutboxItem.id hperm hsorted id).trans
      (row_filter OutboxItem.id h.keyed.outboxItems _ id)))

theorem Inv.restart (h : s.Inv) (reparse : WebhookDelivery → Option WebhookDelivery)
    (hwrites : s.writes = [])
    (hempty : s.mirror.deadLetterQueue = []) (ids : ℕ → String) (now : ℤ) :
    let s' := { s with mirror := hydrate reparse ids now s.outboxItems s.deadLetters }
    s'.Inv ∧ s.mirror.SameItems s'.mirror := by
  intro s'
  obtain ⟨hheld, hqueue, hitem⟩ := h.hydrated reparse hwrites hempty ids now
  have houtbox : ∀ id, (s'.mirror.outboxItem id).map OutboxItem.content =
      (s.mirror.outboxItem id).map OutboxItem.content := by
    intro id
    rw [h.persisted.outbox, outboxRow, hwrites, hitem]
    rfl
  have hletters : ∀ id, s'.mirror.deadLetter id = s.mirror.deadLetter id := by
    intro id
    rw [DeliveryStore.deadLetter, DeliveryStore.deadLetter, hqueue, hempty]
  refine ⟨⟨hheld, ⟨h.keyed.outboxItems, h.keyed.deadLetters⟩, ?_, ?_⟩, houtbox, hletters⟩
  · exact fun id => (houtbox id).trans (h.persisted.outbox id)
  · exact fun id => (hletters id).trans (h.persisted.deadLetters id)

theorem Inv.perform (h : s.Inv) {operation : StoreOperation}
    (hdurable : s.Durable (.perform operation)) :
    Inv { s with
      mirror := s.mirror.perform operation
      writes := s.writes ++ s.mirror.persist operation } where
  held := h.held.perform operation fun id item heq => by
    subst heq
    exact h.persisted.not_mem_keys hdurable
  keyed := ⟨h.keyed.outboxItems, h.keyed.deadLetters⟩
  persisted := by
    apply Persisted.mk
    · intro id
      rw [outboxRow]
      dsimp only
      rw [settle_append]
      exact outbox_perform h.held h.persisted hdurable id
    · intro id
      rw [deadLetterRow]
      dsimp only
      rw [settle_append]
      exact deadLetters_perform h.persisted hdurable id

theorem Inv.carryOut (h : s.Inv) {i : ℕ} {write : StoreWrite} (hget : s.writes[i]? = some write)
    (hdurable : s.Durable (.carryOut i)) :
    Inv { s.carryOut write with writes := s.writes.eraseIdx i } := by
  have hmirror : (s.carryOut write).mirror = s.mirror := by cases write <;> rfl
  have hapart := hdurable write hget
  refine ⟨hmirror.symm ▸ h.held, ?_, ?_, ?_⟩
  · exact ⟨(h.keyed.carryOut write).outboxItems, (h.keyed.carryOut write).deadLetters⟩
  · intro id
    rw [outboxRow]
    dsimp only
    rw [hmirror, row_carryOut, settle_eraseIdx hget fun earlier hmem => (hapart earlier hmem).1]
    exact h.persisted.outbox id
  · intro id
    rw [deadLetterRow]
    dsimp only
    rw [hmirror, deadLetterRow_carryOut h.keyed.deadLetters,
      settle_eraseIdx hget fun earlier hmem => (hapart earlier hmem).2]
    exact h.persisted.deadLetters id

theorem Inv.step (h : s.Inv) {label : PgStep} (hdurable : s.Durable label)
    (hstep : s.step reparse label = some s') : s'.Inv ∧ s.Keeps label s' := by
  cases label with
  | perform =>
    cases hstep
    have hinv := h.perform hdurable
    exact ⟨hinv, hinv.persisted, trivial⟩
  | carryOut =>
    obtain ⟨write, hget, rfl⟩ := Option.map_eq_some_iff.mp hstep
    have hinv := h.carryOut hget hdurable
    exact ⟨hinv, hinv.persisted, trivial⟩
  | fail => cases hdurable
  | restart ids now =>
    cases hstep
    obtain ⟨hinv, hsame⟩ := h.restart reparse hdurable.1 hdurable.2 ids now
    exact ⟨hinv, hinv.persisted, hsame⟩

theorem Inv.init : Inv {} where
  held := .empty _ _
  keyed := ⟨List.nodup_nil, List.nodup_nil⟩
  persisted := ⟨fun _ => rfl, fun _ => rfl⟩

/-- Along every run whose steps are durable, what is stored is what the mirror holds, and a new
process has what the old one had. -/
theorem keeps_of_durable (reparse : WebhookDelivery → Option WebhookDelivery)
    (labels : List PgStep)
    (hdurable : EveryStep (PgStore.step reparse) (fun s label _ => s.Durable label) {} labels) :
    EveryStep (PgStore.step reparse) PgStore.Keeps {} labels := by
  apply EveryStep.imp Inv _ Inv.init hdurable
  intro s label s' hinv hstep hlabel
  obtain ⟨hinv', hkeeps⟩ := hinv.step hlabel hstep
  exact ⟨hkeeps, hinv'⟩

def failedDelivery : WebhookDelivery :=
  ⟨"delivery_1", "deliv_1", "evt_1", "stream.created", "https://consumer.example/hook",
    .permanentFailure, [], 0, 0, "{}"⟩

/-- An item is added and removed and a dead letter is added and processed; another item is there
when the process ends. -/
def settledRun : List PgStep :=
  [.perform (.addToOutbox "outbox_1" default), .carryOut 0,
    .perform (.addToDeadLetterQueue "dlq_1" 0 failedDelivery "HTTP 500" .other),
    .perform (.addToOutbox "outbox_2" { (default : NewOutboxItem) with payload := "5" }),
    .carryOut 1, .carryOut 0, .perform (.processDeadLetterQueueItem "dlq_1"),
    .perform (.removeFromOutbox "outbox_1"), .carryOut 0, .carryOut 0,
    .restart (fun _ => "dlq_2") 1]

theorem settledRun_keeps : EveryStep (PgStore.step fun _ => none) PgStore.Keeps {} settledRun := by
  apply keeps_of_durable
  have hfirst : ∀ s : PgStore, s.Durable (.carryOut 0) := fun s write _ _ hmem => nomatch hmem
  intro _ h
  cases h
  refine ⟨rfl, fun _ h => ?_⟩
  cases h
  refine ⟨hfirst _, fun _ h => ?_⟩
  cases h
  refine ⟨rfl, fun _ h => ?_⟩
  cases h
  refine ⟨rfl, fun _ h => ?_⟩
  cases h
  refine ⟨?_, fun _ h => ?_⟩
  · intro write hwrite earlier hmem
    cases hwrite
    obtain rfl := List.mem_singleton.mp hmem
    exact ⟨fun _ => .inl fun _ => rfl, fun _ => .inr fun _ => rfl⟩
  cases h
  refine ⟨hfirst _, fun _ h => ?_⟩
  cases h
  refine ⟨trivial, fun _ h => ?_⟩
  cases h
  refine ⟨trivial, fun _ h => ?_⟩
  cases h
  refine ⟨hfirst _, fun _ h => ?_⟩
  cases h
  refine ⟨hfirst _, fun _ h => ?_⟩
  cases h
  exact ⟨⟨rfl, rfl⟩, trivial⟩

/-- A process that ends with a dead letter. -/
def lostLetter : List PgStep :=
  [.perform (.addToDeadLetterQueue "dlq_1" 0 failedDelivery "HTTP 500" .other), .carryOut 0,
    .restart (fun _ => "dlq_2") 1]

/-- The new one does not have it, although its row is stored. -/
theorem lostLetter_notRestored : ¬ ∀ (reparse : WebhookDelivery → Option WebhookDelivery)
    (labels : List PgStep), EveryStep (PgStore.step reparse) PgStore.Keeps {} labels := by
  intro hkeeps
  have hrestart := (((hkeeps (fun _ => none) lostLetter _ rfl).2 _ rfl).2 _ rfl).1.2
  have hlost := hrestart.deadLetters "dlq_1"
  cases hlost

end PgStore

end Fluxora.Webhooks
