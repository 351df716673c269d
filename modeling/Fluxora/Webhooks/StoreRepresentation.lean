/-
# What the store of deliveries holds redundantly

The map and the arrays of the outbox hold the same items, the counters are the sizes, and an item
is in flight exactly when its lock is set. Every operation keeps this, with four exceptions: an
item that is added or loaded under an id that is held already, an item with lock fields that do not
fit its status, and a cleanup that deletes dead letters.
-/

import Fluxora.Webhooks.DeliveryStore

namespace Fluxora.Webhooks

open Lib Lib.Transition

/-! ## The representation -/

/-- In flight with both lock fields, or neither. -/
def OutboxItem.LocksMatch (item : OutboxItem) : Prop :=
  (item.status = .inFlight ∧ item.lockedAt.isSome ∧ item.lockedBy.isSome) ∨
    (item.status ≠ .inFlight ∧ item.lockedAt = none ∧ item.lockedBy = none)

instance (item : OutboxItem) : Decidable item.LocksMatch :=
  inferInstanceAs (Decidable (_ ∨ _))

namespace DeliveryStore

variable (s : DeliveryStore)

def idOf (ref : ℕ) : String := (s.objects ref).id

def priorityOf (ref : ℕ) : String := (s.objects ref).priority

structure Represents : Prop where
  sameItems : s.outbox.Consistent s.idOf s.priorityOf
  outboxItems : s.metrics.outboxItems = s.outbox.entries.length
  dlqItems : s.metrics.dlqItems = s.deadLetterQueue.length
  locks : ∀ ref ∈ s.outbox.refs, (s.objects ref).LocksMatch

/-- No call hands out an item twice. -/
def ClaimsOnce : Prop :=
  ∀ opts, ((s.claimReadyOutboxItems opts).1.map s.idOf).Nodup

end DeliveryStore

/-- What the steps that may break the representation have to meet: ids that are drawn or loaded
are not held yet, lock fields fit the status, and no dead letter is deleted by a cleanup. -/
def KeepsApart (w : StoreWorld) : StoreStep → Prop
  | .perform (.addToOutbox id item) =>
    id ∉ Properties.keys w.mirror.outbox.entries ∧ item.lockedAt = none ∧ item.lockedBy = none
  | .perform (.addToDeadLetterQueue id _ _ _ _) => id ∉ Properties.keys w.mirror.deadLetterQueue
  | .perform (.cleanup cutoff) =>
    ∀ entry ∈ w.mirror.deadLetterQueue, cutoff ≤ entry.2.createdAt
  | .outboxLoaded rows => ∀ row ∈ rows.rows,
      row.id ∉ Properties.keys w.mirror.outbox.entries ∧ row.LocksMatch
  | .deadLettersLoaded _ rows => (rows.map (·.id)).Nodup ∧
      ∀ row ∈ rows, row.id ∉ Properties.keys w.mirror.deadLetterQueue
  | _ => True

instance (w : StoreWorld) : DecidablePred (KeepsApart w) := fun label => by
  unfold KeepsApart
  split <;> infer_instance

/-! ## Objects that are held -/

namespace OutboxItem

variable (item : OutboxItem)

theorem id_lock (opts : ClaimOptions) : (item.lock opts).id = item.id := rfl

theorem priority_lock (opts : ClaimOptions) : (item.lock opts).priority = item.priority := rfl

variable (status : OutboxItemStatus)

theorem id_unlock : (item.unlock status).id = item.id := rfl

theorem priority_unlock : (item.unlock status).priority = item.priority := rfl

end OutboxItem

/-- The map and the arrays hold the same objects, and these have been made. -/
structure DeliveryStore.Held (s : DeliveryStore) : Prop where
  sameItems : s.outbox.Consistent s.idOf s.priorityOf
  made : ∀ ref ∈ s.outbox.refs, ref < s.made

namespace DeliveryStore

variable {s : DeliveryStore} {ref : ℕ}

theorem Held.empty (objects : ℕ → OutboxItem) (made : ℕ) :
    Held { objects := objects, made := made } where
  sameItems := .empty _ _
  made _ h := absurd h List.not_mem_nil

theorem Held.setObjects (h : s.Held) {objects : ℕ → OutboxItem}
    (hid : ∀ ref, (objects ref).id = (s.objects ref).id)
    (hpriority : ∀ ref, (objects ref).priority = (s.objects ref).priority) :
    Held { s with objects := objects } where
  sameItems := h.sameItems.congr (fun ref _ => hid ref) fun ref _ => hpriority ref
  made := h.made

theorem objects_hydrateOutboxItem_self (item : OutboxItem) :
    (s.hydrateOutboxItem item).objects s.made = item := Function.update_self _ _ _

theorem Held.objects_hydrateOutboxItem (h : s.Held) (item : OutboxItem)
    (hheld : ref ∈ s.outbox.refs) : (s.hydrateOutboxItem item).objects ref = s.objects ref :=
  Function.update_of_ne (Nat.ne_of_lt (h.made ref hheld)) _ _

variable {item : OutboxItem}

theorem mem_refs_hydrateOutboxItem (hfresh : item.id ∉ Properties.keys s.outbox.entries) (ref : ℕ) :
    ref ∈ (s.hydrateOutboxItem item).outbox.refs ↔ ref ∈ s.outbox.refs ∨ ref = s.made := by
  rw [DeliveryStore.hydrateOutboxItem, Indexed.refs_insert hfresh, List.mem_append,
    List.mem_singleton]

theorem Held.hydrateOutboxItem (h : s.Held) (hfresh : item.id ∉ Properties.keys s.outbox.entries) :
    (s.hydrateOutboxItem item).Held where
  sameItems := by
    have hheld : s.outbox.Consistent (s.hydrateOutboxItem item).idOf
        (s.hydrateOutboxItem item).priorityOf :=
      h.sameItems.congr
        (fun ref hheld => congrArg OutboxItem.id (h.objects_hydrateOutboxItem item hheld))
        fun ref hheld => congrArg (·.priority) (h.objects_hydrateOutboxItem item hheld)
    have hid : (s.hydrateOutboxItem item).idOf s.made = item.id :=
      congrArg OutboxItem.id (objects_hydrateOutboxItem_self item)
    have hpriority : (s.hydrateOutboxItem item).priorityOf s.made = item.priority :=
      congrArg (·.priority) (objects_hydrateOutboxItem_self item)
    have hinserted := hheld.insert (fun hmem => Nat.lt_irrefl _ (h.made _ hmem)) (hid ▸ hfresh)
    rw [hid, hpriority] at hinserted
    exact hinserted
  made ref hmem := by
    rcases (mem_refs_hydrateOutboxItem hfresh ref).mp hmem with hheld | rfl
    · exact Nat.lt_succ_of_lt (h.made ref hheld)
    · exact Nat.lt_succ_self _

theorem Held.dropItem (h : s.Held) (hheld : ref ∈ s.outbox.refs) :
    (s.dropItem (s.idOf ref) ref).Held where
  sameItems := h.sameItems.remove hheld
  made other hmem :=
    h.made other ((h.sameItems.mem_refs_remove hheld (s.priorityOf ref) other).mp hmem).1

theorem Held.changeMatching (h : s.Held) (test : OutboxItem → Bool)
    {change : OutboxItem → OutboxItem} (hid : ∀ item, (change item).id = item.id)
    (hpriority : ∀ item, (change item).priority = item.priority) {refs : List ℕ}
    (hnodup : refs.Nodup) :
    Held { s with objects := (changeMatching test change refs s.objects).1 } := by
  apply h.setObjects
  · intro ref
    rw [changeMatching_fst hnodup]
    split_ifs
    · exact hid _
    · rfl
  · intro ref
    rw [changeMatching_fst hnodup]
    split_ifs
    · exact hpriority _
    · rfl

theorem Held.setItem (h : s.Held) (hid : item.id = s.idOf ref)
    (hpriority : item.priority = s.priorityOf ref) : (s.setItem ref item).Held := by
  have happly : ∀ other, Function.update s.objects ref item other =
      if other = ref then item else s.objects other := fun other => Function.update_apply _ _ _ _
  apply h.setObjects
  · intro other
    rw [happly]
    split_ifs with hsame
    · exact hsame ▸ hid
    · rfl
  · intro other
    rw [happly]
    split_ifs with hsame
    · exact hsame ▸ hpriority
    · rfl

theorem Held.of_find (h : s.Held) {id : String} (hfind : s.outbox.find id = some ref) :
    ref ∈ s.outbox.refs ∧ s.idOf ref = id := h.sameItems.find_eq_some_iff.mp hfind

end DeliveryStore

/-! ## The invariant -/

/-- The representation, with what later operations need: objects are made once, and dead letters
have one id each. -/
structure DeliveryStore.Sound (s : DeliveryStore) : Prop extends s.Represents where
  made : ∀ ref ∈ s.outbox.refs, ref < s.made
  deadLetters : (Properties.keys s.deadLetterQueue).Nodup

namespace DeliveryStore

theorem Sound.init : Sound {} where
  sameItems := .empty _ _
  outboxItems := rfl
  dlqItems := rfl
  locks _ h := absurd h List.not_mem_nil
  made _ h := absurd h List.not_mem_nil
  deadLetters := List.nodup_nil

variable {s : DeliveryStore} {ref : ℕ}

theorem Sound.held (h : s.Sound) : s.Held := ⟨h.sameItems, h.made⟩

theorem Sound.clear (_ : s.Sound) : s.clear.Sound where
  sameItems := .empty _ _
  outboxItems := rfl
  dlqItems := rfl
  locks _ h := absurd h List.not_mem_nil
  made _ h := absurd h List.not_mem_nil
  deadLetters := List.nodup_nil

theorem Sound.setObjects (h : s.Sound) {objects : ℕ → OutboxItem}
    (hid : ∀ ref, (objects ref).id = (s.objects ref).id)
    (hpriority : ∀ ref, (objects ref).priority = (s.objects ref).priority)
    (hlocks : ∀ ref, (s.objects ref).LocksMatch → (objects ref).LocksMatch) :
    Sound { s with objects := objects } where
  sameItems := (h.held.setObjects hid hpriority).sameItems
  outboxItems := h.outboxItems
  dlqItems := h.dlqItems
  locks ref hheld := hlocks ref (h.locks ref hheld)
  made := h.made
  deadLetters := h.deadLetters

theorem Sound.hydrateOutboxItem (h : s.Sound) {item : OutboxItem}
    (hfresh : item.id ∉ Properties.keys s.outbox.entries) (hlocks : item.LocksMatch) :
    (s.hydrateOutboxItem item).Sound := by
  have hheld := h.held.hydrateOutboxItem hfresh
  refine ⟨⟨hheld.sameItems, ?_, h.dlqItems, ?_⟩, hheld.made, h.deadLetters⟩
  · have hlength := congrArg List.length
      (Indexed.entries_insert (t := s.outbox) hfresh item.priority s.made)
    rw [List.length_append] at hlength
    have hcount := h.outboxItems
    rw [DeliveryStore.hydrateOutboxItem]
    dsimp only
    rw [hlength, hcount]
    rfl
  · intro ref hmem
    rcases (mem_refs_hydrateOutboxItem hfresh ref).mp hmem with hheld | rfl
    · rw [h.held.objects_hydrateOutboxItem item hheld]
      exact h.locks ref hheld
    · rw [objects_hydrateOutboxItem_self]
      exact hlocks

theorem Sound.dropItem (h : s.Sound) (hheld : ref ∈ s.outbox.refs) :
    (s.dropItem (s.idOf ref) ref).Sound := by
  have hrefs := h.sameItems.mem_refs_remove hheld (s.priorityOf ref)
  have hdropped := h.held.dropItem hheld
  refine ⟨⟨hdropped.sameItems, ?_, h.dlqItems, ?_⟩, hdropped.made, h.deadLetters⟩
  · have hlength := h.sameItems.length_remove hheld (s.priorityOf ref)
    have hcount := h.outboxItems
    rw [← hlength, Nat.cast_succ] at hcount
    exact sub_eq_of_eq_add hcount
  · exact fun other hmem => h.locks other ((hrefs other).mp hmem).1

theorem Sound.updateStatus (h : s.Sound) (id : String) (status : WebhookDeliveryStatus) (now : ℤ) :
    (s.updateStatus id status now).Sound := by
  rw [DeliveryStore.updateStatus]
  split
  · exact h
  · dsimp only
    split_ifs <;>
      exact ⟨⟨h.sameItems, h.outboxItems, h.dlqItems, h.locks⟩, h.made, h.deadLetters⟩

/-! ## Objects that change in place -/

theorem locksMatch_lock (item : OutboxItem) (opts : ClaimOptions) : (item.lock opts).LocksMatch :=
  .inl ⟨rfl, rfl, rfl⟩

theorem locksMatch_unlock (item : OutboxItem) {status : OutboxItemStatus}
    (hstatus : status ≠ .inFlight) : (item.unlock status).LocksMatch :=
  .inr ⟨hstatus, rfl, rfl⟩

theorem Sound.changeMatching (h : s.Sound) (test : OutboxItem → Bool)
    (change : OutboxItem → OutboxItem) (hid : ∀ item, (change item).id = item.id)
    (hpriority : ∀ item, (change item).priority = item.priority)
    (hlocks : ∀ item, (change item).LocksMatch) {refs : List ℕ} (hnodup : refs.Nodup) :
    Sound { s with objects := (changeMatching test change refs s.objects).1 } := by
  refine h.setObjects (fun ref => ?_) (fun ref => ?_) fun ref hmatch => ?_
  · rw [changeMatching_fst hnodup]
    split_ifs
    · exact hid _
    · rfl
  · rw [changeMatching_fst hnodup]
    split_ifs
    · exact hpriority _
    · rfl
  · rw [changeMatching_fst hnodup]
    split_ifs
    · exact hlocks _
    · exact hmatch

theorem nodup_priorities : priorities.Nodup := by decide

theorem Sound.claimReadyOutboxItems (h : s.Sound) (opts : ClaimOptions) :
    (s.claimReadyOutboxItems opts).2.Sound :=
  h.changeMatching _ (·.lock opts) (fun _ => rfl) (fun _ => rfl)
    (fun item => locksMatch_lock item opts) (h.sameItems.nodup_flatMap nodup_priorities)

theorem Sound.setItem (h : s.Sound) (ref : ℕ) (item : OutboxItem)
    (hid : item.id = s.idOf ref) (hpriority : item.priority = s.priorityOf ref)
    (hlocks : (s.objects ref).LocksMatch → item.LocksMatch) : (s.setItem ref item).Sound := by
  have happly : ∀ other, Function.update s.objects ref item other =
      if other = ref then item else s.objects other := fun other => Function.update_apply _ _ _ _
  refine h.setObjects (fun other => ?_) (fun other => ?_) fun other hmatch => ?_
  · rw [happly]
    split_ifs with hsame
    · rw [hsame]
      exact hid
    · rfl
  · rw [happly]
    split_ifs with hsame
    · rw [hsame]
      exact hpriority
    · rfl
  · rw [happly]
    split_ifs with hsame
    · exact hlocks (hsame ▸ hmatch)
    · exact hmatch

theorem idOf_setItem_unlock (ref : ℕ) (status : OutboxItemStatus) :
    (s.setItem ref ((s.objects ref).unlock status)).idOf ref = s.idOf ref := by
  rw [idOf, DeliveryStore.setItem]
  dsimp only
  rw [Function.update_self]
  rfl

theorem Sound.of_find (h : s.Sound) {id : String} (hfind : s.outbox.find id = some ref) :
    ref ∈ s.outbox.refs ∧ s.idOf ref = id := h.held.of_find hfind

theorem find_of_lockedItem {id workerId : String} (hlocked : s.lockedItem id workerId = some ref) :
    s.outbox.find id = some ref ∧ (s.objects ref).lockedBy = some workerId := by
  obtain ⟨hfind, hlock⟩ := Option.filter_eq_some_iff.mp hlocked
  exact ⟨hfind, of_decide_eq_true hlock⟩

theorem Sound.releaseOutboxItem (h : s.Sound) (id workerId : String) :
    (s.releaseOutboxItem id workerId).2.Sound := by
  rw [DeliveryStore.releaseOutboxItem]
  split
  · exact h
  · exact h.setItem _ _ rfl rfl fun _ => locksMatch_unlock _ nofun

theorem Sound.markOutboxItemDelivered (h : s.Sound) (id workerId : String) :
    (s.markOutboxItemDelivered id workerId).2.Sound := by
  rw [DeliveryStore.markOutboxItemDelivered]
  split
  · exact h
  · next ref hlocked =>
      obtain ⟨hheld, hid⟩ := h.of_find (find_of_lockedItem hlocked).1
      have hset := h.setItem ref ((s.objects ref).unlock .delivered) rfl rfl
        fun _ => locksMatch_unlock _ nofun
      have hdropped := hset.dropItem hheld
      rw [idOf_setItem_unlock, hid] at hdropped
      exact hdropped

/-! ## Dead letters -/

theorem Sound.addToDeadLetterQueue (h : s.Sound) {id : String}
    (hfresh : id ∉ Properties.keys s.deadLetterQueue) (now : ℤ) (delivery : WebhookDelivery)
    (failureReason : String) (reasonCode : DLQReasonCode) :
    (s.addToDeadLetterQueue id now delivery failureReason reasonCode).Sound := by
  refine ⟨⟨h.sameItems, h.outboxItems, ?_, h.locks⟩, h.made, ?_⟩
  · rw [DeliveryStore.addToDeadLetterQueue]
    dsimp only
    rw [Properties.set_of_not_mem hfresh, List.length_append, h.dlqItems]
    rfl
  · exact Properties.nodup_keys_set h.deadLetters hfresh _

theorem Sound.processDeadLetterQueueItem (h : s.Sound) (id : String) :
    (s.processDeadLetterQueueItem id).Sound := by
  rw [DeliveryStore.processDeadLetterQueueItem]
  split_ifs with hfound
  · obtain ⟨entry, hmem, hkey⟩ := List.lookup_isSome_iff.mp hfound
    have hid : id ∈ Properties.keys s.deadLetterQueue := by
      rw [beq_iff_eq.mp hkey]
      exact List.mem_map_of_mem hmem
    refine ⟨⟨h.sameItems, h.outboxItems, ?_, h.locks⟩, h.made,
      Properties.nodup_keys_erase h.deadLetters id⟩
    have hcount := h.dlqItems
    rw [← Properties.length_erase h.deadLetters hid, Nat.cast_succ] at hcount
    exact sub_eq_of_eq_add hcount
  · exact h

theorem Sound.cleanup (h : s.Sound) {cutoff : ℤ}
    (hyoung : ∀ entry ∈ s.deadLetterQueue, cutoff ≤ entry.2.createdAt) :
    (s.cleanup cutoff).Sound := by
  have hkept : (s.deadLetterQueue.filter fun entry => decide (cutoff ≤ entry.2.createdAt)) =
      s.deadLetterQueue := List.filter_eq_self.mpr fun entry hmem =>
    decide_eq_true (hyoung entry hmem)
  refine ⟨⟨h.sameItems, h.outboxItems, ?_, h.locks⟩, h.made, ?_⟩
  · rw [DeliveryStore.cleanup]
    dsimp only
    rw [hkept]
    exact h.dlqItems
  · rw [DeliveryStore.cleanup]
    dsimp only
    rw [hkept]
    exact h.deadLetters

/-! ## Loading -/

theorem Sound.loadOutbox (h : s.Sound) (rows : OutboxRows)
    (hrows : ∀ row ∈ rows.rows,
      row.id ∉ Properties.keys s.outbox.entries ∧ row.LocksMatch) : (s.loadOutbox rows).Sound := by
  have hnodup := rows.nodup
  rw [DeliveryStore.loadOutbox]
  generalize rows.rows = items at hnodup hrows ⊢
  induction items generalizing s with
  | nil => exact h
  | cons row _ ih =>
    obtain ⟨hnot, hrest⟩ := List.nodup_cons.mp hnodup
    obtain ⟨hfresh, hlocks⟩ := hrows row List.mem_cons_self
    refine ih (h.hydrateOutboxItem hfresh hlocks) hrest fun other hmem => ?_
    obtain ⟨hother, hmatch⟩ := hrows other (List.mem_cons_of_mem _ hmem)
    refine ⟨?_, hmatch⟩
    rw [DeliveryStore.hydrateOutboxItem]
    dsimp only
    rw [Indexed.insert]
    dsimp only
    rw [Properties.keys_set_of_not_mem hfresh, List.mem_append, List.mem_singleton]
    rintro (hheld | hsame)
    · exact hother hheld
    · exact hnot (List.mem_map.mpr ⟨other, hmem, hsame⟩)

theorem Sound.loadDeadLetters (h : s.Sound) (now : ℤ) {rows : List DeadLetterRow}
    (hnodup : (rows.map (·.id)).Nodup)
    (hrows : ∀ row ∈ rows, row.id ∉ Properties.keys s.deadLetterQueue) :
    (rows.foldl (DeliveryStore.loadDeadLetter now) s).Sound := by
  induction rows generalizing s with
  | nil => exact h
  | cons row rest ih =>
    obtain ⟨hnot, hrest⟩ := List.nodup_cons.mp hnodup
    have hlater : ∀ other ∈ rest, other.id ∉ Properties.keys s.deadLetterQueue :=
      fun other hmem => hrows other (List.mem_cons_of_mem _ hmem)
    rw [List.foldl_cons, DeliveryStore.loadDeadLetter]
    split
    · exact ih h hrest hlater
    · have hfresh := hrows row List.mem_cons_self
      refine ih (h.addToDeadLetterQueue hfresh now _ _ _) hrest fun other hmem => ?_
      rw [DeliveryStore.addToDeadLetterQueue]
      dsimp only
      rw [Properties.keys_set_of_not_mem hfresh, List.mem_append, List.mem_singleton]
      rintro (hheld | hsame)
      · exact hlater other hmem hheld
      · exact hnot (List.mem_map.mpr ⟨other, hmem, hsame⟩)

end DeliveryStore

/-! ## Runs -/

open DeliveryStore

theorem sound_perform {w : StoreWorld} (h : w.mirror.Sound) (operation : StoreOperation)
    (hapart : KeepsApart w (.perform operation)) : (w.mirror.perform operation).Sound := by
  cases operation with
  | store => exact ⟨⟨h.sameItems, h.outboxItems, h.dlqItems, h.locks⟩, h.made, h.deadLetters⟩
  | registerDeliveryId =>
    exact ⟨⟨h.sameItems, h.outboxItems, h.dlqItems, h.locks⟩, h.made, h.deadLetters⟩
  | updateStatus id status now => exact h.updateStatus id status now
  | addToOutbox => exact h.hydrateOutboxItem hapart.1 (.inr ⟨nofun, hapart.2⟩)
  | removeFromOutbox =>
    rw [perform, removeFromOutbox]
    split
    · exact h
    · next ref hfind =>
        obtain ⟨hheld, rfl⟩ := h.of_find hfind
        exact h.dropItem hheld
  | updateOutboxItemAttempt =>
    rw [perform, updateOutboxItemAttempt]
    split
    · exact h
    · exact h.setItem _ _ rfl rfl fun hlocks => hlocks
  | claimReadyOutboxItems opts => exact h.claimReadyOutboxItems opts
  | reclaimStuckItems opts =>
    exact h.changeMatching _ (·.lock opts) (fun _ => rfl) (fun _ => rfl)
      (fun item => locksMatch_lock item opts) h.sameItems.nodup_refs
  | releaseExpiredLeases =>
    exact h.changeMatching _ (·.unlock .pending) (fun _ => rfl) (fun _ => rfl)
      (fun item => locksMatch_unlock item nofun) h.sameItems.nodup_refs
  | releaseOutboxItem id workerId => exact h.releaseOutboxItem id workerId
  | markOutboxItemDelivered id workerId => exact h.markOutboxItemDelivered id workerId
  | addToDeadLetterQueue _ now delivery failureReason reasonCode =>
    exact h.addToDeadLetterQueue hapart now delivery failureReason reasonCode
  | processDeadLetterQueueItem id => exact h.processDeadLetterQueueItem id
  | cleanup => exact h.cleanup hapart
  | clear => exact h.clear

theorem DeliveryStore.Held.perform {s : DeliveryStore} (h : s.Held) (operation : StoreOperation)
    (hfresh : ∀ id item, operation = .addToOutbox id item →
      id ∉ Properties.keys s.outbox.entries) : (s.perform operation).Held := by
  cases operation with
  | store | registerDeliveryId => exact ⟨h.sameItems, h.made⟩
  | updateStatus =>
    rw [DeliveryStore.perform, DeliveryStore.updateStatus]
    split
    · exact h
    · dsimp only
      split_ifs <;> exact ⟨h.sameItems, h.made⟩
  | addToOutbox id item => exact h.hydrateOutboxItem (hfresh id item rfl)
  | removeFromOutbox =>
    rw [DeliveryStore.perform, removeFromOutbox]
    split
    · exact h
    · next ref hfind =>
        obtain ⟨hheld, rfl⟩ := h.of_find hfind
        exact h.dropItem hheld
  | updateOutboxItemAttempt =>
    rw [DeliveryStore.perform, updateOutboxItemAttempt]
    split
    · exact h
    · exact h.setItem rfl rfl
  | claimReadyOutboxItems opts =>
    exact h.changeMatching _ (fun item => item.id_lock opts) (fun item => item.priority_lock opts)
      (h.sameItems.nodup_flatMap nodup_priorities)
  | reclaimStuckItems opts =>
    exact h.changeMatching _ (fun item => item.id_lock opts) (fun item => item.priority_lock opts)
      h.sameItems.nodup_refs
  | releaseExpiredLeases =>
    exact h.changeMatching _ (fun item => item.id_unlock .pending)
      (fun item => item.priority_unlock .pending) h.sameItems.nodup_refs
  | releaseOutboxItem =>
    rw [DeliveryStore.perform, DeliveryStore.releaseOutboxItem]
    split
    · exact h
    · exact h.setItem rfl rfl
  | markOutboxItemDelivered =>
    rw [DeliveryStore.perform, DeliveryStore.markOutboxItemDelivered]
    split
    · exact h
    · next ref hlocked =>
        obtain ⟨hheld, hid⟩ := h.of_find (find_of_lockedItem hlocked).1
        have hset : (s.setItem ref ((s.objects ref).unlock .delivered)).Held := h.setItem rfl rfl
        have hdropped := hset.dropItem hheld
        rw [idOf_setItem_unlock, hid] at hdropped
        exact hdropped
  | addToDeadLetterQueue => exact ⟨h.sameItems, h.made⟩
  | processDeadLetterQueueItem =>
    rw [DeliveryStore.perform, DeliveryStore.processDeadLetterQueueItem]
    split_ifs
    · exact ⟨h.sameItems, h.made⟩
    · exact h
  | cleanup => exact ⟨h.sameItems, h.made⟩
  | clear => exact .empty _ _

theorem sound_step {w w' : StoreWorld} {label : StoreStep} (h : w.mirror.Sound)
    (hapart : KeepsApart w label) (hstep : w.step label = some w') : w'.mirror.Sound := by
  cases label with
  | perform operation =>
    cases hstep
    exact sound_perform h operation hapart
  | hydrate =>
    rw [StoreWorld.step] at hstep
    split_ifs at hstep <;> cases hstep <;> exact h
  | outboxLoaded rows =>
    rw [StoreWorld.step] at hstep
    split at hstep <;> cases hstep
    exact h.loadOutbox rows hapart
  | outboxFailed =>
    rw [StoreWorld.step] at hstep
    split at hstep <;> cases hstep
    exact h
  | deadLettersLoaded now =>
    rw [StoreWorld.step] at hstep
    split at hstep <;> cases hstep
    exact h.loadDeadLetters now hapart.1 hapart.2
  | deadLettersFailed =>
    rw [StoreWorld.step] at hstep
    split at hstep <;> cases hstep
    exact h

theorem DeliveryStore.Represents.claimsOnce {s : DeliveryStore} (h : s.Represents) :
    s.ClaimsOnce := by
  intro opts
  have hnodup := h.sameItems.nodup_flatMap nodup_priorities
  rw [claimReadyOutboxItems]
  dsimp only
  rw [changeMatching_snd hnodup]
  exact h.sameItems.nodup_map_key (hnodup.filter _) fun ref hmem =>
    h.sameItems.mem_of_flatMap (List.mem_filter.mp hmem).1

/-- Along every run whose steps keep ids apart, the store represents its items, and no claim
returns an item twice. -/
theorem represents_of_keptApart {w : StoreWorld}
    (hrun : Reaches StoreWorld.step KeepsApart {} w) :
    w.mirror.Represents ∧ w.mirror.ClaimsOnce := by
  have h : w.mirror.Sound := hrun.invariant (P := fun w => w.mirror.Sound)
    (fun _ _ _ h hapart hstep => sound_step h hapart hstep) .init
  exact ⟨h.toRepresents, h.toRepresents.claimsOnce⟩

/-- A stored row. -/
def storedItem (id : String) : OutboxItem :=
  { (default : OutboxItem) with id := id, priority := "normal", maxAttempts := 5 }

def storedRows (id : String) : OutboxRows where
  rows := [storedItem id]
  nodup := List.nodup_singleton _
  active := fun _ hrow => .inl (by rw [List.mem_singleton.mp hrow]; rfl)

/-- Rows are loaded, and an item is added, claimed and delivered. -/
theorem loaded_represents : ∃ w, Reaches StoreWorld.step KeepsApart {} w ∧
    w.mirror.Represents ∧ w.mirror.ClaimsOnce := by
  obtain ⟨w, hrun⟩ : ∃ w, runUnder StoreWorld.step KeepsApart {}
      [.hydrate, .outboxLoaded (storedRows "outbox_1"), .deadLettersLoaded 0 [],
        .perform (.addToOutbox "outbox_2" { (default : NewOutboxItem) with maxAttempts := 5 }),
        .perform (.claimReadyOutboxItems ⟨some "a", none, 10⟩),
        .perform (.markOutboxItemDelivered "outbox_1" "a")] = some w :=
    Option.isSome_iff_exists.mp (by decide +kernel)
  have hreached := Reaches.of_runUnder hrun
  exact ⟨w, hreached, represents_of_keptApart hreached⟩

/-- A load fails after its first query and is tried again. -/
def loadedTwice : List StoreStep :=
  [.hydrate, .outboxLoaded (storedRows "outbox_1"), .deadLettersFailed,
    .hydrate, .outboxLoaded (storedRows "outbox_1"), .deadLettersLoaded 0 []]

/-- The item that has been loaded twice is handed out twice by one call. -/
theorem loadedTwice_claimedTwice : ¬ ∀ w, Reaches StoreWorld.step (fun _ _ => True) {} w →
    w.mirror.Represents ∧ w.mirror.ClaimsOnce := by
  intro h
  obtain ⟨w, hrun, hids⟩ : ∃ w, run StoreWorld.step {} loadedTwice = some w ∧
      (w.mirror.claimReadyOutboxItems ⟨some "a", none, 10⟩).1.map w.mirror.idOf =
        ["outbox_1", "outbox_1"] := ⟨_, rfl, by decide +kernel⟩
  have hreached := Reaches.of_run (fun _ _ (_ : _ ∈ loadedTwice) => trivial) hrun
  have hnodup := (h w hreached).2 ⟨some "a", none, 10⟩
  rw [hids] at hnodup
  exact absurd hnodup (by decide)

end Fluxora.Webhooks
