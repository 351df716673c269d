/-
# Leases of outbox items

Workers claim items of one store, complete them, give them back, or stop working; a lease whose
time is over may be taken over. The store remembers who holds a lock and since when, but not for
how long it was asked for: each call tests the locks of others with a timeout of its own.

As long as no call uses a timeout smaller than that of a lease that is held, a lease is exclusive.
-/

import Fluxora.Webhooks.StoreRepresentation

namespace Fluxora.Webhooks

open Lib Lib.Transition DeliveryStore

/-! ## Workers at a store -/

structure OutboxLease where
  worker : String
  since : ℤ
  /-- What the worker asked for. -/
  timeout : ℤ

def OutboxLease.EndsBefore (lease : OutboxLease) (now : ℤ) : Prop :=
  lease.since + lease.timeout < now

structure LeaseWorld where
  store : DeliveryStore := {}
  clock : ℤ := 0
  /-- The last lease of each item that has not been given up. -/
  leases : ℕ → Option OutboxLease := fun _ => none
  /-- The items that have been marked delivered. -/
  delivered : List ℕ := []

inductive LeaseOperation
  | addToOutbox (id : String) (item : NewOutboxItem)
  | claimReadyOutboxItems (opts : ClaimOptions)
  | reclaimStuckItems (opts : ClaimOptions)
  | releaseExpiredLeases (opts : ClaimOptions)
  | releaseOutboxItem (id workerId : String)
  | markOutboxItemDelivered (id workerId : String)
  /-- A retry is scheduled by the count of attempts. -/
  | updateOutboxItemAttempt (id : String) (attempts : ℕ)

namespace LeaseWorld

variable (w : LeaseWorld)

/-- The world after a call that hands out items. -/
def handOut (opts : ClaimOptions) (answer : List ℕ × DeliveryStore) : LeaseWorld :=
  { w with
    store := answer.2
    clock := opts.now
    leases := fun ref =>
      if ref ∈ answer.1 then some ⟨opts.worker, opts.now, opts.timeout⟩ else w.leases ref }

/-- The leases when an item is given up. -/
def giveUp (ref : Option ℕ) : ℕ → Option OutboxLease :=
  fun other => if ref = some other then none else w.leases other

/-- Times do not decrease. -/
def step : LeaseOperation → Option LeaseWorld
  | .addToOutbox id item => some { w with store := w.store.addToOutbox id item }
  | .claimReadyOutboxItems opts =>
    if w.clock ≤ opts.now then some (w.handOut opts (w.store.claimReadyOutboxItems opts))
    else none
  | .reclaimStuckItems opts =>
    if w.clock ≤ opts.now then some (w.handOut opts (w.store.reclaimStuckItems opts)) else none
  | .releaseExpiredLeases opts =>
    if w.clock ≤ opts.now then
      some { w with store := (w.store.releaseExpiredLeases opts).2, clock := opts.now }
    else none
  | .releaseOutboxItem id workerId =>
    some { w with
      store := (w.store.releaseOutboxItem id workerId).2
      leases := w.giveUp (w.store.lockedItem id workerId) }
  | .markOutboxItemDelivered id workerId =>
    let ref := w.store.lockedItem id workerId
    some { w with
      store := (w.store.markOutboxItemDelivered id workerId).2
      leases := w.giveUp ref
      delivered := ref.toList ++ w.delivered }
  | .updateOutboxItemAttempt id attempts =>
    some { w with store := w.store.updateOutboxItemAttempt id attempts }

/-! ## The rule and its condition -/

/-- Items that are handed out were not delivered, and no other worker has a lease of them. -/
def HandsOutFree (opts : ClaimOptions) (refs : List ℕ) : Prop :=
  ∀ ref ∈ refs, ref ∉ w.delivered ∧
    ∀ lease ∈ w.leases ref, lease.worker ≠ opts.worker → lease.EndsBefore opts.now

/-- Whoever completes or releases an item has the lease of it. -/
def HeldBy (id workerId : String) : Prop :=
  ∃ ref lease, w.store.outbox.find id = some ref ∧ w.leases ref = some lease ∧
    lease.worker = workerId

/-- What the leases demand of an operation. -/
def LeaseSafe : LeaseOperation → Prop
  | .claimReadyOutboxItems opts => w.HandsOutFree opts (w.store.claimReadyOutboxItems opts).1
  | .reclaimStuckItems opts => w.HandsOutFree opts (w.store.reclaimStuckItems opts).1
  | .releaseOutboxItem id workerId =>
    (w.store.releaseOutboxItem id workerId).1 = true → w.HeldBy id workerId
  | .markOutboxItemDelivered id workerId =>
    (w.store.markOutboxItemDelivered id workerId).1 = true → w.HeldBy id workerId
  | _ => True

/-- An item is in flight under a lease for which a timeout is too small. -/
def CutsShort (timeout : ℤ) (ref : ℕ) (lease : OutboxLease) : Prop :=
  (w.store.objects ref).status = .inFlight ∧ timeout < lease.timeout

instance (timeout : ℤ) (ref : ℕ) (lease : OutboxLease) :
    Decidable (w.CutsShort timeout ref lease) := inferInstanceAs (Decidable (_ ∧ _))

/-- The timeout of a call is no smaller than those of the leases that others hold, and an item is
added under a new id and without lock fields. -/
def RespectsLeases : LeaseOperation → Prop
  | .addToOutbox id item => id ∉ Properties.keys w.store.outbox.entries ∧
      item.lockedAt = none ∧ item.lockedBy = none
  | .claimReadyOutboxItems opts => ∀ ref ∈ w.store.outbox.refs, ∀ lease ∈ w.leases ref,
      w.CutsShort opts.timeout ref lease → lease.worker = opts.worker
  | .reclaimStuckItems opts => ∀ ref ∈ w.store.outbox.refs, ∀ lease ∈ w.leases ref,
      w.CutsShort opts.timeout ref lease → lease.worker = opts.worker
  | .releaseExpiredLeases opts => ∀ ref ∈ w.store.outbox.refs, ∀ lease ∈ w.leases ref,
      ¬ w.CutsShort opts.timeout ref lease
  | _ => True

instance : DecidablePred w.RespectsLeases := fun operation => by
  unfold RespectsLeases
  split <;> infer_instance

end LeaseWorld

/-! ## Locks are backed by leases -/

/-- A lock is that of the lease, and a lease without a lock is over. -/
structure Backed (w : LeaseWorld) : Prop where
  sound : w.store.Sound
  held : ∀ ref ∈ w.store.outbox.refs, (w.store.objects ref).status = .inFlight →
    ∃ lease, w.leases ref = some lease ∧ (w.store.objects ref).lockedAt = some lease.since ∧
      (w.store.objects ref).lockedBy = some lease.worker
  lapsed : ∀ ref ∈ w.store.outbox.refs, (w.store.objects ref).status ≠ .inFlight →
    ∀ lease, w.leases ref = some lease → lease.EndsBefore w.clock
  unmade : ∀ ref, w.store.made ≤ ref → w.leases ref = none
  gone : ∀ ref ∈ w.delivered, ref ∉ w.store.outbox.refs ∧ ref < w.store.made

namespace Backed

theorem init (clock : ℤ) : Backed { clock := clock } where
  sound := .init
  held _ h := absurd h List.not_mem_nil
  lapsed _ h := absurd h List.not_mem_nil
  unmade _ _ := rfl
  gone _ h := absurd h List.not_mem_nil

variable {w : LeaseWorld} {ref : ℕ} {opts : ClaimOptions}

theorem endsBefore_of_stuck (h : Backed w) (hheld : ref ∈ w.store.outbox.refs)
    (hstuck : (w.store.objects ref).isStuck opts = true) {lease : OutboxLease}
    (hlease : w.leases ref = some lease)
    (hlong : lease.timeout ≤ opts.timeout) : lease.EndsBefore opts.now := by
  obtain ⟨hstatus, hlocked⟩ := Bool.and_eq_true_iff.mp hstuck
  obtain ⟨lease', hlease', hat, -⟩ := h.held ref hheld (of_decide_eq_true hstatus)
  rw [hlease] at hlease'
  cases hlease'
  rw [hat, Option.any_some] at hlocked
  have hold : lease.since < opts.now - opts.timeout := of_decide_eq_true hlocked
  rw [OutboxLease.EndsBefore]
  omega

theorem handsOutFree (h : Backed w) (hnow : w.clock ≤ opts.now)
    (hrespects : ∀ ref ∈ w.store.outbox.refs, ∀ lease ∈ w.leases ref,
      w.CutsShort opts.timeout ref lease → lease.worker = opts.worker) {refs : List ℕ}
    (hrefs : ∀ ref ∈ refs, ref ∈ w.store.outbox.refs ∧
      ((w.store.objects ref).status ≠ .inFlight ∨ (w.store.objects ref).isStuck opts = true)) :
    w.HandsOutFree opts refs := by
  intro ref hmem
  obtain ⟨hheld, htest⟩ := hrefs ref hmem
  refine ⟨fun hdelivered => (h.gone ref hdelivered).1 hheld, fun lease hlease hother => ?_⟩
  rcases htest with hpending | hstuck
  · exact lt_of_lt_of_le (h.lapsed ref hheld hpending lease hlease) hnow
  · refine h.endsBefore_of_stuck hheld hstuck hlease (not_lt.mp fun hshort => hother ?_)
    have hstatus := of_decide_eq_true (Bool.and_eq_true_iff.mp hstuck).1
    exact hrespects ref hheld lease hlease ⟨hstatus, hshort⟩

theorem handOut (h : Backed w) (hnow : w.clock ≤ opts.now) {test : OutboxItem → Bool}
    {refs : List ℕ} (hnodup : refs.Nodup) (hrefs : ∀ ref ∈ refs, ref ∈ w.store.outbox.refs)
    (hsound : Sound { w.store with
      objects := (changeMatching test (·.lock opts) refs w.store.objects).1 }) :
    Backed (w.handOut opts ((changeMatching test (·.lock opts) refs w.store.objects).2,
      { w.store with
        objects := (changeMatching test (·.lock opts) refs w.store.objects).1 })) := by
  have hhanded : ∀ ref, ref ∈ (changeMatching test (·.lock opts) refs w.store.objects).2 ↔
      ref ∈ refs ∧ test (w.store.objects ref) = true := fun ref => by
    rw [changeMatching_snd hnodup, List.mem_filter]
  refine ⟨hsound, fun ref hheld hstatus => ?_, fun ref hheld hstatus lease hlease => ?_,
    fun ref hmade => ?_, h.gone⟩
  all_goals rw [LeaseWorld.handOut] at *
  all_goals dsimp only at *
  · rw [changeMatching_fst hnodup] at hstatus ⊢
    by_cases hlocked : ref ∈ refs ∧ test (w.store.objects ref) = true
    · rw [if_pos hlocked, if_pos ((hhanded ref).mpr hlocked)]
      exact ⟨_, rfl, rfl, rfl⟩
    · rw [if_neg hlocked] at hstatus ⊢
      rw [if_neg fun hmem => hlocked ((hhanded ref).mp hmem)]
      exact h.held ref hheld hstatus
  · rw [changeMatching_fst hnodup] at hstatus
    by_cases hlocked : ref ∈ refs ∧ test (w.store.objects ref) = true
    · rw [if_pos hlocked] at hstatus
      exact absurd rfl hstatus
    · rw [if_neg hlocked] at hstatus
      rw [if_neg fun hmem => hlocked ((hhanded ref).mp hmem)] at hlease
      exact lt_of_lt_of_le (h.lapsed ref hheld hstatus lease hlease) hnow
  · rw [if_neg fun hmem => ?_]
    · exact h.unmade ref hmade
    · have hlt := h.sound.made ref (hrefs ref ((hhanded ref).mp hmem).1)
      exact absurd hmade (Nat.not_le_of_lt hlt)

theorem releaseExpiredLeases (h : Backed w) (hnow : w.clock ≤ opts.now)
    (hrespects : ∀ ref ∈ w.store.outbox.refs, ∀ lease ∈ w.leases ref,
      ¬ w.CutsShort opts.timeout ref lease) :
    Backed { w with store := (w.store.releaseExpiredLeases opts).2, clock := opts.now } := by
  have hnodup := h.sound.sameItems.nodup_refs
  refine ⟨sound_perform (w := { mirror := w.store }) h.sound (.releaseExpiredLeases opts) trivial,
    fun ref hheld hstatus => ?_, fun ref hheld hstatus lease hlease => ?_, h.unmade, h.gone⟩
  all_goals rw [DeliveryStore.releaseExpiredLeases] at *
  all_goals dsimp only at *
  · rw [changeMatching_fst hnodup] at hstatus ⊢
    split_ifs at hstatus ⊢
    · cases hstatus
    · exact h.held ref hheld hstatus
  · rw [changeMatching_fst hnodup] at hstatus
    split_ifs at hstatus with hstuck
    · refine h.endsBefore_of_stuck hheld hstuck.2 hlease (not_lt.mp fun hshort => ?_)
      have hflying := of_decide_eq_true (Bool.and_eq_true_iff.mp hstuck.2).1
      exact hrespects ref hheld lease hlease ⟨hflying, hshort⟩
    · exact lt_of_lt_of_le (h.lapsed ref hheld hstatus lease hlease) hnow

theorem heldBy (h : Backed w) {id workerId : String}
    (hlocked : w.store.lockedItem id workerId = some ref) : w.HeldBy id workerId := by
  obtain ⟨hfind, hlock⟩ := find_of_lockedItem hlocked
  obtain ⟨hheld, -⟩ := h.sound.of_find hfind
  have hstatus : (w.store.objects ref).status = .inFlight := by
    rcases h.sound.locks ref hheld with hmatch | hmatch
    · exact hmatch.1
    · rw [hmatch.2.2] at hlock
      cases hlock
  obtain ⟨lease, hlease, -, hworker⟩ := h.held ref hheld hstatus
  rw [hlock] at hworker
  exact ⟨ref, lease, hfind, hlease, (Option.some.inj hworker).symm⟩

theorem giveUp_self (ref : ℕ) : w.giveUp (some ref) ref = none := if_pos rfl

theorem giveUp_of_ne {other : ℕ} (hne : other ≠ ref) : w.giveUp (some ref) other = w.leases other :=
  if_neg fun hsame => hne (Option.some.inj hsame).symm

theorem giveUp_of_none {ref : Option ℕ} {other : ℕ} (hnone : w.leases other = none) :
    w.giveUp ref other = none := by
  rw [LeaseWorld.giveUp]
  split_ifs
  · rfl
  · exact hnone

theorem setItem (h : Backed w) {item : OutboxItem} {store : DeliveryStore} (hsound : store.Sound)
    (hobjects : store.objects = Function.update w.store.objects ref item)
    (hmade : store.made = w.store.made) (hrefs : ∀ r ∈ store.outbox.refs, r ∈ w.store.outbox.refs)
    (hfree : ref ∈ store.outbox.refs → item.status ≠ .inFlight) {delivered : List ℕ}
    (hgone : ∀ r ∈ delivered, r ∉ store.outbox.refs ∧ r < store.made) :
    Backed { w with store := store, leases := w.giveUp (some ref), delivered := delivered } := by
  refine ⟨hsound, fun r hheld hstatus => ?_, fun r hheld hstatus lease hlease => ?_,
    fun r hle => giveUp_of_none (h.unmade r (hmade ▸ hle)), hgone⟩
  all_goals dsimp only at *
  · rw [hobjects] at hstatus ⊢
    by_cases hsame : r = ref
    · subst hsame
      rw [Function.update_self] at hstatus
      exact absurd hstatus (hfree hheld)
    · rw [Function.update_of_ne hsame] at hstatus ⊢
      rw [giveUp_of_ne hsame]
      exact h.held r (hrefs r hheld) hstatus
  · by_cases hsame : r = ref
    · subst hsame
      rw [giveUp_self] at hlease
      cases hlease
    · rw [hobjects, Function.update_of_ne hsame] at hstatus
      rw [giveUp_of_ne hsame] at hlease
      exact h.lapsed r (hrefs r hheld) hstatus lease hlease

theorem releaseOutboxItem (h : Backed w) (id workerId : String) :
    Backed { w with
      store := (w.store.releaseOutboxItem id workerId).2
      leases := w.giveUp (w.store.lockedItem id workerId) } := by
  have hsound := h.sound.releaseOutboxItem id workerId
  rw [DeliveryStore.releaseOutboxItem] at hsound ⊢
  cases hlocked : w.store.lockedItem id workerId with
  | none => exact h
  | some =>
    rw [hlocked] at hsound
    exact h.setItem hsound rfl rfl (fun _ hmem => hmem) (fun _ hstatus => by cases hstatus) h.gone

theorem markOutboxItemDelivered (h : Backed w) (id workerId : String) :
    Backed { w with
      store := (w.store.markOutboxItemDelivered id workerId).2
      leases := w.giveUp (w.store.lockedItem id workerId)
      delivered := (w.store.lockedItem id workerId).toList ++ w.delivered } := by
  have hsound := h.sound.markOutboxItemDelivered id workerId
  rw [DeliveryStore.markOutboxItemDelivered] at hsound ⊢
  cases hlocked : w.store.lockedItem id workerId with
  | none => exact h
  | some ref =>
    rw [hlocked] at hsound
    dsimp only at hsound ⊢
    obtain ⟨hheld, rfl⟩ := h.sound.of_find (find_of_lockedItem hlocked).1
    have hset := h.sound.setItem ref ((w.store.objects ref).unlock .delivered) rfl rfl
      fun _ => locksMatch_unlock _ (by decide)
    have hrefs := hset.sameItems.mem_refs_remove hheld ((w.store.setItem ref
      ((w.store.objects ref).unlock .delivered)).priorityOf ref)
    rw [idOf_setItem_unlock] at hrefs
    refine h.setItem hsound rfl rfl (fun r hmem => ((hrefs r).mp hmem).1)
      (fun hmem => absurd rfl ((hrefs ref).mp hmem).2) fun r hmem => ?_
    rcases List.mem_cons.mp hmem with rfl | hmem
    · exact ⟨fun hleft => ((hrefs r).mp hleft).2 rfl, h.sound.made r hheld⟩
    · exact ⟨fun hleft => (h.gone r hmem).1 ((hrefs r).mp hleft).1, (h.gone r hmem).2⟩

theorem updateOutboxItemAttempt (h : Backed w) (id : String) (attempts : ℕ) :
    Backed { w with store := w.store.updateOutboxItemAttempt id attempts } := by
  have hsound := sound_perform (w := { mirror := w.store }) h.sound
    (.updateOutboxItemAttempt id attempts) trivial
  rw [perform, DeliveryStore.updateOutboxItemAttempt] at hsound
  rw [DeliveryStore.updateOutboxItemAttempt]
  cases hfind : w.store.outbox.find id with
  | none => exact h
  | some ref =>
    rw [hfind] at hsound
    refine ⟨hsound, fun r hheld hstatus => ?_, fun r hheld hstatus => ?_, h.unmade, h.gone⟩
    · dsimp only [DeliveryStore.setItem] at hstatus ⊢
      by_cases hsame : r = ref
      · subst hsame
        rw [Function.update_self] at hstatus ⊢
        exact h.held r hheld hstatus
      · rw [Function.update_of_ne hsame] at hstatus ⊢
        exact h.held r hheld hstatus
    · dsimp only [DeliveryStore.setItem] at hstatus ⊢
      by_cases hsame : r = ref
      · subst hsame
        rw [Function.update_self] at hstatus
        exact h.lapsed r hheld hstatus
      · rw [Function.update_of_ne hsame] at hstatus
        exact h.lapsed r hheld hstatus

theorem addToOutbox (h : Backed w) {id : String} {item : NewOutboxItem}
    (hfresh : id ∉ Properties.keys w.store.outbox.entries)
    (hlocks : item.lockedAt = none ∧ item.lockedBy = none) :
    Backed { w with store := w.store.addToOutbox id item } := by
  have hsound : (w.store.addToOutbox id item).Sound :=
    h.sound.hydrateOutboxItem hfresh (.inr ⟨nofun, hlocks⟩)
  have hself : (w.store.addToOutbox id item).objects w.store.made =
      { item with id := id, status := .pending } := Function.update_self _ _ _
  have hother : ∀ r ∈ w.store.outbox.refs,
      (w.store.addToOutbox id item).objects r = w.store.objects r := fun r hheld =>
    Function.update_of_ne (Nat.ne_of_lt (h.sound.made r hheld)) _ _
  have hrefs : ∀ r, r ∈ (w.store.addToOutbox id item).outbox.refs ↔
      r ∈ w.store.outbox.refs ∨ r = w.store.made := fun r => by
    rw [DeliveryStore.addToOutbox, hydrateOutboxItem, Indexed.refs_insert hfresh, List.mem_append,
      List.mem_singleton]
  refine ⟨hsound, fun r hmem hstatus => ?_, fun r hmem hstatus lease hlease => ?_,
    fun r hle => h.unmade r (Nat.le_of_succ_le hle), fun r hmem => ?_⟩
  · rcases (hrefs r).mp hmem with hheld | rfl
    · rw [hother r hheld] at hstatus ⊢
      exact h.held r hheld hstatus
    · rw [hself] at hstatus
      cases hstatus
  · rcases (hrefs r).mp hmem with hheld | rfl
    · rw [hother r hheld] at hstatus
      exact h.lapsed r hheld hstatus lease hlease
    · rw [h.unmade _ (Nat.le_refl _)] at hlease
      cases hlease
  · obtain ⟨hgone, hlt⟩ := h.gone r hmem
    refine ⟨fun hback => ?_, Nat.lt_succ_of_lt hlt⟩
    rcases (hrefs r).mp hback with hheld | rfl
    · exact hgone hheld
    · exact Nat.lt_irrefl _ hlt

theorem claimable (h : Backed w) (opts : ClaimOptions) :
    ∀ ref ∈ (w.store.claimReadyOutboxItems opts).1, ref ∈ w.store.outbox.refs ∧
      ((w.store.objects ref).status ≠ .inFlight ∨ (w.store.objects ref).isStuck opts = true) := by
  intro ref hmem
  rw [claimReadyOutboxItems, changeMatching_snd (h.sound.sameItems.nodup_flatMap nodup_priorities),
    List.mem_filter] at hmem
  refine ⟨h.sound.sameItems.mem_of_flatMap hmem.1, ?_⟩
  rcases Bool.or_eq_true_iff.mp (Bool.and_eq_true_iff.mp hmem.2).2 with hready | hstuck
  · left
    rw [of_decide_eq_true (Bool.and_eq_true_iff.mp hready).1]
    decide
  · exact .inr hstuck

theorem reclaimable (h : Backed w) (opts : ClaimOptions) :
    ∀ ref ∈ (w.store.reclaimStuckItems opts).1, ref ∈ w.store.outbox.refs ∧
      ((w.store.objects ref).status ≠ .inFlight ∨ (w.store.objects ref).isStuck opts = true) := by
  intro ref hmem
  rw [reclaimStuckItems, changeMatching_snd h.sound.sameItems.nodup_refs, List.mem_filter] at hmem
  exact ⟨hmem.1, .inr hmem.2⟩

variable {operation : LeaseOperation}

theorem step (h : Backed w) {w' : LeaseWorld} (hrespects : w.RespectsLeases operation)
    (hstep : w.step operation = some w') : Backed w' := by
  cases operation with
  | addToOutbox =>
    cases hstep
    exact h.addToOutbox hrespects.1 hrespects.2
  | claimReadyOutboxItems opts =>
    rw [LeaseWorld.step] at hstep
    split_ifs at hstep with hnow
    cases hstep
    exact h.handOut hnow (h.sound.sameItems.nodup_flatMap nodup_priorities)
      (fun ref hmem => h.sound.sameItems.mem_of_flatMap hmem) (h.sound.claimReadyOutboxItems opts)
  | reclaimStuckItems opts =>
    rw [LeaseWorld.step] at hstep
    split_ifs at hstep with hnow
    cases hstep
    exact h.handOut hnow h.sound.sameItems.nodup_refs (fun ref hmem => hmem)
      (sound_perform (w := { mirror := w.store }) h.sound (.reclaimStuckItems opts) trivial)
  | releaseExpiredLeases =>
    rw [LeaseWorld.step] at hstep
    split_ifs at hstep with hnow
    cases hstep
    exact h.releaseExpiredLeases hnow hrespects
  | releaseOutboxItem id workerId =>
    cases hstep
    exact h.releaseOutboxItem id workerId
  | markOutboxItemDelivered id workerId =>
    cases hstep
    exact h.markOutboxItemDelivered id workerId
  | updateOutboxItemAttempt id attempts =>
    cases hstep
    exact h.updateOutboxItemAttempt id attempts

theorem leaseSafe (h : Backed w) {w' : LeaseWorld} (hrespects : w.RespectsLeases operation)
    (hstep : w.step operation = some w') : w.LeaseSafe operation := by
  cases operation with
  | claimReadyOutboxItems opts =>
    rw [LeaseWorld.step] at hstep
    split_ifs at hstep with hnow
    exact h.handsOutFree hnow hrespects (h.claimable opts)
  | reclaimStuckItems opts =>
    rw [LeaseWorld.step] at hstep
    split_ifs at hstep with hnow
    exact h.handsOutFree hnow hrespects (h.reclaimable opts)
  | releaseOutboxItem id workerId =>
    intro haccepted
    rw [DeliveryStore.releaseOutboxItem] at haccepted
    cases hlocked : w.store.lockedItem id workerId with
    | none =>
      rw [hlocked] at haccepted
      cases haccepted
    | some => exact h.heldBy hlocked
  | markOutboxItemDelivered id workerId =>
    intro haccepted
    rw [DeliveryStore.markOutboxItemDelivered] at haccepted
    cases hlocked : w.store.lockedItem id workerId with
    | none =>
      rw [hlocked] at haccepted
      cases haccepted
    | some => exact h.heldBy hlocked
  | addToOutbox | releaseExpiredLeases | updateOutboxItemAttempt => trivial

end Backed

/-! ## Runs -/

/-- In a run whose calls respect the leases, items are handed out only when they are free, are
completed and released only by the worker that has the lease, and never come back after they have
been delivered. -/
theorem leaseSafe_of_respected {clock : ℤ} {w w' : LeaseWorld} {operation : LeaseOperation}
    (hrun : Reaches LeaseWorld.step LeaseWorld.RespectsLeases { clock := clock } w)
    (hrespects : w.RespectsLeases operation) (hstep : w.step operation = some w') :
    w.LeaseSafe operation := by
  have h : Backed w := hrun.invariant
    (fun _ _ _ h hrespects hstep => Backed.step h hrespects hstep) (.init clock)
  exact h.leaseSafe hrespects hstep

def leasedItem : NewOutboxItem :=
  { (default : NewOutboxItem) with priority := "normal", maxAttempts := 5 }

/-- A worker stops, another one takes its item over and delivers it. -/
theorem takenOver_leaseSafe : ∃ w, Reaches LeaseWorld.step LeaseWorld.RespectsLeases {} w ∧
    (w.store.markOutboxItemDelivered "outbox_1" "b").1 = true ∧
      w.LeaseSafe (.markOutboxItemDelivered "outbox_1" "b") := by
  obtain ⟨w, hrun, haccepted⟩ : ∃ w, runUnder LeaseWorld.step LeaseWorld.RespectsLeases {}
      [.addToOutbox "outbox_1" leasedItem, .claimReadyOutboxItems ⟨some "a", none, 0⟩,
        .claimReadyOutboxItems ⟨some "b", none, 40000⟩] = some w ∧
      (w.store.markOutboxItemDelivered "outbox_1" "b").1 = true := ⟨_, rfl, rfl⟩
  have hreached := Reaches.of_runUnder hrun
  exact ⟨w, hreached, haccepted, @leaseSafe_of_respected 0 _ _ _ hreached trivial rfl⟩

/-- A worker claims an item for 30 seconds, and another one calls a second later with a timeout of
its own. -/
theorem shorterTimeout_takesOver : ¬ ∀ clock w w' operation,
    Reaches LeaseWorld.step (fun _ _ => True) { clock := clock } w →
      w.step operation = some w' → w.LeaseSafe operation := by
  intro h
  let labels : List LeaseOperation :=
    [.addToOutbox "outbox_1" leasedItem, .claimReadyOutboxItems ⟨some "a", none, 0⟩]
  obtain ⟨w, hrun, hclock, hhanded, hlease⟩ : ∃ w, run LeaseWorld.step {} labels = some w ∧
      w.clock ≤ 1000 ∧ (w.store.claimReadyOutboxItems ⟨some "b", some 500, 1000⟩).1 = [0] ∧
        w.leases 0 = some ⟨"a", 0, 30000⟩ := ⟨_, rfl, by decide, rfl, rfl⟩
  have hreached := Reaches.of_run (fun _ _ (_ : _ ∈ labels) => trivial) hrun
  have hsafe := h 0 w _ (.claimReadyOutboxItems ⟨some "b", some 500, 1000⟩) hreached
    (if_pos hclock)
  rw [LeaseWorld.LeaseSafe, hhanded] at hsafe
  have hends : (0 : ℤ) + 30000 < 1000 := (hsafe 0 List.mem_cons_self).2 _ hlease (by decide)
  exact absurd hends (by decide)

end Fluxora.Webhooks
