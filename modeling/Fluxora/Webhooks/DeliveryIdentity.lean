/-
# The delivery id of an event

The delivery id of a request is made from the id of the outbox row, and a retry is a new row. So
all requests made from one row have one id, and a row whose requests were rolled back keeps it;
but a request made from a row that retries another one has an id of its own.
-/

import Fluxora.Lib.Transition
import Fluxora.Webhooks.Conservation

namespace Fluxora.Webhooks

open Lib Lib.Transition

/-! ## Runs of the outbox -/

structure OutboxRun where
  world : World := ⟨[], 0, []⟩
  /-- The number of events published. -/
  events : ℕ := 0
  eventOf : ℕ → ℕ := fun _ => 0
  /-- The requests made: the event, and the `x-fluxora-delivery-id` header. -/
  requests : List (ℕ × String) := []
  requested : ℕ → Bool := fun _ => false
  retries : ℕ → Bool := fun _ => false

/-- An event is published, or a claimed row is delivered in a transaction that commits or is
rolled back. -/
inductive OutboxStep
  | publish (streamId eventType : String) (payload : Json) (createdAt : ℤ)
  | deliver (id : ℕ) (rt : Runtime) (context : OutboxDeliveryContext) (services : GateServices)
      (exchange : HttpExchange) (commits : Bool)

def OutboxRecord.row (record : OutboxRecord) : OutboxRow :=
  ⟨record.id, record.streamId, record.eventType, record.payload, record.createdAt⟩

/-- The delivery ids of the requests among some effects. -/
def deliveryIds (effects : List Effect) : List String :=
  effects.filterMap fun effect =>
    match effect with
    | .sendWebhook delivery _ => some delivery.deliveryId
    | _ => none

namespace OutboxRun

variable (r : OutboxRun)

/-- The row that a transaction claims. -/
def pending (id : ℕ) : Option OutboxRecord :=
  r.world.outbox.find? fun record => record.id = id && !record.processed

def publish (streamId eventType : String) (payload : Json) (createdAt : ℤ) : OutboxRun :=
  { r with
    world := r.world.apply (.insertOutbox streamId eventType payload createdAt)
    events := r.events + 1
    eventOf := Function.update r.eventOf r.world.nextId r.events }

/-- The requests, which no roll-back undoes. -/
def afterRequests (id : ℕ) (effects : List Effect) : OutboxRun :=
  { r with
    requests := (deliveryIds effects).map (r.eventOf id, ·) ++ r.requests
    requested := if deliveryIds effects = [] then r.requested
      else Function.update r.requested id true }

/-- The statements. A roll-back leaves the table as it was, but not the sequence of ids; a row that
is inserted goes on with the event. -/
def afterStatements (id : ℕ) (effects : List Effect) (commits : Bool) : OutboxRun :=
  let world := r.world.run effects
  let inserted : ℕ → Bool := fun n => r.world.nextId ≤ n && n < world.nextId
  { r with
    world := if commits then world else { world with outbox := r.world.outbox }
    eventOf := fun n => if inserted n then r.eventOf id else r.eventOf n
    retries := fun n => if inserted n then r.retries id || r.requested id else r.retries n }

def step (r : OutboxRun) : OutboxStep → Option OutboxRun
  | .publish streamId eventType payload createdAt =>
    some (r.publish streamId eventType payload createdAt)
  | .deliver id rt context services exchange commits =>
    (r.pending id).map fun record =>
      match deliverOutboxRow rt context services exchange record.row with
      | .error _ => r
      | .ok effects => (r.afterRequests id effects).afterStatements id effects commits

/-- Requests for one event have one delivery id, and requests for two have two. -/
structure Identified : Prop where
  stable : ∀ event id id', (event, id) ∈ r.requests → (event, id') ∈ r.requests → id = id'
  distinct : ∀ event event' id, (event, id) ∈ r.requests → (event', id) ∈ r.requests →
    event = event'

/-- No request is made from a row that goes back to a row from which one was made. -/
def RequestsOnce : OutboxStep → Prop
  | .publish _ _ _ _ => True
  | .deliver id rt context services exchange _ => ∀ record ∈ r.pending id, ∀ effects,
      deliverOutboxRow rt context services exchange record.row = .ok effects →
        deliveryIds effects ≠ [] → r.retries id = false

end OutboxRun

/-! ## What delivering a row does -/

/-- The effects that a row can have. -/
inductive RowEffects (row : OutboxRow) : List Effect → Prop
  | skipped : RowEffects row []
  | poison (delivery : WebhookDelivery) (reason : String) (code : DLQReasonCode) :
      RowEffects row [.enqueueDlq delivery reason code, .markProcessed row.id]
  | dropped : RowEffects row [.markProcessed row.id]
  | deferred (payload : Json) (retryAt : ℤ) : RowEffects row
      [.markProcessed row.id, .insertOutbox row.streamId row.eventType payload retryAt]
  | sent (delivery : WebhookDelivery) (answer : Except String ℕ)
      (hid : delivery.deliveryId = deliveryIdOf row) :
      RowEffects row [.sendWebhook delivery answer, .markProcessed row.id]
  | failed (delivery : WebhookDelivery) (answer : Except String ℕ)
      (hid : delivery.deliveryId = deliveryIdOf row) (filed : WebhookDelivery) (reason : String)
      (code : DLQReasonCode) : RowEffects row
      [.sendWebhook delivery answer, .markProcessed row.id, .enqueueDlq filed reason code]
  | retried (delivery : WebhookDelivery) (answer : Except String ℕ)
      (hid : delivery.deliveryId = deliveryIdOf row) (payload : Json) (retryAt : ℤ) :
      RowEffects row [.sendWebhook delivery answer, .markProcessed row.id,
        .insertOutbox row.streamId row.eventType payload retryAt]

section

variable {rt : Runtime} {context : OutboxDeliveryContext} {services : GateServices}
  {exchange : HttpExchange} {row : OutboxRow} {effects : List Effect}

theorem rowEffects_deliverSoundRow (endpoint : ResolvedEndpoint) :
    RowEffects row (deliverSoundRow rt context services exchange row endpoint) := by
  rw [deliverSoundRow]
  split
  · split
    · exact .deferred _ _
    · exact .dropped
  · rw [afterAttempt]
    split
    · exact .failed _ _ rfl _ _ _
    · split
      · exact .retried _ _ rfl _ _
      · exact .sent _ _ rfl

theorem rowEffects_of_ok (h : deliverOutboxRow rt context services exchange row = .ok effects) :
    RowEffects row effects := by
  rw [deliverOutboxRow] at h
  split at h
  · cases h
  · cases h
    exact .skipped
  · split_ifs at h
    · cases h
      exact .poison _ _ _
    · cases h
      exact rowEffects_deliverSoundRow _

theorem RowEffects.deliveryIds_eq (h : RowEffects row effects) :
    deliveryIds effects = [] ∨ deliveryIds effects = [deliveryIdOf row] := by
  cases h with
  | skipped | poison | dropped | deferred => exact .inl rfl
  | sent _ _ hid | failed _ _ hid | retried _ _ hid => exact .inr (congrArg (fun id => [id]) hid)

theorem RowEffects.run (h : RowEffects row effects) (world : World) :
    effects = [] ∨ ∃ news : List OutboxRecord,
      (news = [] ∨ ∃ record, news = [record] ∧ record.id = world.nextId) ∧
        (world.run effects).outbox = markProcessed row.id world.outbox ++ news ∧
          (world.run effects).nextId = world.nextId + news.length := by
  cases h with
  | skipped => exact .inl rfl
  | poison | dropped => exact .inr ⟨[], .inl rfl, (List.append_nil _).symm, rfl⟩
  | deferred => exact .inr ⟨[_], .inr ⟨_, rfl, rfl⟩, rfl, rfl⟩
  | sent | failed => exact .inr ⟨[], .inl rfl, (List.append_nil _).symm, rfl⟩
  | retried => exact .inr ⟨[_], .inr ⟨_, rfl, rfl⟩, rfl, rfl⟩

end

/-! ## Every event has one row -/

namespace OutboxRun

variable {r r' : OutboxRun}

/-- Requests are made from rows, each under the id of its row; an event has one row that waits,
and it goes back to the others a request was made from. -/
structure Sound (r : OutboxRun) : Prop where
  ids : ∀ record ∈ r.world.outbox, record.id < r.world.nextId
  events : ∀ n < r.world.nextId, r.eventOf n < r.events
  requested_lt : ∀ n, r.requested n = true → n < r.world.nextId
  retries_lt : ∀ n, r.retries n = true → n < r.world.nextId
  requests : ∀ event id, (event, id) ∈ r.requests ↔
    ∃ n, r.requested n = true ∧ r.eventOf n = event ∧ id = "outbox_" ++ toString n
  one : ∀ first ∈ r.world.outbox, ∀ second ∈ r.world.outbox, first.processed = false →
    second.processed = false → r.eventOf first.id = r.eventOf second.id → first.id = second.id
  chain : ∀ record ∈ r.world.outbox, record.processed = false → (r.retries record.id = true ↔
    ∃ n, n ≠ record.id ∧ r.requested n = true ∧ r.eventOf n = r.eventOf record.id)

theorem deliveryId_injective {m n : ℕ} (h : "outbox_" ++ toString m = "outbox_" ++ toString n) :
    m = n := by
  apply DigitText.toString_nat_inj
  apply String.toList_inj.mp
  have htext := congrArg String.toList h
  rw [String.toList_append, String.toList_append] at htext
  exact List.append_cancel_left htext

theorem Sound.identified_iff (h : r.Sound) : r.Identified ↔
    ∀ m n, r.requested m = true → r.requested n = true → r.eventOf m = r.eventOf n → m = n := by
  apply Iff.intro
  · intro hidentified m n hm hn hevent
    apply deliveryId_injective
    exact hidentified.stable (r.eventOf n) _ _
      ((h.requests _ _).mpr ⟨m, hm, hevent, rfl⟩) ((h.requests _ _).mpr ⟨n, hn, rfl, rfl⟩)
  · intro hone
    apply Identified.mk
    · intro event id id' hfirst hsecond
      obtain ⟨m, hm, hevent, rfl⟩ := (h.requests _ _).mp hfirst
      obtain ⟨n, hn, hevent', rfl⟩ := (h.requests _ _).mp hsecond
      rw [hone m n hm hn (hevent.trans hevent'.symm)]
    · intro event event' id hfirst hsecond
      obtain ⟨m, -, rfl, rfl⟩ := (h.requests _ _).mp hfirst
      obtain ⟨n, -, rfl, hid⟩ := (h.requests _ _).mp hsecond
      rw [deliveryId_injective hid]

/-! ### What a delivery keeps -/

theorem pending_spec {id : ℕ} {record : OutboxRecord} (h : r.pending id = some record) :
    record ∈ r.world.outbox ∧ record.id = id ∧ record.processed = false := by
  have hfound := List.find?_some h
  rw [Bool.and_eq_true, decide_eq_true_iff, Bool.not_eq_true'] at hfound
  exact ⟨List.mem_of_find?_eq_some h, hfound⟩

/-- A request is made from a row. -/
def request (r : OutboxRun) (id : ℕ) : OutboxRun :=
  { r with
    requests := (r.eventOf id, "outbox_" ++ toString id) :: r.requests
    requested := Function.update r.requested id true }

variable {effects : List Effect}

theorem afterRequests_eq {record : OutboxRecord} (h : RowEffects record.row effects) :
    r.afterRequests record.id effects =
      if deliveryIds effects = [] then r else r.request record.id := by
  rw [afterRequests]
  rcases h.deliveryIds_eq with hids | hids <;> rw [hids] <;> rfl

theorem requested_request_iff (id n : ℕ) :
    (r.request id).requested n = true ↔ n = id ∨ r.requested n = true := by
  dsimp only [request]
  rw [Function.update_apply]
  split_ifs with hn
  · exact iff_of_true rfl (.inl hn)
  · exact (or_iff_right hn).symm

theorem Sound.request (h : r.Sound) {record : OutboxRecord} (hmem : record ∈ r.world.outbox)
    (hwaits : record.processed = false) : (r.request record.id).Sound where
  ids := h.ids
  events := h.events
  requested_lt n hn := by
    rcases (requested_request_iff _ _).mp hn with rfl | hn
    · exact h.ids record hmem
    · exact h.requested_lt n hn
  retries_lt := h.retries_lt
  requests event id := by
    dsimp only [OutboxRun.request]
    rw [List.mem_cons, h.requests, Prod.mk.injEq]
    apply Iff.intro
    · intro hrequest
      rcases hrequest with ⟨rfl, rfl⟩ | ⟨n, hn, rest⟩
      · exact ⟨record.id, (requested_request_iff _ _).mpr (.inl rfl), rfl, rfl⟩
      · exact ⟨n, (requested_request_iff _ _).mpr (.inr hn), rest⟩
    · intro ⟨n, hn, hevent, hid⟩
      rcases (requested_request_iff _ _).mp hn with rfl | hn
      · exact .inl ⟨hevent.symm, hid⟩
      · exact .inr ⟨n, hn, hevent, hid⟩
  one := h.one
  chain other hother hwaits' := by
    rw [show (r.request record.id).retries = r.retries from rfl, h.chain other hother hwaits']
    apply exists_congr
    intro n
    apply and_congr_right
    intro hne
    rw [requested_request_iff]
    apply Iff.intro
    · exact fun hn => ⟨.inr hn.1, hn.2⟩
    · intro ⟨hn, hevent⟩
      rcases hn with rfl | hn
      · exact absurd (h.one record hmem other hother hwaits hwaits' hevent) hne
      · exact ⟨hn, hevent⟩

/-- A row of the table goes on in a row that is inserted, or waits as before. -/
structure GoesOn (world world' : World) (record : OutboxRecord) : Prop where
  nextId_le : world.nextId ≤ world'.nextId
  ids : ∀ other ∈ world'.outbox, other.id < world'.nextId
  waits : ∀ other ∈ world'.outbox, other.processed = false →
    other ∈ world.outbox ∨ other.id = world.nextId
  instead : ∀ other ∈ world'.outbox, other.processed = false → other.id = world.nextId →
    ∀ third ∈ world'.outbox, third.processed = false → third.id ≠ record.id

/-- The rows from the next id on are new, and go on with the event of a row. -/
def goOn (r : OutboxRun) (world' : World) (id : ℕ) : OutboxRun :=
  let inserted : ℕ → Bool := fun n => r.world.nextId ≤ n && n < world'.nextId
  { r with
    world := world'
    eventOf := fun n => if inserted n then r.eventOf id else r.eventOf n
    retries := fun n => if inserted n then r.retries id || r.requested id else r.retries n }

section

variable {world' : World} {id n : ℕ}

theorem eventOf_goOn_of_lt (hn : n < r.world.nextId) :
    (r.goOn world' id).eventOf n = r.eventOf n := by
  dsimp only [goOn]
  rw [if_neg]
  simp only [Bool.and_eq_true, decide_eq_true_iff]
  omega

theorem eventOf_goOn_of_le (hn : r.world.nextId ≤ n) (hn' : n < world'.nextId) :
    (r.goOn world' id).eventOf n = r.eventOf id := by
  dsimp only [goOn]
  rw [if_pos]
  simp only [Bool.and_eq_true, decide_eq_true_iff]
  exact ⟨hn, hn'⟩

theorem retries_goOn_of_lt (hn : n < r.world.nextId) :
    (r.goOn world' id).retries n = r.retries n := by
  dsimp only [goOn]
  rw [if_neg]
  simp only [Bool.and_eq_true, decide_eq_true_iff]
  omega

theorem retries_goOn_of_le (hn : r.world.nextId ≤ n) (hn' : n < world'.nextId) :
    (r.goOn world' id).retries n = (r.retries id || r.requested id) := by
  dsimp only [goOn]
  rw [if_pos]
  simp only [Bool.and_eq_true, decide_eq_true_iff]
  exact ⟨hn, hn'⟩

theorem retries_goOn_of_ge (hn : world'.nextId ≤ n) :
    (r.goOn world' id).retries n = r.retries n := by
  dsimp only [goOn]
  rw [if_neg]
  simp only [Bool.and_eq_true, decide_eq_true_iff]
  omega

end

theorem Sound.requested_goOn_iff (h : r.Sound) (world' : World) (id event n : ℕ) :
    r.requested n = true ∧ (r.goOn world' id).eventOf n = event ↔
      r.requested n = true ∧ r.eventOf n = event := by
  apply and_congr_right
  intro hn
  rw [eventOf_goOn_of_lt (h.requested_lt n hn)]

/-- A row that is inserted goes back to a row from which a request was made if the row it goes on
from does, or if one was made from that row itself. -/
theorem Sound.retries_or_requested_iff (h : r.Sound) {record : OutboxRecord}
    (hmem : record ∈ r.world.outbox) (hwaits : record.processed = false) :
    (r.retries record.id || r.requested record.id) = true ↔
      ∃ n, r.requested n = true ∧ r.eventOf n = r.eventOf record.id := by
  rw [Bool.or_eq_true, h.chain record hmem hwaits]
  apply Iff.intro
  · intro hback
    rcases hback with ⟨n, -, hn⟩ | hself
    · exact ⟨n, hn⟩
    · exact ⟨record.id, hself, rfl⟩
  · intro ⟨n, hn⟩
    by_cases hself : n = record.id
    · exact .inr (hself ▸ hn.1)
    · exact .inl ⟨n, hself, hn⟩

theorem Sound.goOn (h : r.Sound) {record : OutboxRecord} (hmem : record ∈ r.world.outbox)
    (hwaits : record.processed = false) {world' : World} (hgoesOn : GoesOn r.world world' record) :
    (r.goOn world' record.id).Sound where
  ids := hgoesOn.ids
  events n hn := by
    change n < world'.nextId at hn
    rcases Nat.lt_or_ge n r.world.nextId with hold | hnew
    · rw [eventOf_goOn_of_lt hold]
      exact h.events n hold
    · rw [eventOf_goOn_of_le hnew hn]
      exact h.events _ (h.ids record hmem)
  requested_lt n hn := (h.requested_lt n hn).trans_le hgoesOn.nextId_le
  retries_lt n hn := by
    rcases Nat.lt_or_ge n world'.nextId with hlt | hge
    · exact hlt
    · rw [retries_goOn_of_ge hge] at hn
      exact (h.retries_lt n hn).trans_le hgoesOn.nextId_le
  requests event id := by
    apply (h.requests event id).trans
    apply exists_congr
    intro n
    rw [← and_assoc, ← and_assoc, show (r.goOn world' record.id).requested = r.requested from rfl,
      h.requested_goOn_iff]
  one := by
    have hfollows : ∀ first ∈ world'.outbox, ∀ second ∈ world'.outbox, first.processed = false →
        second.processed = false → first.id = r.world.nextId → second ∈ r.world.outbox →
          (r.goOn world' record.id).eventOf first.id ≠
            (r.goOn world' record.id).eventOf second.id := by
      intro first hfirst second hsecond hfirst' hsecond' hnew hold hevents
      have hlt := h.ids second hold
      rw [eventOf_goOn_of_le hnew.ge (hgoesOn.ids first hfirst), eventOf_goOn_of_lt hlt] at hevents
      exact hgoesOn.instead first hfirst hfirst' hnew second hsecond hsecond'
        (h.one record hmem second hold hwaits hsecond' hevents).symm
    intro first hfirst second hsecond hfirst' hsecond' hevents
    rcases hgoesOn.waits first hfirst hfirst' with hold | hnew
    · rcases hgoesOn.waits second hsecond hsecond' with hold' | hnew'
      · rw [eventOf_goOn_of_lt (h.ids first hold), eventOf_goOn_of_lt (h.ids second hold')]
          at hevents
        exact h.one first hold second hold' hfirst' hsecond' hevents
      · exact absurd hevents.symm
          (hfollows second hsecond first hfirst hsecond' hfirst' hnew' hold)
    · rcases hgoesOn.waits second hsecond hsecond' with hold' | hnew'
      · exact absurd hevents (hfollows first hfirst second hsecond hfirst' hsecond' hnew hold')
      · rw [hnew, hnew']
  chain other hother hwaits' := by
    rcases hgoesOn.waits other hother hwaits' with hold | hnew
    · rw [retries_goOn_of_lt (h.ids other hold), h.chain other hold hwaits',
        eventOf_goOn_of_lt (h.ids other hold)]
      exact exists_congr fun n => and_congr_right fun _ => (h.requested_goOn_iff _ _ _ _).symm
    · rw [retries_goOn_of_le hnew.ge (hgoesOn.ids other hother),
        eventOf_goOn_of_le hnew.ge (hgoesOn.ids other hother),
        h.retries_or_requested_iff hmem hwaits]
      apply exists_congr
      intro n
      apply Iff.intro
      · intro hn
        have hlt := h.requested_lt n hn.1
        exact ⟨by omega, (h.requested_goOn_iff _ _ _ _).mpr hn⟩
      · exact fun ⟨_, hn⟩ => (h.requested_goOn_iff _ _ _ _).mp hn

variable {outbox : List OutboxRecord}

theorem mem_markProcessed_waits {id : ℕ} {record : OutboxRecord}
    (hmem : record ∈ markProcessed id outbox) (hwaits : record.processed = false) :
    record ∈ outbox ∧ record.id ≠ id := by
  obtain ⟨old, hold, hold'⟩ := List.mem_map.mp hmem
  by_cases hid : old.id = id
  · rw [if_pos hid] at hold'
    subst hold'
    cases hwaits
  · rw [if_neg hid] at hold'
    subst hold'
    exact ⟨hold, hid⟩

theorem mem_markProcessed_id {id : ℕ} {record : OutboxRecord}
    (hmem : record ∈ markProcessed id outbox) : ∃ old ∈ outbox, old.id = record.id := by
  obtain ⟨old, hold, rfl⟩ := List.mem_map.mp hmem
  apply Exists.intro old
  apply And.intro hold
  split_ifs <;> rfl

theorem Sound.goesOn_same (h : r.Sound) (record : OutboxRecord) {world' : World}
    (houtbox : world'.outbox = r.world.outbox) (hle : r.world.nextId ≤ world'.nextId) :
    GoesOn r.world world' record where
  nextId_le := hle
  ids other hother := (h.ids other (houtbox ▸ hother)).trans_le hle
  waits _ hother _ := .inl (houtbox ▸ hother)
  instead other hother _ hnew := absurd hnew (h.ids other (houtbox ▸ hother)).ne

theorem Sound.goesOn_processed (h : r.Sound) {record : OutboxRecord}
    (hmem : record ∈ r.world.outbox) {world' : World} {news : List OutboxRecord}
    (hnews : news = [] ∨ ∃ new, news = [new] ∧ new.id = r.world.nextId)
    (houtbox : world'.outbox = markProcessed record.id r.world.outbox ++ news)
    (hnextId : world'.nextId = r.world.nextId + news.length) :
    GoesOn r.world world' record := by
  have hnew_id : ∀ new ∈ news, new.id = r.world.nextId ∧ news.length = 1 := by
    intro new hnew
    rcases hnews with rfl | ⟨only, rfl, honly⟩
    · cases hnew
    · obtain rfl := List.mem_singleton.mp hnew
      exact ⟨honly, rfl⟩
  have hrows : ∀ other ∈ world'.outbox,
      (∃ old ∈ r.world.outbox, old.id = other.id) ∨ other ∈ news := by
    intro other hother
    rw [houtbox] at hother
    exact (List.mem_append.mp hother).imp_left mem_markProcessed_id
  have hwaits : ∀ other ∈ world'.outbox, other.processed = false →
      (other ∈ r.world.outbox ∧ other.id ≠ record.id) ∨ other ∈ news := by
    intro other hother hother'
    rw [houtbox] at hother
    exact (List.mem_append.mp hother).imp_left fun hold => mem_markProcessed_waits hold hother'
  refine ⟨by omega, ?_, ?_, ?_⟩
  · intro other hother
    rcases hrows other hother with ⟨old, hold, hid⟩ | hnew
    · have hlt := h.ids old hold
      omega
    · have hid := hnew_id other hnew
      omega
  · intro other hother hother'
    exact (hwaits other hother hother').imp And.left fun hnew => (hnew_id other hnew).1
  · intro _ _ _ _ third hthird hthird'
    rcases hwaits third hthird hthird' with hold | hnew
    · exact hold.2
    · rw [(hnew_id third hnew).1]
      exact (h.ids record hmem).ne'

theorem Sound.goesOn_of_effects (h : r.Sound) {record : OutboxRecord}
    (hmem : record ∈ r.world.outbox) (heffects : RowEffects record.row effects) (commits : Bool) :
    GoesOn r.world (if commits then r.world.run effects
      else { r.world.run effects with outbox := r.world.outbox }) record := by
  rcases heffects.run r.world with rfl | ⟨news, hnews, houtbox, hnextId⟩
  · apply h.goesOn_same
    · split_ifs <;> rfl
    · split_ifs <;> exact le_refl _
  · split_ifs
    · exact h.goesOn_processed hmem hnews houtbox hnextId
    · apply h.goesOn_same
      · rfl
      · dsimp only
        omega

theorem afterStatements_eq (r : OutboxRun) (id : ℕ) (effects : List Effect) (commits : Bool) :
    r.afterStatements id effects commits =
      r.goOn (if commits then r.world.run effects
        else { r.world.run effects with outbox := r.world.outbox }) id := by
  cases commits <;> rfl

/-! ## Every step -/

theorem step_deliver {id : ℕ} {rt : Runtime} {context : OutboxDeliveryContext}
    {services : GateServices} {exchange : HttpExchange} {commits : Bool}
    (hstep : r.step (.deliver id rt context services exchange commits) = some r') :
    ∃ record, r.pending id = some record ∧
      ((∃ exception, deliverOutboxRow rt context services exchange record.row =
          .error exception) ∧ r' = r ∨
        ∃ effects, deliverOutboxRow rt context services exchange record.row = .ok effects ∧
          r' = (r.afterRequests id effects).afterStatements id effects commits) := by
  obtain ⟨record, hrecord, rfl⟩ := Option.map_eq_some_iff.mp hstep
  apply Exists.intro record
  apply And.intro hrecord
  cases hdeliver : deliverOutboxRow rt context services exchange record.row with
  | error exception => exact .inl ⟨⟨exception, rfl⟩, rfl⟩
  | ok effects => exact .inr ⟨effects, rfl, rfl⟩

section

variable (streamId eventType : String) (payload : Json) (createdAt : ℤ)

theorem eventOf_publish_of_lt {n : ℕ} (hn : n < r.world.nextId) :
    (r.publish streamId eventType payload createdAt).eventOf n = r.eventOf n :=
  Function.update_of_ne hn.ne _ _

theorem eventOf_publish_nextId :
    (r.publish streamId eventType payload createdAt).eventOf r.world.nextId = r.events :=
  Function.update_self _ _ _

theorem mem_outbox_publish {record : OutboxRecord}
    (hmem : record ∈ (r.publish streamId eventType payload createdAt).world.outbox) :
    record ∈ r.world.outbox ∨ record.id = r.world.nextId := by
  apply (List.mem_append.mp hmem).imp_right
  intro hnew
  rw [List.mem_singleton.mp hnew]

theorem Sound.publish (h : r.Sound) :
    (r.publish streamId eventType payload createdAt).Sound where
  ids record hmem := by
    rcases mem_outbox_publish _ _ _ _ hmem with hold | hnew
    · exact (h.ids record hold).trans (Nat.lt_succ_self _)
    · exact hnew ▸ Nat.lt_succ_self _
  events n hn := by
    rcases Nat.lt_succ_iff_lt_or_eq.mp hn with hold | rfl
    · rw [eventOf_publish_of_lt _ _ _ _ hold]
      exact (h.events n hold).trans (Nat.lt_succ_self _)
    · rw [eventOf_publish_nextId]
      exact Nat.lt_succ_self _
  requested_lt n hn := (h.requested_lt n hn).trans (Nat.lt_succ_self _)
  retries_lt n hn := (h.retries_lt n hn).trans (Nat.lt_succ_self _)
  requests event id := by
    apply (h.requests event id).trans
    apply exists_congr
    intro n
    apply and_congr_right
    intro hn
    rw [eventOf_publish_of_lt _ _ _ _ (h.requested_lt n hn)]
  one := by
    have hfresh : ∀ record ∈ r.world.outbox, r.eventOf record.id ≠ r.events := fun record hmem =>
      (h.events _ (h.ids record hmem)).ne
    intro first hfirst second hsecond hfirst' hsecond' hevents
    rcases mem_outbox_publish _ _ _ _ hfirst with hold | hnew
    · rw [eventOf_publish_of_lt _ _ _ _ (h.ids first hold)] at hevents
      rcases mem_outbox_publish _ _ _ _ hsecond with hold' | hnew'
      · rw [eventOf_publish_of_lt _ _ _ _ (h.ids second hold')] at hevents
        exact h.one first hold second hold' hfirst' hsecond' hevents
      · rw [hnew', eventOf_publish_nextId] at hevents
        exact absurd hevents (hfresh first hold)
    · rcases mem_outbox_publish _ _ _ _ hsecond with hold' | hnew'
      · rw [hnew, eventOf_publish_nextId, eventOf_publish_of_lt _ _ _ _ (h.ids second hold')]
          at hevents
        exact absurd hevents.symm (hfresh second hold')
      · rw [hnew, hnew']
  chain record hmem hwaits := by
    rcases List.mem_append.mp hmem with hold | hnew
    · rw [eventOf_publish_of_lt _ _ _ _ (h.ids record hold)]
      apply (h.chain record hold hwaits).trans
      apply exists_congr
      intro n
      apply and_congr_right
      intro _
      apply and_congr_right
      intro hn
      rw [eventOf_publish_of_lt _ _ _ _ (h.requested_lt n hn)]
    · obtain rfl := List.mem_singleton.mp hnew
      apply iff_of_false
      · exact fun hretries => (h.retries_lt _ hretries).ne rfl
      · intro ⟨n, _, hn, hevent⟩
        rw [eventOf_publish_nextId, eventOf_publish_of_lt _ _ _ _ (h.requested_lt n hn)] at hevent
        exact (h.events n (h.requested_lt n hn)).ne hevent

end

variable {label : OutboxStep}

theorem Sound.step (h : r.Sound) (hstep : r.step label = some r') : r'.Sound := by
  cases label with
  | publish =>
    cases hstep
    exact h.publish _ _ _ _
  | deliver =>
    obtain ⟨record, hrecord, ⟨-, rfl⟩ | ⟨effects, hdeliver, rfl⟩⟩ := step_deliver hstep
    · exact h
    · obtain ⟨hmem, rfl, hwaits⟩ := pending_spec hrecord
      have heffects : RowEffects record.row effects := rowEffects_of_ok hdeliver
      rw [afterRequests_eq heffects, afterStatements_eq]
      split_ifs
      · exact h.goOn hmem hwaits (h.goesOn_of_effects hmem heffects true)
      · exact h.goOn hmem hwaits (h.goesOn_of_effects hmem heffects false)
      · exact (h.request hmem hwaits).goOn hmem hwaits
          ((h.request hmem hwaits).goesOn_of_effects hmem heffects true)
      · exact (h.request hmem hwaits).goOn hmem hwaits
          ((h.request hmem hwaits).goesOn_of_effects hmem heffects false)

theorem identified_congr (h : r.requests = r'.requests) : r.Identified ↔ r'.Identified := by
  apply Iff.intro
  · intro hidentified
    exact ⟨h ▸ hidentified.stable, h ▸ hidentified.distinct⟩
  · intro hidentified
    exact ⟨h ▸ hidentified.stable, h ▸ hidentified.distinct⟩

theorem identified_goOn_iff (r : OutboxRun) (world' : World) (id : ℕ) :
    (r.goOn world' id).Identified ↔ r.Identified := identified_congr rfl

theorem identified_request_iff (h : r.Sound) (hidentified : r.Identified) {record : OutboxRecord}
    (hmem : record ∈ r.world.outbox) (hwaits : record.processed = false) :
    (r.request record.id).Identified ↔ r.retries record.id = false := by
  rw [(h.request hmem hwaits).identified_iff, ← Bool.not_eq_true, h.chain record hmem hwaits]
  have hone := h.identified_iff.mp hidentified
  apply Iff.intro
  · intro hall ⟨n, hne, hn, hevent⟩
    exact hne (hall n record.id ((requested_request_iff _ _).mpr (.inr hn))
      ((requested_request_iff _ _).mpr (.inl rfl)) hevent)
  · intro hnone m n hm hn hevent
    rcases (requested_request_iff _ _).mp hm with rfl | hm
    · rcases (requested_request_iff _ _).mp hn with rfl | hn
      · rfl
      · exact by_contra fun hne => hnone ⟨n, Ne.symm hne, hn, hevent.symm⟩
    · rcases (requested_request_iff _ _).mp hn with rfl | hn
      · exact by_contra fun hne => hnone ⟨m, hne, hm, hevent⟩
      · exact hone m n hm hn hevent

theorem step_iff (h : r.Sound) (hidentified : r.Identified) (hstep : r.step label = some r') :
    r'.Identified ↔ r.RequestsOnce label := by
  cases label with
  | publish =>
    cases hstep
    exact iff_of_true ⟨hidentified.stable, hidentified.distinct⟩ trivial
  | deliver _ rt context services exchange commits =>
    obtain ⟨record, hrecord, ⟨⟨exception, hdeliver⟩, rfl⟩ | ⟨effects, hdeliver, rfl⟩⟩ :=
      step_deliver hstep
    · apply iff_of_true hidentified
      intro record' hrecord' effects hdeliver'
      obtain rfl := Option.some.inj (hrecord.symm.trans hrecord')
      cases hdeliver.symm.trans hdeliver'
    · obtain ⟨hmem, rfl, hwaits⟩ := pending_spec hrecord
      have honce : r.RequestsOnce (.deliver record.id rt context services exchange commits) ↔
          (deliveryIds effects ≠ [] → r.retries record.id = false) := by
        apply Iff.intro
        · exact fun hall => hall record hrecord effects hdeliver
        · intro hthis record' hrecord' effects' hdeliver'
          obtain rfl := Option.some.inj (hrecord.symm.trans hrecord')
          obtain rfl := Except.ok.inj (hdeliver.symm.trans hdeliver')
          exact hthis
      rw [honce, afterRequests_eq (rowEffects_of_ok hdeliver), afterStatements_eq,
        identified_goOn_iff]
      split_ifs with hnone
      · exact iff_of_true hidentified fun hsome => absurd hnone hsome
      · rw [identified_request_iff h hidentified hmem hwaits]
        exact ⟨fun hretries _ => hretries, fun hall => hall hnone⟩

theorem sound_init : Sound {} where
  ids _ hmem := nomatch hmem
  events _ hn := nomatch hn
  requested_lt _ hn := nomatch hn
  retries_lt _ hn := nomatch hn
  requests _ _ := iff_of_false (fun hmem => nomatch hmem) fun ⟨_, hn⟩ => nomatch hn.1
  one _ hmem := nomatch hmem
  chain _ hmem := nomatch hmem

end OutboxRun

/-- Along every run, all requests for an event have one delivery id and requests for different
events have different ones, exactly as long as no request is made from a row that goes back to a
row from which one was made. -/
theorem identified_iff_requestsOnce (labels : List OutboxStep) :
    EveryStep OutboxRun.step (fun _ _ r' => r'.Identified) {} labels ↔
      EveryStep OutboxRun.step (fun r label _ => r.RequestsOnce label) {} labels := by
  apply everyStep_iff_of_step OutboxRun.Sound
  · intro r label r' h hidentified hstep
    exact ⟨OutboxRun.step_iff h hidentified hstep, h.step hstep⟩
  · exact OutboxRun.sound_init
  · exact ⟨fun _ _ _ h => (nomatch h), fun _ _ _ h => (nomatch h)⟩

/-- In every run a delivery id belongs to one event, an event has at most one row that waits, and
that row goes back to another one exactly when a request was made from such a row. -/
theorem deliveryIds_apart (labels : List OutboxStep) :
    EveryStep OutboxRun.step (fun _ _ r' =>
      (∀ event event' id, (event, id) ∈ r'.requests → (event', id) ∈ r'.requests →
        event = event') ∧
      ∀ first ∈ r'.world.outbox, first.processed = false →
        (∀ second ∈ r'.world.outbox, second.processed = false →
          r'.eventOf first.id = r'.eventOf second.id → first.id = second.id) ∧
        (r'.retries first.id = true ↔ ∃ n, n ≠ first.id ∧ r'.requested n = true ∧
          r'.eventOf n = r'.eventOf first.id)) {} labels := by
  refine everyStep_of_invariant OutboxRun.Sound (fun r label r' hsound hstep => ?_) labels
    OutboxRun.sound_init
  have h := hsound.step hstep
  refine ⟨⟨fun event event' id hfirst hsecond => ?_, fun first hmem hwaits => ⟨?_, ?_⟩⟩, h⟩
  · obtain ⟨n, -, rfl, hid⟩ := (h.requests event id).mp hfirst
    obtain ⟨m, -, rfl, hid'⟩ := (h.requests event' id).mp hsecond
    rw [OutboxRun.deliveryId_injective (hid.symm.trans hid')]
  · exact fun second hmem' hwaits' => h.one first hmem second hmem' hwaits hwaits'
  · exact h.chain first hmem hwaits

/-- An event whose first attempt is answered 500, and whose retry row is attempted. -/
def retriedEvent : List OutboxStep :=
  let deliver := fun id => OutboxStep.deliver id lossRuntime lossContext lossServices
    (answerWith 500) true
  [.publish "stream-1" "stream.updated" (.object [("amount", .string "5")]) 0, deliver 0, deliver 1]

/-- Its two requests have two ids. -/
theorem retriedEvent_twoIds :
    ¬ ∀ labels r, run OutboxRun.step {} labels = some r → r.Identified := by
  intro hidentified
  obtain ⟨r, hrun, hrequests⟩ : ∃ r, run OutboxRun.step {} retriedEvent = some r ∧
      r.requests = [(0, "outbox_1"), (0, "outbox_0")] := ⟨_, rfl, rfl⟩
  have hsame : "outbox_0" = "outbox_1" := by
    apply (hidentified retriedEvent r hrun).stable 0 <;> rw [hrequests]
    · exact List.mem_cons_of_mem _ List.mem_cons_self
    · exact List.mem_cons_self
  exact absurd hsame (by decide)

end Fluxora.Webhooks
