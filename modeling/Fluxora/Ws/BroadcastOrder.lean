/-
# The order of the broadcasts

A hub broadcasts events to sockets that subscribe, unsubscribe and close as they like. Each
broadcast first waits for the answer of the dedup cache. The deferred chunks of its fan-outs run
in any order, between whatever else happens.

Every socket is handed the events of a stream in the order of their broadcasts and none of them
twice, in every run in which nothing is handed over while something older waits.
-/

import Fluxora.Ws.Fanout

namespace Fluxora.Ws

open Lib Lib.SetIndex Lib.Transition Lib.Turns

/-! ## Targets -/

/-- The sets of the two indexes have no member twice. -/
structure ConnectionRegistry.SetsKept (r : ConnectionRegistry) : Prop where
  streams : WellKept r.streamSubscriptions
  recipients : WellKept r.recipientSubscriptions

namespace ConnectionRegistry

variable {r : ConnectionRegistry}

theorem SetsKept.removeSubscription (h : r.SetsKept) (ws : Socket) (filter : SubscriptionFilter) :
    (r.removeSubscription ws filter).SetsKept := by
  cases hstate : r.clients ws with
  | none =>
    rw [ConnectionRegistry.removeSubscription, hstate]
    exact h
  | some =>
    obtain ⟨hstreams, hrecipients⟩ :=
      (removed_removeSubscription hstate).wellKept h.streams h.recipients
    exact ⟨hstreams, hrecipients⟩

theorem SetsKept.addSubscription (h : r.SetsKept) (ws : Socket) (filter : SubscriptionFilter) :
    (r.addSubscription ws filter).2.SetsKept := by
  cases hstate : r.clients ws with
  | none =>
    rw [ConnectionRegistry.addSubscription, hstate]
    exact h
  | some state =>
    by_cases hknown : subscriptionKey filter ∈ state.keys
    · rw [addSubscription_of_mem hstate hknown]
      exact h
    obtain ⟨hstreams, hrecipients⟩ :=
      (added_addSubscription hstate hknown).wellKept h.streams h.recipients
    exact ⟨hstreams, hrecipients⟩

theorem SetsKept.apply (h : r.SetsKept) (label : RegistryLabel) :
    (RegistryRun.apply r label).SetsKept := by
  cases label with
  | register => exact ⟨h.streams, h.recipients⟩
  | subscribe ws filter => exact h.addSubscription ws filter
  | unsubscribe ws filter => exact h.removeSubscription ws filter
  | takeStreamSubscribers streamId =>
    rw [RegistryRun.apply, takeStreamSubscribers]
    split
    · exact h
    · exact ⟨h.streams.drop streamId, h.recipients⟩
  | removeAllSubscriptions ws =>
    rw [RegistryRun.apply, removeAllSubscriptions]
    cases r.clients ws with
    | none => exact h
    | some state =>
      dsimp only
      induction state.subscriptionFilters generalizing r with
      | nil => exact h
      | cons filter _ ih => exact ih (h.removeSubscription ws filter)
  | unregister => exact ⟨h.streams, h.recipients⟩

theorem SetsKept.nodup_matchingSubscribers (h : r.SetsKept) (event : StreamUpdateEvent) :
    (matchingSubscribers r event).Nodup := by
  rw [matchingSubscribers]
  cases extractRecipientAddress event with
  | none => exact h.streams.nodup event.streamId
  | some address =>
    refine List.nodup_append.mpr ⟨h.streams.nodup event.streamId,
      (h.recipients.nodup address).filter _, fun ws hws own hown heq => ?_⟩
    rw [← heq] at hown
    exact of_decide_eq_true (List.mem_filter.mp hown).2 hws

theorem SetsKept.nodup_targets (h : r.SetsKept) (event : StreamUpdateEvent) :
    (resolveTargets r event).sockets.Nodup := by
  have hnodup := h.nodup_matchingSubscribers event
  have hbatched : (resolveTargets r event).batched.map Prod.fst =
      (matchingSubscribers r event).filter fun ws =>
        (r.clients ws).any fun state => state.wantsBatching := by
    rw [resolveTargets, List.map_filterMap, ← List.filterMap_eq_filter]
    refine List.filterMap_congr fun ws _ => ?_
    cases hstate : r.clients ws with
    | none => simp [Option.guard, hstate]
    | some state =>
      cases hwants : state.wantsBatching with
      | true | false => simp [Option.guard, hstate, hwants, Option.filter]
  rw [FanoutTargets.sockets, hbatched]
  refine List.nodup_append.mpr ⟨hnodup.filter _, hnodup.filter _, fun ws hws own hown heq => ?_⟩
  have hwants := (List.mem_filter.mp hws).2
  have hnot := (List.mem_filter.mp hown).2
  rw [← heq] at hnot
  cases hstate : r.clients ws with
  | none => simp [hstate] at hwants
  | some => simp_all

end ConnectionRegistry

/-! ## Runs -/

/-- The hub with all its broadcasts, those that wait for the answer of the dedup cache, what the
cache remembers and what it let through. -/
structure BroadcastHub where
  registry : ConnectionRegistry
  broadcasts : List StreamUpdateEvent
  awaiting : List Broadcast
  remembered : List (String × String)
  passed : List Broadcast
  fanout : Fanout

/-- `takes` says of each socket whether a frame is handed to it: not to a closed one, nor to one
that is too slow. -/
inductive BroadcastLabel
  | subscription (label : RegistryLabel)
  | broadcast (event : StreamUpdateEvent)
  | deduplicated (i : ℕ) (takes : Socket → Bool)
  | dedupFails (i : ℕ)
  | forget (key : String × String)
  | chunk (i : ℕ) (takes : Socket → Bool)
  | flush (ws : Socket) (streamId : String) (isOpen : Bool)
  | clearConnection (ws : Socket)
  | clearAll

namespace BroadcastHub

variable (maxSize : ℕ) (s : BroadcastHub)

def start : BroadcastHub := ⟨ConnectionRegistry.empty, [], [], [], [], Fanout.empty⟩

/-- The cache has let a broadcast through. -/
def pass (b : Broadcast) (takes : Socket → Bool) : BroadcastHub :=
  { s with
    remembered := s.remembered ++ [b.dedupKey]
    passed := s.passed ++ [b]
    fanout := s.fanout.dispatchEvent maxSize b takes (resolveTargets s.registry b.1) }

def step (s : BroadcastHub) : BroadcastLabel → Option BroadcastHub
  | .subscription label => some { s with registry := RegistryRun.apply s.registry label }
  | .broadcast event =>
    some { s with
      broadcasts := s.broadcasts ++ [event]
      awaiting := s.awaiting ++ [(event, s.broadcasts.length)] }
  | .deduplicated i takes => do
      let b ← s.awaiting[i]?
      let s := { s with awaiting := s.awaiting.eraseIdx i }
      if b.dedupKey ∈ s.remembered then some s else some (s.pass maxSize b takes)
  | .dedupFails i => some { s with awaiting := s.awaiting.eraseIdx i }
  | .forget key => some { s with remembered := s.remembered.filter (· ≠ key) }
  | .chunk i takes => do
      let d ← s.fanout.deferred[i]?
      some { s with fanout := s.fanout.runDeferred takes i d }
  | .flush ws streamId isOpen => some { s with fanout := s.fanout.flush ws streamId isOpen }
  | .clearConnection ws =>
    some { s with fanout :=
      { s.fanout with accumulators := s.fanout.accumulators.clearConnection ws } }
  | .clearAll =>
    some { s with fanout := { s.fanout with accumulators := BatchAccumulator.clearAll } }

/-- Each socket was handed of each stream some of its broadcasts in their order, and no event
twice. -/
def HandedInOrder : Prop :=
  ∀ ws streamId,
    ((s.fanout.handed ws streamId).map Prod.fst).Sublist
        (s.broadcasts.filter fun event => event.streamId = streamId) ∧
      ((s.fanout.handed ws streamId).map fun b => b.1.eventId).Nodup

/-- The cache still knows what it let through and answers the broadcasts of a stream in their
order, and nothing older of the stream waits for a socket that an event is handed to: in a
chunk or a batch when the event is dispatched or a chunk is run, in a chunk when a batch is
sent. -/
def NothingOlderWaits (s : BroadcastHub) : BroadcastLabel → Prop
  | .deduplicated i _ =>
    ∀ b ∈ s.awaiting[i]?, b.dedupKey ∉ s.remembered →
      b.dedupKey ∉ s.passed.map Broadcast.dedupKey ∧
      (∀ a ∈ s.awaiting.eraseIdx i, a.streamId = b.streamId → b.Before a) ∧
      s.fanout.Clear maxSize b (resolveTargets s.registry b.1)
  | .chunk i _ =>
    ∀ d ∈ s.fanout.deferred[i]?, ∀ ws ∈ d.rest.take fanoutYieldBatch, ∀ m,
      Fanout.Waits { s.fanout with deferred := s.fanout.deferred.eraseIdx i } ws
        d.broadcast.streamId m → d.broadcast.Before m
  | .flush ws streamId _ =>
    ∀ b ∈ s.fanout.accumulators.eventsOf ws streamId, ∀ m,
      s.fanout.WaitsInChunk ws streamId m → b.Before m
  | .subscription _ | .broadcast _ | .dedupFails _ | .forget _ | .clearConnection _ | .clearAll =>
    True

/-! ## What a run keeps -/

/-- The fan-outs are straight, the sets of the registry are kept, every broadcast has its
place, what was let through came before what still waits for the cache, and no event was let
through twice. -/
structure Sound : Prop where
  straight : s.fanout.Straight s.passed
  registry : s.registry.SetsKept
  passedPlaces : ∀ b ∈ s.passed, s.broadcasts[b.2]? = some b.1
  awaitingPlaces : ∀ b ∈ s.awaiting, s.broadcasts[b.2]? = some b.1
  later : ∀ b ∈ s.passed, ∀ a ∈ s.awaiting, a.streamId = b.streamId → b.Before a
  once : (s.passed.map Broadcast.dedupKey).Nodup

variable {maxSize s} {s' : BroadcastHub} {label : BroadcastLabel}

theorem sound_start : start.Sound where
  straight := Fanout.straight_empty []
  registry := ⟨WellKept.empty, WellKept.empty⟩
  passedPlaces _ hmem := absurd hmem List.not_mem_nil
  awaitingPlaces _ hmem := absurd hmem List.not_mem_nil
  later _ hmem := absurd hmem List.not_mem_nil
  once := List.nodup_nil

theorem Sound.broadcast (h : s.Sound) (event : StreamUpdateEvent) :
    Sound { s with
      broadcasts := s.broadcasts ++ [event]
      awaiting := s.awaiting ++ [(event, s.broadcasts.length)] } := by
  have hplaces : ∀ b : Broadcast, s.broadcasts[b.2]? = some b.1 →
      (s.broadcasts ++ [event])[b.2]? = some b.1 := by
    intro b hb
    rw [List.getElem?_append_left (List.getElem?_eq_some_iff.mp hb).1]
    exact hb
  refine ⟨h.straight, h.registry, fun b hb => hplaces b (h.passedPlaces b hb), fun b hb => ?_,
    fun b hb a ha hsame => ?_, h.once⟩
  · rcases List.mem_append.mp hb with hold | hnew
    · exact hplaces b (h.awaitingPlaces b hold)
    · rw [List.mem_singleton.mp hnew]
      exact List.getElem?_concat_length
  · rcases List.mem_append.mp ha with hold | hnew
    · exact h.later b hb a hold hsame
    · rw [List.mem_singleton.mp hnew]
      exact (List.getElem?_eq_some_iff.mp (h.passedPlaces b hb)).1

theorem Sound.eraseAwaiting (h : s.Sound) (i : ℕ) :
    Sound { s with awaiting := s.awaiting.eraseIdx i } :=
  ⟨h.straight, h.registry, h.passedPlaces,
    fun b hb => h.awaitingPlaces b (List.mem_of_mem_eraseIdx hb),
    fun b hb a ha => h.later b hb a (List.mem_of_mem_eraseIdx ha), h.once⟩

theorem Sound.pass (h : s.Sound) {b : Broadcast} (takes : Socket → Bool)
    (hplace : s.broadcasts[b.2]? = some b.1)
    (hnewest : ∀ m ∈ s.passed, m.streamId = b.streamId → m.Before b)
    (hnew : b.dedupKey ∉ s.passed.map Broadcast.dedupKey)
    (hlater : ∀ a ∈ s.awaiting, a.streamId = b.streamId → b.Before a)
    (hclear : s.fanout.Clear maxSize b (resolveTargets s.registry b.1)) :
    (s.pass maxSize b takes).Sound where
  straight := by
    have hmore : s.fanout.Straight (s.passed ++ [b]) :=
      h.straight.mono (List.subset_append_left _ _)
    refine hmore.dispatchEvent (h.registry.nodup_targets b.1) hclear
      (List.mem_append_right _ (List.mem_singleton_self b)) fun ws m hm => ?_
    obtain ⟨hmem, hstream⟩ : m ∈ s.passed ∧ m.streamId = b.streamId :=
      hm.elim (h.straight.handedKnown ws b.streamId m) (h.straight.waitsKnown ws b.streamId m)
    exact hnewest m hmem hstream
  registry := h.registry
  passedPlaces c hc := by
    rcases List.mem_append.mp hc with hold | hself
    · exact h.passedPlaces c hold
    · rw [List.mem_singleton.mp hself]
      exact hplace
  awaitingPlaces := h.awaitingPlaces
  later c hc a ha hsame := by
    rcases List.mem_append.mp hc with hold | hself
    · exact h.later c hold a ha hsame
    · rw [List.mem_singleton.mp hself] at hsame ⊢
      exact hlater a ha hsame
  once := by
    have hlast : (s.pass maxSize b takes).passed.map Broadcast.dedupKey =
        s.passed.map Broadcast.dedupKey ++ [b.dedupKey] := List.map_append
    rw [hlast, List.nodup_append]
    refine ⟨h.once, List.nodup_singleton _, fun key hkey own hown heq => ?_⟩
    rw [heq, List.mem_singleton.mp hown] at hkey
    exact hnew hkey

theorem Sound.step (h : s.Sound) (hnothing : s.NothingOlderWaits maxSize label)
    (hstep : s.step maxSize label = some s') : s'.Sound := by
  have hfanout : ∀ fanout : Fanout, fanout.Straight s.passed →
      Sound { s with fanout := fanout } := fun fanout hstraight =>
    ⟨hstraight, h.registry, h.passedPlaces, h.awaitingPlaces, h.later, h.once⟩
  cases label with
  | subscription label =>
    cases hstep
    exact ⟨h.straight, h.registry.apply label, h.passedPlaces, h.awaitingPlaces, h.later, h.once⟩
  | broadcast event =>
    cases hstep
    exact h.broadcast event
  | deduplicated i takes =>
    obtain ⟨b, hget, hrest⟩ := Option.bind_eq_some_iff.mp hstep
    have hmem : b ∈ s.awaiting := List.mem_of_getElem? hget
    dsimp only at hrest
    split_ifs at hrest with hknown
    · cases hrest
      exact h.eraseAwaiting i
    · cases hrest
      obtain ⟨hnew, hlater, hclear⟩ := hnothing b hget hknown
      exact (h.eraseAwaiting i).pass takes (h.awaitingPlaces b hmem)
        (fun m hm hsame => h.later m hm b hmem hsame.symm) hnew hlater hclear
  | dedupFails i =>
    cases hstep
    exact h.eraseAwaiting i
  | forget =>
    cases hstep
    exact ⟨h.straight, h.registry, h.passedPlaces, h.awaitingPlaces, h.later, h.once⟩
  | chunk =>
    obtain ⟨d, hget, hrest⟩ := Option.bind_eq_some_iff.mp hstep
    cases hrest
    exact hfanout _ (h.straight.runDeferred hget (hnothing d hget))
  | flush _ _ isOpen =>
    cases hstep
    exact hfanout _ (h.straight.flush isOpen hnothing)
  | clearConnection =>
    cases hstep
    refine hfanout _ (h.straight.setAccumulators (fun own stream => ?_) fun own stream m hm => ?_)
    · rw [BatchAccumulator.eventsOf_clearConnection]
      split_ifs
      · exact List.Pairwise.nil
      · exact h.straight.batches own stream
    · rw [BatchAccumulator.eventsOf_clearConnection] at hm
      split_ifs at hm
      · cases hm
      · exact Or.inl hm
  | clearAll =>
    cases hstep
    exact hfanout _ (h.straight.setAccumulators (fun own stream => List.Pairwise.nil)
      fun own stream m hm => absurd hm List.not_mem_nil)

theorem Sound.handedInOrder (h : s.Sound) : s.HandedInOrder := by
  intro ws streamId
  have hturn := (h.straight.turns ws streamId).ordered
  have hknown := h.straight.handedKnown ws streamId
  apply And.intro
  · have hsublist := sublist_of_places (fun b hb => h.passedPlaces b (hknown b hb).1) hturn
    have hown := hsublist.filter fun event => decide (event.streamId = streamId)
    rwa [List.filter_eq_self.mpr] at hown
    intro event hevent
    obtain ⟨b, hb, rfl⟩ := List.mem_map.mp hevent
    exact decide_eq_true (hknown b hb).2
  · refine List.pairwise_map.mpr (hturn.imp_of_mem fun {a b} ha hb hbefore hid => ?_)
    have hkey : a.dedupKey = b.dedupKey :=
      Prod.ext ((hknown a ha).2.trans (hknown b hb).2.symm) hid
    have hsame : a = b := List.inj_on_of_nodup_map h.once (hknown a ha).1 (hknown b hb).1 hkey
    rw [hsame] at hbefore
    exact lt_irrefl _ hbefore

def onStreamA : SubscriptionFilter := ⟨some "a", none, none⟩

def eventOfA (eventId : String) : StreamUpdateEvent := ⟨"a", eventId, .null, none, none⟩

/-- Sockets are registered and subscribe, in the order of their numbers. -/
def subscribers (count : ℕ) : List BroadcastLabel :=
  (List.range count).flatMap fun ws =>
    [.subscription (.register ws "c" "10.0.0.1" none), .subscription (.subscribe ws onStreamA)]

def oneBroadcast (eventId : String) : List BroadcastLabel :=
  [.broadcast (eventOfA eventId), .deduplicated 0 fun _ => true]

/-- Of 257 subscribers of a stream the last is in the second chunk of an event. The first one
leaves, and the next event finds the last one in the first chunk. -/
def movedForward : List BroadcastLabel :=
  subscribers 257 ++ oneBroadcast "first" ++ [.subscription (.unsubscribe 0 onStreamA)] ++
    oneBroadcast "second" ++ [.chunk 0 fun _ => true]

end BroadcastHub

end Fluxora.Ws
