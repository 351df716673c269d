/-
# The fan-out of events

An event is broadcast, let through by the dedup cache when that answers, and dispatched to the
subscribers of that moment. Those that want batches have it accumulated. The others are handed it
a chunk at a time: the first chunk at once, each other one in a later turn of the event loop. In
between anything may happen: other events are dispatched, windows of batches end, subscriptions
change, connections close.
-/

import Fluxora.Lib.Waiting
import Fluxora.Ws.Batching
import Fluxora.Ws.SubscriptionRouter

namespace Fluxora.Ws

open Lib Lib.SetIndex Lib.Transition Lib.Turns

def fanoutYieldBatch : ℕ := 256

/-- An event with the place of its broadcast among all. -/
abbrev Broadcast := StreamUpdateEvent × ℕ

namespace Broadcast

def streamId (b : Broadcast) : String := b.1.streamId

/-- What the dedup cache goes by. -/
def dedupKey (b : Broadcast) : String × String := (b.1.streamId, b.1.eventId)

def entry (b : Broadcast) : BatchedEvent :=
  ⟨b.1.streamId, b.1.eventId, b.1.payload, b.1.correlationId⟩

/-- An earlier broadcast. -/
def Before (a b : Broadcast) : Prop := a.2 < b.2

end Broadcast

/-- A fan-out that goes on in a later turn. -/
structure DeferredFanout where
  broadcast : Broadcast
  rest : List Socket

/-- What is on its way to the sockets, and what each was handed of each stream. -/
structure Fanout where
  accumulators : BatchAccumulator Broadcast
  deferred : List DeferredFanout
  handed : Socket → String → List Broadcast

namespace Fanout

variable (f : Fanout) (maxSize : ℕ) (b : Broadcast) (takes : Socket → Bool)

def empty : Fanout := ⟨fun _ => none, [], fun _ _ => []⟩

def handTo (ws : Socket) (streamId : String) (out : List Broadcast) : Fanout :=
  { f with
    handed := fun own stream =>
      if own = ws ∧ stream = streamId then f.handed own stream ++ out else f.handed own stream }

/-- `takes` says which sockets are still open and not too slow. -/
def deliverBatch (batch : List Socket) : Fanout :=
  (batch.filter takes).foldl (fun f ws => f.handTo ws b.streamId [b]) f

def enqueue (ws : Socket) : Fanout :=
  let result := f.accumulators.enqueue Broadcast.entry maxSize ws b.streamId b
  { f with accumulators := result.2 }.handTo ws b.streamId (if takes ws then result.1 else [])

/-- A chunk is delivered, and the rest comes later. -/
def nextChunk (sockets : List Socket) : Fanout :=
  let delivered := f.deliverBatch b takes (sockets.take fanoutYieldBatch)
  if fanoutYieldBatch < sockets.length then
    { delivered with
      deferred := delivered.deferred ++ [⟨b, sockets.drop fanoutYieldBatch⟩] }
  else delivered

def dispatchEvent (targets : FanoutTargets) : Fanout :=
  let enqueued :=
    (targets.batched.map Prod.fst).foldl (fun f ws => f.enqueue maxSize b takes ws) f
  if targets.immediate.length ≤ fanoutYieldBatch then
    enqueued.deliverBatch b takes targets.immediate
  else enqueued.nextChunk b takes targets.immediate

/-- Another turn for a deferred fan-out. -/
def runDeferred (i : ℕ) (d : DeferredFanout) : Fanout :=
  { f with deferred := f.deferred.eraseIdx i }.nextChunk d.broadcast takes d.rest

def flush (ws : Socket) (streamId : String) (isOpen : Bool) : Fanout :=
  let result := f.accumulators.flush Broadcast.entry ws streamId
  { f with accumulators := result.2 }.handTo ws streamId (if isOpen then result.1 else [])

/-! ## What waits -/

def WaitsInChunk (ws : Socket) (streamId : String) (b : Broadcast) : Prop :=
  ∃ d ∈ f.deferred, d.broadcast = b ∧ b.streamId = streamId ∧ ws ∈ d.rest

def WaitsInBatch (ws : Socket) (streamId : String) (b : Broadcast) : Prop :=
  b ∈ f.accumulators.eventsOf ws streamId

/-- An event of a stream waits for a socket, in a chunk or in a batch. -/
def Waits (ws : Socket) (streamId : String) (b : Broadcast) : Prop :=
  f.WaitsInChunk ws streamId b ∨ f.WaitsInBatch ws streamId b

/-- Every socket was handed the events of every stream in order, and what waits comes later.
All of it was let through. -/
structure Straight (passed : List Broadcast) : Prop where
  turns : ∀ ws streamId, InTurn Broadcast.Before (f.handed ws streamId) (f.Waits ws streamId)
  batches : ∀ ws streamId, (f.accumulators.eventsOf ws streamId).Pairwise Broadcast.Before
  handedKnown : ∀ ws streamId, ∀ b ∈ f.handed ws streamId, b ∈ passed ∧ b.streamId = streamId
  waitsKnown : ∀ ws streamId b, f.Waits ws streamId b → b ∈ passed ∧ b.streamId = streamId
  rests : ∀ d ∈ f.deferred, d.rest.Nodup

variable {f maxSize b takes} {passed : List Broadcast} {ws own : Socket} {streamId stream : String}
  {batch sockets : List Socket}

theorem not_waits_empty (ws : Socket) (streamId : String) (b : Broadcast) :
    ¬ empty.Waits ws streamId b := by
  rintro (⟨d, hd, -⟩ | hbatch)
  · exact absurd hd List.not_mem_nil
  · exact absurd hbatch List.not_mem_nil

theorem straight_empty (passed : List Broadcast) : empty.Straight passed where
  turns _ _ := InTurn.nil
  batches _ _ := List.Pairwise.nil
  handedKnown _ _ _ hmem := absurd hmem List.not_mem_nil
  waitsKnown ws streamId b hwaits := absurd hwaits (not_waits_empty ws streamId b)
  rests _ hmem := absurd hmem List.not_mem_nil

theorem Straight.mono (h : f.Straight passed) {more : List Broadcast} (hsub : passed ⊆ more) :
    f.Straight more where
  turns := h.turns
  batches := h.batches
  handedKnown ws streamId b hb := (h.handedKnown ws streamId b hb).imp_left fun hmem => hsub hmem
  waitsKnown ws streamId b hb := (h.waitsKnown ws streamId b hb).imp_left fun hmem => hsub hmem
  rests := h.rests

/-! ## Handing over -/

theorem handed_handTo (f : Fanout) (ws : Socket) (streamId : String) (out : List Broadcast)
    (own : Socket) (stream : String) :
    (f.handTo ws streamId out).handed own stream =
      if own = ws ∧ stream = streamId then f.handed own stream ++ out else f.handed own stream :=
  rfl

variable {out : List Broadcast}

theorem Straight.handTo (h : f.Straight passed) (hordered : out.Pairwise Broadcast.Before)
    (hafter : ∀ m ∈ f.handed ws streamId, ∀ b ∈ out, m.Before b)
    (hbefore : ∀ b ∈ out, ∀ m, f.Waits ws streamId m → b.Before m)
    (hknown : ∀ b ∈ out, b ∈ passed ∧ b.streamId = streamId) :
    (f.handTo ws streamId out).Straight passed where
  turns own stream := by
    rw [handed_handTo]
    split_ifs with hown
    · rw [hown.1, hown.2]
      exact (h.turns ws streamId).hand hordered hafter hbefore
    · exact h.turns own stream
  batches := h.batches
  handedKnown own stream b hb := by
    rw [handed_handTo] at hb
    split_ifs at hb with hown
    · rw [hown.1, hown.2] at hb
      rw [hown.2]
      exact (List.mem_append.mp hb).elim (h.handedKnown ws streamId b) (hknown b)
    · exact h.handedKnown own stream b hb
  waitsKnown := h.waitsKnown
  rests := h.rests

theorem handed_foldl_handTo (hnodup : batch.Nodup) (own : Socket) (stream : String) :
    (batch.foldl (fun f ws => f.handTo ws b.streamId [b]) f).handed own stream =
      if own ∈ batch ∧ stream = b.streamId then f.handed own stream ++ [b]
      else f.handed own stream := by
  induction batch generalizing f with
  | nil => simp
  | cons ws _ ih =>
    obtain ⟨hnew, hrest⟩ := List.nodup_cons.mp hnodup
    rw [List.foldl_cons, ih hrest, handed_handTo]
    by_cases hown : own = ws
    · subst hown
      simp [hnew]
    · simp [hown]

theorem rest_foldl_handTo (batch : List Socket) :
    (batch.foldl (fun f ws => f.handTo ws b.streamId [b]) f).accumulators = f.accumulators ∧
      (batch.foldl (fun f ws => f.handTo ws b.streamId [b]) f).deferred = f.deferred := by
  induction batch generalizing f with
  | nil => exact ⟨rfl, rfl⟩
  | cons _ _ ih => exact ih

theorem handed_deliverBatch (hnodup : batch.Nodup) (own : Socket) (stream : String) :
    (f.deliverBatch b takes batch).handed own stream =
      if (own ∈ batch ∧ takes own = true) ∧ stream = b.streamId then f.handed own stream ++ [b]
      else f.handed own stream := by
  rw [deliverBatch, handed_foldl_handTo (hnodup.filter _)]
  simp only [List.mem_filter]

theorem waits_deliverBatch {m : Broadcast} :
    (f.deliverBatch b takes batch).Waits own stream m ↔ f.Waits own stream m := by
  obtain ⟨haccumulators, hdeferred⟩ : (f.deliverBatch b takes batch).accumulators =
      f.accumulators ∧ (f.deliverBatch b takes batch).deferred = f.deferred :=
    rest_foldl_handTo (batch.filter takes)
  rw [Waits, WaitsInChunk, WaitsInBatch, haccumulators, hdeferred]
  rfl

theorem Straight.deliverBatch (h : f.Straight passed) (hb : b ∈ passed) (hnodup : batch.Nodup)
    (hafter : ∀ ws ∈ batch, ∀ m ∈ f.handed ws b.streamId, m.Before b)
    (hbefore : ∀ ws ∈ batch, ∀ m, f.Waits ws b.streamId m → b.Before m) :
    (f.deliverBatch b takes batch).Straight passed := by
  obtain ⟨haccumulators, hdeferred⟩ : (f.deliverBatch b takes batch).accumulators =
      f.accumulators ∧ (f.deliverBatch b takes batch).deferred = f.deferred :=
    rest_foldl_handTo (batch.filter takes)
  constructor
  case turns =>
    intro own stream
    rw [handed_deliverBatch hnodup]
    have hturn : InTurn Broadcast.Before (f.handed own stream)
        ((f.deliverBatch b takes batch).Waits own stream) :=
      (h.turns own stream).change fun m hm => Or.inl (waits_deliverBatch.mp hm)
    split_ifs with hown
    · obtain ⟨⟨hmem, -⟩, rfl⟩ := hown
      refine hturn.hand (List.pairwise_singleton _ _) (fun m hm c hc => ?_) fun c hc m hm => ?_
      · rw [List.mem_singleton.mp hc]
        exact hafter own hmem m hm
      · rw [List.mem_singleton.mp hc]
        exact hbefore own hmem m (waits_deliverBatch.mp hm)
    · exact hturn
  case batches =>
    rw [haccumulators]
    exact h.batches
  case handedKnown =>
    intro own stream m hm
    rw [handed_deliverBatch hnodup] at hm
    split_ifs at hm with hown
    · rcases List.mem_append.mp hm with hold | hnew
      · exact h.handedKnown own stream m hold
      · rw [List.mem_singleton.mp hnew]
        exact ⟨hb, hown.2.symm⟩
    · exact h.handedKnown own stream m hm
  case waitsKnown =>
    exact fun own stream m hm => h.waitsKnown own stream m (waits_deliverBatch.mp hm)
  case rests =>
    rw [hdeferred]
    exact h.rests

theorem Straight.defer (h : f.Straight passed) {rest : List Socket} (hb : b ∈ passed)
    (hnodup : rest.Nodup) (hafter : ∀ ws ∈ rest, ∀ m ∈ f.handed ws b.streamId, m.Before b) :
    Straight { f with deferred := f.deferred ++ [⟨b, rest⟩] } passed := by
  have hwaits : ∀ own stream m,
      Waits { f with deferred := f.deferred ++ [⟨b, rest⟩] } own stream m →
        f.Waits own stream m ∨ m = b ∧ b.streamId = stream ∧ own ∈ rest := by
    rintro own stream m (⟨d, hd, hdm, hstream, hown⟩ | hbatch)
    · rcases List.mem_append.mp hd with hold | hnew
      · exact Or.inl (Or.inl ⟨d, hold, hdm, hstream, hown⟩)
      · rw [List.mem_singleton.mp hnew] at hdm hown
        subst hdm
        exact Or.inr ⟨rfl, hstream, hown⟩
    · exact Or.inl (Or.inr hbatch)
  refine ⟨fun own stream => ?_, h.batches, h.handedKnown, fun own stream m hm => ?_, ?_⟩
  · refine (h.turns own stream).change fun m hm => ?_
    rcases hwaits own stream m hm with hold | ⟨rfl, rfl, hown⟩
    · exact Or.inl hold
    · exact Or.inr (hafter own hown)
  · rcases hwaits own stream m hm with hold | ⟨rfl, hstream, -⟩
    · exact h.waitsKnown own stream m hold
    · exact ⟨hb, hstream⟩
  · intro d hd
    rcases List.mem_append.mp hd with hold | hnew
    · exact h.rests d hold
    · rw [List.mem_singleton.mp hnew]
      exact hnodup

theorem Straight.nextChunk (h : f.Straight passed) (hb : b ∈ passed) (hnodup : sockets.Nodup)
    (hafter : ∀ ws ∈ sockets, ∀ m ∈ f.handed ws b.streamId, m.Before b)
    (hbefore : ∀ ws ∈ sockets.take fanoutYieldBatch, ∀ m, f.Waits ws b.streamId m → b.Before m) :
    (f.nextChunk b takes sockets).Straight passed := by
  have hfirst : (sockets.take fanoutYieldBatch).Nodup := hnodup.sublist (List.take_sublist _ _)
  have hdelivered : (f.deliverBatch b takes (sockets.take fanoutYieldBatch)).Straight passed :=
    h.deliverBatch hb hfirst (fun ws hws => hafter ws (List.mem_of_mem_take hws)) hbefore
  rw [Fanout.nextChunk]
  split_ifs
  · refine hdelivered.defer hb (hnodup.sublist (List.drop_sublist _ _)) fun ws hws m hm => ?_
    have hother : ws ∉ sockets.take fanoutYieldBatch := fun htake =>
      List.disjoint_take_drop hnodup le_rfl htake hws
    rw [handed_deliverBatch hfirst, if_neg fun hown => hother hown.1.1] at hm
    exact hafter ws (List.mem_of_mem_drop hws) m hm
  · exact hdelivered

/-! ## Batches -/

theorem Straight.setAccumulators (h : f.Straight passed)
    {accumulators : BatchAccumulator Broadcast}
    (hordered : ∀ own stream, (accumulators.eventsOf own stream).Pairwise Broadcast.Before)
    (hnew : ∀ own stream, ∀ m ∈ accumulators.eventsOf own stream,
      f.WaitsInBatch own stream m ∨
        (m ∈ passed ∧ m.streamId = stream) ∧ ∀ a ∈ f.handed own stream, a.Before m) :
    Straight { f with accumulators := accumulators } passed where
  turns own stream := by
    refine (h.turns own stream).change fun m hm => ?_
    rcases hm with hchunk | hbatch
    · exact Or.inl (Or.inl hchunk)
    · exact (hnew own stream m hbatch).imp (fun hold => Or.inr hold) And.right
  batches := hordered
  handedKnown := h.handedKnown
  waitsKnown own stream m hm := by
    rcases hm with hchunk | hbatch
    · exact h.waitsKnown own stream m (Or.inl hchunk)
    · rcases hnew own stream m hbatch with hold | ⟨hknown, -⟩
      · exact h.waitsKnown own stream m (Or.inr hold)
      · exact hknown
  rests := h.rests

/-- The batch of a socket and a stream is left with nothing, and the socket is handed events for
which nothing older waits in a chunk. -/
theorem Straight.emptyBatch (h : f.Straight passed) {accumulators : BatchAccumulator Broadcast}
    (hleft : ∀ own stream, accumulators.eventsOf own stream = if own = ws ∧ stream = streamId then
      [] else f.accumulators.eventsOf own stream) (hordered : out.Pairwise Broadcast.Before)
    (hafter : ∀ m ∈ f.handed ws streamId, ∀ c ∈ out, m.Before c)
    (hchunks : ∀ c ∈ out, ∀ m, f.WaitsInChunk ws streamId m → c.Before m)
    (hknown : ∀ c ∈ out, c ∈ passed ∧ c.streamId = streamId) :
    (Fanout.handTo { f with accumulators := accumulators } ws streamId out).Straight passed := by
  have hemptied : Straight { f with accumulators := accumulators } passed := by
    apply h.setAccumulators
    · intro own stream
      rw [hleft]
      split_ifs
      · exact List.Pairwise.nil
      · exact h.batches own stream
    · intro own stream m hm
      rw [hleft] at hm
      split_ifs at hm with hown
      · cases hm
      · exact Or.inl hm
  refine hemptied.handTo hordered hafter (fun c hc m hm => ?_) hknown
  rcases hm with hchunk | hbatch
  · exact hchunks c hc m hchunk
  · rw [WaitsInBatch, hleft, if_pos ⟨rfl, rfl⟩] at hbatch
    cases hbatch

theorem Straight.flush (h : f.Straight passed) (isOpen : Bool)
    (hchunks : ∀ c ∈ f.accumulators.eventsOf ws streamId, ∀ m,
      f.WaitsInChunk ws streamId m → c.Before m) :
    (f.flush ws streamId isOpen).Straight passed := by
  obtain ⟨hsent, hleft⟩ := BatchAccumulator.flush_spec Broadcast.entry f.accumulators ws streamId
  have hout : (if isOpen then (f.accumulators.flush Broadcast.entry ws streamId).1 else []).Sublist
      (f.accumulators.eventsOf ws streamId) := by
    split_ifs
    · exact hsent.sublist
    · exact List.nil_sublist _
  apply h.emptyBatch hleft
  · exact (h.batches ws streamId).sublist hout
  · exact fun m hm c hc => (h.turns ws streamId).ahead m hm c (Or.inr (hout.subset hc))
  · exact fun c hc => hchunks c (hout.subset hc)
  · exact fun c hc => h.waitsKnown ws streamId c (Or.inr (hout.subset hc))

theorem Straight.growBatch (h : f.Straight passed) (hb : b ∈ passed)
    {accumulators : BatchAccumulator Broadcast}
    (hleft : ∀ own stream, accumulators.eventsOf own stream =
      if own = ws ∧ stream = b.streamId then f.accumulators.eventsOf ws b.streamId ++ [b]
      else f.accumulators.eventsOf own stream)
    (hordered : (f.accumulators.eventsOf ws b.streamId ++ [b]).Pairwise Broadcast.Before)
    (hafter : ∀ m ∈ f.handed ws b.streamId, m.Before b) :
    Straight { f with accumulators := accumulators } passed := by
  apply h.setAccumulators
  · intro own stream
    rw [hleft]
    split_ifs with hown
    · exact hordered
    · exact h.batches own stream
  · intro own stream m hm
    rw [hleft] at hm
    split_ifs at hm with hown
    · obtain ⟨rfl, rfl⟩ := hown
      rcases List.mem_append.mp hm with hold | hnew
      · exact Or.inl hold
      · rw [List.mem_singleton.mp hnew]
        exact Or.inr ⟨⟨hb, rfl⟩, hafter⟩
    · exact Or.inl hm

/-- An event that is accumulated comes after all that the socket was handed and all that waits
for it in the batch. If the batch is full then, nothing waits in a chunk. -/
theorem Straight.enqueue (h : f.Straight passed) (hb : b ∈ passed)
    (hafter : ∀ m ∈ f.handed ws b.streamId, m.Before b)
    (hbatch : ∀ m, f.WaitsInBatch ws b.streamId m → m.Before b)
    (hfull : maxSize ≤ (f.accumulators.eventsOf ws b.streamId).length + 1 →
      ∀ m, ¬ f.WaitsInChunk ws b.streamId m) : (f.enqueue maxSize b takes ws).Straight passed := by
  have hordered : (f.accumulators.eventsOf ws b.streamId ++ [b]).Pairwise Broadcast.Before :=
    List.pairwise_append.mpr ⟨h.batches ws b.streamId, List.pairwise_singleton _ _,
      fun m hm c hc => by
        rw [List.mem_singleton.mp hc]
        exact hbatch m hm⟩
  rw [Fanout.enqueue]
  rcases BatchAccumulator.enqueue_cases Broadcast.entry f.accumulators maxSize ws b.streamId b with
    ⟨henough, hsent, hleft⟩ | ⟨hnone, hleft⟩
  · have hout : (if takes ws then
        (f.accumulators.enqueue Broadcast.entry maxSize ws b.streamId b).1 else []).Sublist
          (f.accumulators.eventsOf ws b.streamId ++ [b]) := by
      split_ifs
      · exact hsent.sublist
      · exact List.nil_sublist _
    apply h.emptyBatch hleft
    · exact hordered.sublist hout
    · intro m hm c hc
      rcases List.mem_append.mp (hout.subset hc) with hold | hnew
      · exact (h.turns ws b.streamId).ahead m hm c (Or.inr hold)
      · rw [List.mem_singleton.mp hnew]
        exact hafter m hm
    · exact fun c _ m hchunk => absurd hchunk (hfull henough m)
    · intro c hc
      rcases List.mem_append.mp (hout.subset hc) with hold | hnew
      · exact h.waitsKnown ws b.streamId c (Or.inr hold)
      · rw [List.mem_singleton.mp hnew]
        exact ⟨hb, rfl⟩
  · rw [hnone, ite_self]
    have hgrown : Straight { f with accumulators :=
        (f.accumulators.enqueue Broadcast.entry maxSize ws b.streamId b).2 } passed :=
      h.growBatch hb hleft hordered hafter
    exact hgrown.handTo List.Pairwise.nil (fun m _ c hc => absurd hc List.not_mem_nil)
      (fun c hc => absurd hc List.not_mem_nil) fun c hc => absurd hc List.not_mem_nil

theorem enqueue_of_ne (f : Fanout) (maxSize : ℕ) (b : Broadcast) (takes : Socket → Bool)
    (hne : own ≠ ws) (stream : String) :
    (f.enqueue maxSize b takes ws).handed own stream = f.handed own stream ∧
      (f.enqueue maxSize b takes ws).accumulators.eventsOf own stream =
        f.accumulators.eventsOf own stream ∧
      (f.enqueue maxSize b takes ws).deferred = f.deferred := by
  rw [Fanout.enqueue]
  refine ⟨if_neg fun hown => hne hown.1, ?_, rfl⟩
  rcases BatchAccumulator.enqueue_cases Broadcast.entry f.accumulators maxSize ws b.streamId b with
    ⟨-, -, hleft⟩ | ⟨-, hleft⟩
  · exact (hleft own stream).trans (if_neg fun hown => hne hown.1)
  · exact (hleft own stream).trans (if_neg fun hown => hne hown.1)

theorem foldl_enqueue_of_not_mem (hown : own ∉ sockets) (stream : String) :
    (sockets.foldl (fun f ws => f.enqueue maxSize b takes ws) f).handed own stream =
        f.handed own stream ∧
      ∀ m, (sockets.foldl (fun f ws => f.enqueue maxSize b takes ws) f).Waits own stream m ↔
        f.Waits own stream m := by
  induction sockets generalizing f with
  | nil => exact ⟨rfl, fun m => Iff.rfl⟩
  | cons _ _ ih =>
    obtain ⟨hne, hrest⟩ := not_or.mp (mt List.mem_cons.mpr hown)
    obtain ⟨hhanded, hevents, hdeferred⟩ := enqueue_of_ne f maxSize b takes hne stream
    obtain ⟨hhanded', hwaits⟩ := ih hrest
    rw [List.foldl_cons]
    refine ⟨hhanded'.trans hhanded, fun m => (hwaits m).trans ?_⟩
    rw [Waits, WaitsInChunk, WaitsInBatch, hevents, hdeferred]
    rfl

theorem Straight.enqueueAll (h : f.Straight passed) (hb : b ∈ passed) (hnodup : sockets.Nodup)
    (hafter : ∀ ws ∈ sockets, ∀ m ∈ f.handed ws b.streamId, m.Before b)
    (hbatch : ∀ ws ∈ sockets, ∀ m, f.WaitsInBatch ws b.streamId m → m.Before b)
    (hfull : ∀ ws ∈ sockets, maxSize ≤ (f.accumulators.eventsOf ws b.streamId).length + 1 →
      ∀ m, ¬ f.WaitsInChunk ws b.streamId m) :
    (sockets.foldl (fun f ws => f.enqueue maxSize b takes ws) f).Straight passed := by
  induction sockets generalizing f with
  | nil => exact h
  | cons ws rest ih =>
    obtain ⟨hnew, hrest⟩ := List.nodup_cons.mp hnodup
    have hfirst := List.mem_cons_self (a := ws) (l := rest)
    have hsame : ∀ own ∈ rest, own ≠ ws := fun own hown heq => hnew (heq ▸ hown)
    refine ih (h.enqueue hb (hafter ws hfirst) (hbatch ws hfirst) (hfull ws hfirst)) hrest
      (fun own hown m hm => ?_) (fun own hown m hm => ?_) fun own hown henough m hm => ?_
    · rw [(enqueue_of_ne f maxSize b takes (hsame own hown) b.streamId).1] at hm
      exact hafter own (List.mem_cons_of_mem _ hown) m hm
    · rw [WaitsInBatch, (enqueue_of_ne f maxSize b takes (hsame own hown) b.streamId).2.1] at hm
      exact hbatch own (List.mem_cons_of_mem _ hown) m hm
    · obtain ⟨-, hevents, hdeferred⟩ :=
        enqueue_of_ne f maxSize b takes (hsame own hown) b.streamId
      rw [hevents] at henough
      rw [WaitsInChunk, hdeferred] at hm
      exact hfull own (List.mem_cons_of_mem _ hown) henough m hm

/-! ## A whole dispatch -/

/-- The targets of an event for which something older waits elsewhere are not handed it yet. -/
structure Clear (f : Fanout) (maxSize : ℕ) (b : Broadcast) (targets : FanoutTargets) : Prop where
  immediate : ∀ ws ∈ targets.immediate.take fanoutYieldBatch, ∀ m, ¬ f.Waits ws b.streamId m
  batched : ∀ ws ∈ targets.batched.map Prod.fst,
    maxSize ≤ (f.accumulators.eventsOf ws b.streamId).length + 1 →
      ∀ m, ¬ f.WaitsInChunk ws b.streamId m

theorem clear_empty (maxSize : ℕ) (b : Broadcast) (targets : FanoutTargets) :
    empty.Clear maxSize b targets where
  immediate ws _ m := not_waits_empty ws b.streamId m
  batched ws _ _ m hchunk := not_waits_empty ws b.streamId m (Or.inl hchunk)

theorem Straight.dispatchEvent (h : f.Straight passed) {targets : FanoutTargets}
    (hnodup : targets.sockets.Nodup) (hclear : f.Clear maxSize b targets) (hb : b ∈ passed)
    (hnewest : ∀ ws m, m ∈ f.handed ws b.streamId ∨ f.Waits ws b.streamId m → m.Before b) :
    (f.dispatchEvent maxSize b takes targets).Straight passed := by
  obtain ⟨hbatched, himmediate, hdisjoint⟩ := List.nodup_append.mp hnodup
  have henqueued : ((targets.batched.map Prod.fst).foldl
      (fun f ws => f.enqueue maxSize b takes ws) f).Straight passed :=
    h.enqueueAll hb hbatched (fun ws _ m hm => hnewest ws m (Or.inl hm))
      (fun ws _ m hm => hnewest ws m (Or.inr (Or.inr hm))) hclear.batched
  have hsame : ∀ ws ∈ targets.immediate, ws ∉ targets.batched.map Prod.fst := fun ws hws hmem =>
    hdisjoint ws hmem ws hws rfl
  have hchunk : (((targets.batched.map Prod.fst).foldl
      (fun f ws => f.enqueue maxSize b takes ws) f).nextChunk b takes
        targets.immediate).Straight passed := by
    refine henqueued.nextChunk hb himmediate (fun ws hws m hm => ?_) fun ws hws m hm => ?_
    · rw [(foldl_enqueue_of_not_mem (hsame ws hws) b.streamId).1] at hm
      exact hnewest ws m (Or.inl hm)
    · obtain ⟨-, hwaits⟩ :=
        foldl_enqueue_of_not_mem (hsame ws (List.mem_of_mem_take hws)) b.streamId
      exact absurd ((hwaits m).mp hm) (hclear.immediate ws hws m)
  rw [Fanout.dispatchEvent]
  split_ifs with hfew
  · rw [Fanout.nextChunk, if_neg (not_lt.mpr hfew), List.take_of_length_le hfew] at hchunk
    exact hchunk
  · exact hchunk

theorem Straight.runDeferred (h : f.Straight passed) {i : ℕ} {d : DeferredFanout}
    (hd : f.deferred[i]? = some d)
    (hbefore : ∀ ws ∈ d.rest.take fanoutYieldBatch, ∀ m,
      Waits { f with deferred := f.deferred.eraseIdx i } ws d.broadcast.streamId m →
        d.broadcast.Before m) :
    (f.runDeferred takes i d).Straight passed := by
  have hmem : d ∈ f.deferred := List.mem_of_getElem? hd
  have hfewer : ∀ own stream m, Waits { f with deferred := f.deferred.eraseIdx i } own stream m →
      f.Waits own stream m := by
    rintro own stream m (⟨e, he, hrest⟩ | hbatch)
    · exact Or.inl ⟨e, List.mem_of_mem_eraseIdx he, hrest⟩
    · exact Or.inr hbatch
  have herased : Straight { f with deferred := f.deferred.eraseIdx i } passed :=
    ⟨fun own stream => (h.turns own stream).change fun m hm => Or.inl (hfewer own stream m hm),
      h.batches, h.handedKnown, fun own stream m hm => h.waitsKnown own stream m
        (hfewer own stream m hm), fun e he => h.rests e (List.mem_of_mem_eraseIdx he)⟩
  have hwaits : ∀ ws ∈ d.rest, f.Waits ws d.broadcast.streamId d.broadcast := fun ws hws =>
    Or.inl ⟨d, hmem, rfl, rfl, hws⟩
  cases hrest : d.rest with
  | nil =>
    rw [Fanout.runDeferred, hrest]
    exact herased
  | cons ws =>
    have hfirst : ws ∈ d.rest := hrest ▸ List.mem_cons_self
    refine herased.nextChunk (h.waitsKnown ws _ _ (hwaits ws hfirst)).1 (h.rests d hmem)
      (fun own hown m hm => ?_) hbefore
    exact (h.turns own d.broadcast.streamId).ahead m hm d.broadcast (hwaits own hown)

end Fanout

end Fluxora.Ws
