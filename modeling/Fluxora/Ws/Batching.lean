/-
# Batches

A client that wants its events batched gets one frame for the events of a stream within a
window. They are accumulated for each connection and stream, and sent when the window is over
or when there are enough of them. A frame that would be too large has only the first of them.
-/

import Fluxora.Lib.JsonStringify
import Fluxora.Ws.Backpressure

namespace Fluxora.Ws

open Lib Lib.JsonStringify

structure BatchedEvent where
  streamId : String
  eventId : String
  payload : Json
  correlationId : Option String

def maxMessageBytes : ℕ := 4096

def BatchedEvent.json (entry : BatchedEvent) : Json :=
  .object ([("eventId", .string entry.eventId), ("payload", entry.payload)] ++
    entry.correlationId.toList.map fun correlationId => ("correlationId", .string correlationId))

def batchFrame (streamId : String) (events : List BatchedEvent) : Frame :=
  stringify (.object
    [("type", .string "stream_update_batch"),
     ("streamId", .string streamId),
     ("events", .array (events.map BatchedEvent.json))])

/-- The binary search for the largest prefix that fits. -/
def largestPrefix (fits : ℕ → Bool) (lo hi : ℕ) : ℕ :=
  if lo < hi then
    if fits ((lo + hi + 1) / 2) then largestPrefix fits ((lo + hi + 1) / 2) hi
    else largestPrefix fits lo ((lo + hi + 1) / 2 - 1)
  else lo
termination_by hi - lo
decreasing_by
  · omega
  · omega

/-- How many of some events are sent. -/
def safeLength (streamId : String) (events : List BatchedEvent) : ℕ :=
  if byteLength (batchFrame streamId events) > maxMessageBytes then
    largestPrefix
      (fun n => byteLength (batchFrame streamId (events.take n)) ≤ maxMessageBytes)
      1 (events.length - 1)
  else events.length

/-! ## Accumulators -/

universe u

variable {β : Type u} (entry : β → BatchedEvent)

/-- The accumulated events of each connection and stream. A connection has an id of its own,
so that it goes by its socket here. -/
abbrev BatchAccumulator (β : Type u) : Type u := Socket × String → Option (List β)

namespace BatchAccumulator

variable (accumulators : BatchAccumulator β)

def eventsOf (ws : Socket) (streamId : String) : List β := (accumulators (ws, streamId)).getD []

/-- The events that are sent of those that were accumulated. -/
def send (streamId : String) (events : List β) : List β :=
  events.take (safeLength streamId (events.map entry))

/-- Accumulate an event: what is sent because there are enough. -/
def enqueue (maxSize : ℕ) (ws : Socket) (streamId : String) (event : β) :
    List β × BatchAccumulator β :=
  let events := accumulators.eventsOf ws streamId ++ [event]
  if maxSize ≤ events.length then
    (send entry streamId events, Function.update accumulators (ws, streamId) none)
  else ([], Function.update accumulators (ws, streamId) (some events))

/-- The window of a connection and stream is over. -/
def flush (ws : Socket) (streamId : String) : List β × BatchAccumulator β :=
  match accumulators (ws, streamId) with
  | none => ([], accumulators)
  | some events =>
    (send entry streamId events, Function.update accumulators (ws, streamId) none)

def clearConnection (ws : Socket) : BatchAccumulator β :=
  fun own => if own.1 = ws then none else accumulators own

def clearAll : BatchAccumulator β := fun _ => none

variable {entry accumulators} {maxSize : ℕ} {ws own : Socket} {streamId stream : String} {event : β}

theorem send_isPrefix (streamId : String) (events : List β) :
    send entry streamId events <+: events :=
  List.take_prefix _ _

theorem eventsOf_update (next : Option (List β)) :
    eventsOf (Function.update accumulators (ws, streamId) next) own stream =
      if own = ws ∧ stream = streamId then next.getD [] else accumulators.eventsOf own stream := by
  rw [eventsOf]
  by_cases hown : own = ws ∧ stream = streamId
  · rw [if_pos hown, hown.1, hown.2, Function.update_self]
  · rw [if_neg hown, Function.update_of_ne fun heq => hown (Prod.mk.inj heq)]
    rfl

theorem eventsOf_clearConnection :
    eventsOf (accumulators.clearConnection ws) own stream =
      if own = ws then [] else accumulators.eventsOf own stream := by
  rw [eventsOf, clearConnection]
  split_ifs <;> rfl

theorem enqueue_cases (entry : β → BatchedEvent) (accumulators : BatchAccumulator β)
    (maxSize : ℕ) (ws : Socket) (streamId : String) (event : β) :
    (maxSize ≤ (accumulators.eventsOf ws streamId).length + 1 ∧
        (accumulators.enqueue entry maxSize ws streamId event).1 <+:
          accumulators.eventsOf ws streamId ++ [event] ∧
        ∀ own stream, eventsOf (accumulators.enqueue entry maxSize ws streamId event).2 own stream =
          if own = ws ∧ stream = streamId then [] else accumulators.eventsOf own stream) ∨
      (accumulators.enqueue entry maxSize ws streamId event).1 = [] ∧
        ∀ own stream, eventsOf (accumulators.enqueue entry maxSize ws streamId event).2 own stream =
          if own = ws ∧ stream = streamId then accumulators.eventsOf ws streamId ++ [event]
          else accumulators.eventsOf own stream := by
  rw [enqueue]
  split_ifs with henough
  · left
    dsimp only
    rw [List.length_append] at henough
    exact ⟨henough, send_isPrefix streamId (accumulators.eventsOf ws streamId ++ [event]),
      fun own stream => eventsOf_update none⟩
  · right
    exact ⟨rfl, fun own stream =>
      eventsOf_update (some (accumulators.eventsOf ws streamId ++ [event]))⟩

theorem flush_spec (entry : β → BatchedEvent) (accumulators : BatchAccumulator β) (ws : Socket)
    (streamId : String) :
    (accumulators.flush entry ws streamId).1 <+: accumulators.eventsOf ws streamId ∧
      ∀ own stream, eventsOf (accumulators.flush entry ws streamId).2 own stream =
        if own = ws ∧ stream = streamId then [] else accumulators.eventsOf own stream := by
  rw [flush]
  cases hevents : accumulators (ws, streamId) with
  | none =>
    refine ⟨List.nil_prefix, fun own stream => ?_⟩
    split_ifs with hown
    · rw [hown.1, hown.2]
      simp [eventsOf, hevents]
    · rfl
  | some events =>
    dsimp only
    rw [eventsOf, hevents]
    exact ⟨send_isPrefix streamId events, fun own stream => eventsOf_update none⟩

end BatchAccumulator

end Fluxora.Ws
