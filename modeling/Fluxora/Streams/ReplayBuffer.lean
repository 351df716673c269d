/-
# The replay buffer of live updates

The last events of each stream are kept in the process, and a client that comes back is sent those
after the one it has seen. Events reach the buffer only while the bus has its listener, which is
while anyone is subscribed to any stream.
-/

import Mathlib.Data.List.Infix
import Fluxora.Lib.Transition

namespace Fluxora.Streams

open Lib Lib.Transition

/-! ## The emitter -/

structure LiveSseStreamUpdateEvent (Payload : Type) where
  streamId : String
  eventId : String
  payload : Payload
  correlationId : Option String

structure SseReplayExpiredError where
  afterEventId : String
  deriving DecidableEq

/-- The buffers of the streams, the subscribers of each, and whether the bus has its
listener. -/
structure SseEmitter (Payload : Type) where
  replayBufferByStreamId : String → List (LiveSseStreamUpdateEvent Payload)
  liveSubscribers : List (String × ℕ)
  dispatchAttached : Bool

namespace SseEmitter

variable {Payload : Type}

def empty : SseEmitter Payload := ⟨fun _ => [], [], false⟩

/-- Append an event to the buffer of its stream; the oldest one goes when it is full. -/
def bufferLiveEvent (size : ℕ) (s : SseEmitter Payload)
    (event : LiveSseStreamUpdateEvent Payload) : SseEmitter Payload :=
  let buffered := s.replayBufferByStreamId event.streamId ++ [event]
  { s with
    replayBufferByStreamId :=
      Function.update s.replayBufferByStreamId event.streamId
        (if buffered.length > size then buffered.drop 1 else buffered) }

/-- The events after one, if it is in the buffer. -/
def replayFromBuffer (s : SseEmitter Payload) (streamId afterEventId : String) :
    Except SseReplayExpiredError (List (LiveSseStreamUpdateEvent Payload)) :=
  match (s.replayBufferByStreamId streamId).findIdx? fun e => e.eventId = afterEventId with
  | none => .error ⟨afterEventId⟩
  | some idx => .ok ((s.replayBufferByStreamId streamId).drop (idx + 1))

def subscribersOf (s : SseEmitter Payload) (streamId : String) : List ℕ :=
  (s.liveSubscribers.filter fun own => own.1 = streamId).map (·.2)

/-- What an emission on the bus does to the buffers. -/
def emit (size : ℕ) (s : SseEmitter Payload) (event : LiveSseStreamUpdateEvent Payload) :
    SseEmitter Payload :=
  if s.dispatchAttached then s.bufferLiveEvent size event else s

/-- The subscribers that an emission is handed to. -/
def recipients (s : SseEmitter Payload) (event : LiveSseStreamUpdateEvent Payload) : List ℕ :=
  if s.dispatchAttached then s.subscribersOf event.streamId else []

def subscribeToSseStream (s : SseEmitter Payload) (streamId : String) (subscriber : ℕ) :
    SseEmitter Payload :=
  { s with
    liveSubscribers :=
      if (streamId, subscriber) ∈ s.liveSubscribers then s.liveSubscribers
      else s.liveSubscribers ++ [(streamId, subscriber)]
    dispatchAttached := true }

def detachDispatchIfIdle (s : SseEmitter Payload) : SseEmitter Payload :=
  if s.liveSubscribers.length = 0 then { s with dispatchAttached := false } else s

/-- Take a subscriber from a stream. Nothing happens if the stream has none. -/
def unsubscribe (s : SseEmitter Payload) (streamId : String) (subscriber : ℕ) :
    SseEmitter Payload :=
  if s.subscribersOf streamId = [] then s
  else
    detachDispatchIfIdle
      { s with liveSubscribers := s.liveSubscribers.filter (· ≠ (streamId, subscriber)) }

/-- What is left after the shutdown drain. -/
def drainSseEventBus : SseEmitter Payload := empty

end SseEmitter

/-! ## Runs of the bus -/

/-- What `subscribeToSseStream` has answered. -/
structure SseSubscription where
  streamId : String
  subscriber : ℕ
  unsubscribed : Bool

/-- The emitter, the subscriptions that have been made, all that has been emitted, and what
has been handed to whom. -/
structure SseBus (Payload : Type) where
  emitter : SseEmitter Payload
  subscriptions : List SseSubscription
  emitted : List (LiveSseStreamUpdateEvent Payload)
  received : List (ℕ × LiveSseStreamUpdateEvent Payload)

inductive SseBusLabel (Payload : Type)
  | emit (event : LiveSseStreamUpdateEvent Payload)
  | subscribe (streamId : String) (subscriber : ℕ)
  | unsubscribe (subscription : ℕ)
  | drain

namespace SseBus

variable {Payload : Type}

def start : SseBus Payload := ⟨SseEmitter.empty, [], [], []⟩

def emittedFor (s : SseBus Payload) (streamId : String) :
    List (LiveSseStreamUpdateEvent Payload) :=
  s.emitted.filter fun e => e.streamId = streamId

def step (size : ℕ) (s : SseBus Payload) : SseBusLabel Payload → Option (SseBus Payload)
  | .emit event =>
    some { s with
      emitter := s.emitter.emit size event
      emitted := s.emitted ++ [event]
      received := s.received ++ (s.emitter.recipients event).map fun own => (own, event) }
  | .subscribe streamId subscriber =>
    some { s with
      emitter := s.emitter.subscribeToSseStream streamId subscriber
      subscriptions := s.subscriptions ++ [⟨streamId, subscriber, false⟩] }
  | .unsubscribe subscription => do
      let own ← s.subscriptions[subscription]?
      if own.unsubscribed then some s
      else
        some { s with
          emitter := s.emitter.unsubscribe own.streamId own.subscriber
          subscriptions := s.subscriptions.set subscription { own with unsubscribed := true } }
  | .drain => some { s with emitter := SseEmitter.drainSseEventBus }

/-- What a replay of a stream answers is just what has been emitted for it after the event
that is named. -/
def ResumesExactly (s : SseBus Payload) : Prop :=
  ∀ streamId afterEventId events,
    s.emitter.replayFromBuffer streamId afterEventId = .ok events →
      ∃ before event, s.emittedFor streamId = before ++ event :: events ∧
        event.eventId = afterEventId

/-- An event is emitted while someone is subscribed, or none of its stream is buffered. -/
def Covered (s : SseBus Payload) : SseBusLabel Payload → Prop
  | .emit event =>
    s.emitter.liveSubscribers ≠ [] ∨ s.emitter.replayBufferByStreamId event.streamId = []
  | _ => True

/-- Each event of a stream is emitted with an id of its own. -/
def FreshId (s : SseBus Payload) : SseBusLabel Payload → Prop
  | .emit event => ∀ earlier ∈ s.emittedFor event.streamId, earlier.eventId ≠ event.eventId
  | _ => True

/-! ## The last part of what was emitted -/

/-- The bus has its listener while anyone is subscribed, and each buffer is the last part of
what has been emitted for its stream. -/
structure Unbroken (s : SseBus Payload) : Prop where
  attached_iff : s.emitter.dispatchAttached = true ↔ s.emitter.liveSubscribers ≠ []
  suffix : ∀ streamId, s.emitter.replayBufferByStreamId streamId <:+ s.emittedFor streamId

variable {size : ℕ} {s s' : SseBus Payload} {label : SseBusLabel Payload}

theorem unbroken_start : Unbroken (start : SseBus Payload) where
  attached_iff := by simp [start, SseEmitter.empty]
  suffix streamId := List.nil_suffix

theorem emit_live (size : ℕ) (emitter : SseEmitter Payload)
    (event : LiveSseStreamUpdateEvent Payload) :
    (emitter.emit size event).dispatchAttached = emitter.dispatchAttached ∧
      (emitter.emit size event).liveSubscribers = emitter.liveSubscribers := by
  rw [SseEmitter.emit]
  split_ifs
  · exact ⟨rfl, rfl⟩
  · exact ⟨rfl, rfl⟩

variable {event : LiveSseStreamUpdateEvent Payload}

theorem buffer_emit_suffix {emitter : SseEmitter Payload}
    {emitted : List (LiveSseStreamUpdateEvent Payload)}
    (hsuffix : emitter.replayBufferByStreamId event.streamId <:+ emitted)
    (hcovered : emitter.dispatchAttached = true ∨ emitter.replayBufferByStreamId event.streamId =
      []) :
    (emitter.emit size event).replayBufferByStreamId event.streamId <:+ emitted ++ [event] := by
  rw [SseEmitter.emit]
  split_ifs with hattached
  · rw [SseEmitter.bufferLiveEvent]
    dsimp only
    rw [Function.update_self]
    have hpushed : emitter.replayBufferByStreamId event.streamId ++ [event] <:+
        emitted ++ [event] := by
      obtain ⟨before, hbefore⟩ := hsuffix
      exact ⟨before, by rw [← List.append_assoc, hbefore]⟩
    split_ifs
    · exact (List.drop_suffix 1 _).trans hpushed
    · exact hpushed
  · rw [hcovered.resolve_left hattached]
    exact List.nil_suffix

theorem buffer_emit_of_ne {emitter : SseEmitter Payload} {streamId : String}
    (hne : streamId ≠ event.streamId) :
    (emitter.emit size event).replayBufferByStreamId streamId =
      emitter.replayBufferByStreamId streamId := by
  rw [SseEmitter.emit]
  split_ifs
  · exact Function.update_of_ne hne _ _
  · rfl

theorem emittedFor_emit (event : LiveSseStreamUpdateEvent Payload) (streamId : String)
    (emitter : SseEmitter Payload) (received : List (ℕ × LiveSseStreamUpdateEvent Payload)) :
    emittedFor { s with emitter, emitted := s.emitted ++ [event], received } streamId =
      s.emittedFor streamId ++ if event.streamId = streamId then [event] else [] := by
  rw [emittedFor, emittedFor, List.filter_append]
  split_ifs with hstream
  · rw [List.filter_cons_of_pos (by simpa using hstream), List.filter_nil]
  · rw [List.filter_cons_of_neg (by simpa using hstream), List.filter_nil]

theorem unsubscribe_attached {emitter : SseEmitter Payload}
    (h : emitter.dispatchAttached = true ↔ emitter.liveSubscribers ≠ []) (streamId : String)
    (subscriber : ℕ) :
    (emitter.unsubscribe streamId subscriber).dispatchAttached = true ↔
      (emitter.unsubscribe streamId subscriber).liveSubscribers ≠ [] := by
  rw [SseEmitter.unsubscribe]
  split_ifs with hnone
  · exact h
  · have hlive : emitter.liveSubscribers ≠ [] := fun hempty => by
      rw [SseEmitter.subscribersOf, hempty] at hnone
      exact hnone rfl
    rw [SseEmitter.detachDispatchIfIdle]
    split_ifs with hidle
    · simpa using hidle
    · simpa [h.mpr hlive] using hidle

theorem unsubscribe_buffer (emitter : SseEmitter Payload) (streamId : String)
    (subscriber : ℕ) :
    (emitter.unsubscribe streamId subscriber).replayBufferByStreamId =
      emitter.replayBufferByStreamId := by
  rw [SseEmitter.unsubscribe, SseEmitter.detachDispatchIfIdle]
  split_ifs <;> rfl

theorem Unbroken.step (h : Unbroken s) (hcovered : s.Covered label)
    (hstep : step size s label = some s') : Unbroken s' := by
  cases label with
  | emit event =>
    cases hstep
    obtain ⟨hattached, hlive⟩ := emit_live size s.emitter event
    refine ⟨?_, fun streamId => ?_⟩
    · dsimp only
      rw [hattached, hlive]
      exact h.attached_iff
    · rw [emittedFor_emit]
      dsimp only
      by_cases hstream : streamId = event.streamId
      · subst hstream
        rw [if_pos rfl]
        exact buffer_emit_suffix (h.suffix _) (hcovered.imp_left h.attached_iff.mpr)
      · rw [if_neg (Ne.symm hstream), List.append_nil, buffer_emit_of_ne hstream]
        exact h.suffix streamId
  | subscribe =>
    cases hstep
    refine ⟨?_, h.suffix⟩
    simp only [SseEmitter.subscribeToSseStream, true_iff]
    split_ifs with hthere
    · exact List.ne_nil_of_mem hthere
    · exact List.concat_ne_nil _ _
  | unsubscribe =>
    obtain ⟨own, -, hnext⟩ := Option.bind_eq_some_iff.mp hstep
    split_ifs at hnext
    · cases hnext
      exact h
    · cases hnext
      refine ⟨unsubscribe_attached h.attached_iff _ _, fun streamId => ?_⟩
      dsimp only
      rw [unsubscribe_buffer]
      exact h.suffix streamId
  | drain =>
    cases hstep
    exact ⟨unbroken_start.attached_iff, fun streamId => List.nil_suffix⟩

theorem Unbroken.resumesExactly (h : Unbroken s) : s.ResumesExactly := by
  intro streamId afterEventId events hreplay
  rw [SseEmitter.replayFromBuffer] at hreplay
  split at hreplay
  · cases hreplay
  · next idx hidx =>
      cases hreplay
      obtain ⟨hlt, hid, -⟩ := List.findIdx?_eq_some_iff_getElem.mp hidx
      obtain ⟨before, hbefore⟩ := h.suffix streamId
      refine ⟨before ++ (s.emitter.replayBufferByStreamId streamId).take idx,
        (s.emitter.replayBufferByStreamId streamId)[idx], ?_, of_decide_eq_true hid⟩
      rw [← hbefore, List.append_assoc, List.getElem_cons_drop hlt, List.take_append_drop]

theorem Unbroken.not_resumesExactly (h : Unbroken s) (hfresh : s.FreshId (.emit event))
    (huncovered : ¬ s.Covered (.emit event)) (hstep : SseBus.step size s (.emit event) = some s') :
    ¬ s'.ResumesExactly := by
  intro hresumes
  cases hstep
  obtain ⟨hidle, hbuffered⟩ := not_or.mp huncovered
  have hdetached : ¬ s.emitter.dispatchAttached = true := fun hattached =>
    hidle (h.attached_iff.mp hattached)
  have hsame : s.emitter.emit size event = s.emitter := if_neg hdetached
  obtain ⟨first, hfirst⟩ := List.exists_mem_of_ne_nil _ hbuffered
  obtain ⟨idx, hidx⟩ : ∃ idx, (s.emitter.replayBufferByStreamId event.streamId).findIdx?
      (fun e => e.eventId = first.eventId) = some idx := by
    rw [← Option.isSome_iff_exists, List.findIdx?_isSome, List.any_eq_true]
    exact ⟨first, hfirst, decide_eq_true rfl⟩
  have hreplay : s.emitter.replayFromBuffer event.streamId first.eventId =
      .ok ((s.emitter.replayBufferByStreamId event.streamId).drop (idx + 1)) := by
    rw [SseEmitter.replayFromBuffer, hidx]
  obtain ⟨before, named, hsplit, hnamed⟩ := hresumes event.streamId first.eventId _ (by
    dsimp only
    rw [hsame]
    exact hreplay)
  rw [emittedFor_emit, if_pos rfl] at hsplit
  have hlast : event ∈ named ::
      (s.emitter.replayBufferByStreamId event.streamId).drop (idx + 1) := by
    have hends := congrArg List.getLast? hsplit
    rw [List.getLast?_concat, List.getLast?_append_of_ne_nil _ (List.cons_ne_nil _ _)] at hends
    exact List.mem_of_getLast? hends.symm
  rcases List.mem_cons.mp hlast with rfl | hmem
  · exact hfresh first ((h.suffix _).subset hfirst) hnamed.symm
  · exact hfresh event ((h.suffix _).subset (List.mem_of_mem_drop hmem)) rfl

/-- While every step is covered, a replay has no hole. Where the ids of a stream differ, it
has one as soon as a step is not. -/
theorem resumesExactly_runs (size : ℕ) (labels : List (SseBusLabel Payload)) :
    (EveryStep (step size) (fun s label _ => s.Covered label) start labels →
      EveryStep (step size) (fun _ _ s' => s'.ResumesExactly) start labels) ∧
    (EveryStep (step size) (fun s label s' => s.FreshId label ∧ s'.ResumesExactly) start labels →
      EveryStep (step size) (fun s label _ => s.Covered label) start labels) := by
  apply And.intro
  · refine EveryStep.imp Unbroken ?_ unbroken_start
    intro s label s' h hstep hcovered
    have hnext := h.step hcovered hstep
    exact ⟨hnext.resumesExactly, hnext⟩
  · refine EveryStep.imp Unbroken ?_ unbroken_start
    intro s label s' h hstep ⟨hfresh, hresumes⟩
    have hcovered : s.Covered label := by
      cases label with
      | emit =>
        by_contra huncovered
        exact h.not_resumesExactly hfresh huncovered hstep hresumes
      | subscribe | unsubscribe | drain => trivial
    exact ⟨hcovered, h.step hcovered hstep⟩

def depositEvent (eventId : String) : LiveSseStreamUpdateEvent Unit := ⟨"a-0", eventId, (), none⟩

/-- A client is handed an event and leaves; another client keeps the listener on the bus. -/
def relieved : List (SseBusLabel Unit) :=
  [.subscribe "a-0" 1, .emit (depositEvent "first"), .subscribe "b-0" 2, .unsubscribe 0,
    .emit (depositEvent "second")]

theorem resumesExactly_runs_relieved :
    EveryStep (step 200) (fun _ _ s' => s'.ResumesExactly) start relieved := by
  refine (resumesExactly_runs 200 relieved).1 fun s hs => ⟨trivial, ?_⟩
  cases hs
  refine fun s hs => ⟨Or.inl (by decide), ?_⟩
  cases hs
  refine fun s hs => ⟨trivial, ?_⟩
  cases hs
  refine fun s hs => ⟨trivial, ?_⟩
  cases hs
  refine fun s hs => ⟨Or.inl (by decide), ?_⟩
  cases hs
  trivial

/-- A client is handed an event and leaves. It is told later that nothing has come after that
event, though another one has. -/
theorem missedEvent_notReplayed :
    ¬ ∀ size (labels : List (SseBusLabel Unit)) s, run (step size) start labels = some s →
      ∀ own ∈ s.received, ∀ events,
        s.emitter.replayFromBuffer own.2.streamId own.2.eventId = .ok events →
          ∃ before event, s.emittedFor own.2.streamId = before ++ event :: events ∧
            event.eventId = own.2.eventId := by
  intro h
  obtain ⟨before, event, hsplit, hid⟩ := h 200
    [.subscribe "a-0" 1, .emit (depositEvent "first"), .unsubscribe 0,
      .emit (depositEvent "second")] _ rfl (1, depositEvent "first")
    (List.mem_singleton_self _) [] rfl
  have hends := congrArg List.getLast? hsplit
  rw [List.getLast?_concat] at hends
  have hlast : event = depositEvent "second" := Option.some.inj hends.symm
  rw [hlast] at hid
  exact absurd hid (by decide)

end SseBus

end Fluxora.Streams
