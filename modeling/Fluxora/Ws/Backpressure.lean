/-
# Outbound queues

Each socket has a queue of frames with a ceiling for their number and one for their bytes. A frame
that is taken into the queue is handed to the socket as soon as the peer keeps up; above a
threshold of buffered bytes the queue waits for the next frame, and above another the socket is
terminated. A queue is lost when its socket is closed.
-/

import Mathlib.Algebra.Order.BigOperators.Group.List
import Mathlib.Algebra.Order.Ring.Nat
import Fluxora.Lib.Waiting
import Fluxora.Lib.Transition
import Fluxora.Lib.Utf8

namespace Fluxora.Ws

open Lib Lib.LossyQueue Lib.Transition

/-- The identity of a socket. -/
abbrev Socket := ℕ

/-- A serialized message. -/
abbrev Frame := List Char

def byteLength (message : Frame) : ℕ := (Utf8.bytes message).length

/-- What a socket shows when it is looked at, and what sending on it comes to. -/
structure Look where
  isOpen : Bool
  bufferedAmount : ℕ
  sendThrows : Bool

/-- A socket from one look to the next. -/
abbrev Peer := ℕ → Look

def Peer.next (peer : Peer) : Peer := fun i => peer (i + 1)

structure BackpressureMetrics where
  droppedMessages : ℕ
  terminatedConnections : ℕ
  sentMessages : ℕ

/-- What a registered socket has been sent. -/
structure ConnectionMetrics where
  messagesSent : ℕ
  bytesSent : ℕ

structure QueueCeilings where
  maxQueuePerConnection : ℕ
  maxQueueBytesPerConnection : ℕ

structure OutboundBackpressure where
  dropBytes : ℕ
  terminateBytes : ℕ
  outboundQueues : Socket → Option (List Frame)
  metrics : BackpressureMetrics
  registered : Socket → Option ConnectionMetrics

/-- A frame is taken into the queue of a socket, or is handed to the socket. -/
inductive OutboundEffect
  | accepted (ws : Socket) (message : Frame)
  | handed (ws : Socket) (message : Frame)

def queuedBytes (queue : List Frame) : ℕ :=
  queue.foldl (fun total message => total + byteLength message) 0

namespace OutboundBackpressure

variable (s : OutboundBackpressure) (ceilings : QueueCeilings)

def setQueue (ws : Socket) (queue : Option (List Frame)) : OutboundBackpressure :=
  { s with outboundQueues := Function.update s.outboundQueues ws queue }

/-- The frames that wait for a socket. -/
def queueOf (ws : Socket) : List Frame := (s.outboundQueues ws).getD []

def countDropped (frames : ℕ) : OutboundBackpressure :=
  { s with metrics := { s.metrics with droppedMessages := s.metrics.droppedMessages + frames } }

def countTerminated : OutboundBackpressure :=
  { s with
    metrics := { s.metrics with terminatedConnections := s.metrics.terminatedConnections + 1 } }

def countSent (ws : Socket) (message : Frame) : OutboundBackpressure :=
  { s with
    metrics := { s.metrics with sentMessages := s.metrics.sentMessages + 1 }
    registered :=
      match s.registered ws with
      | none => s.registered
      | some own => Function.update s.registered ws
          (some ⟨own.messagesSent + 1, own.bytesSent + byteLength message⟩) }

/-- Forget the frames of a registered socket, and the socket. -/
def disconnect (ws : Socket) : OutboundBackpressure :=
  match s.registered ws with
  | none => s
  | some _ => { s.setQueue ws none with registered := Function.update s.registered ws none }

/-- Hand on the frames of a queue while the peer keeps up: what has been handed on. -/
def flushOutboundQueue (ws : Socket) :
    OutboundBackpressure → Peer → List Frame → List Frame × OutboundBackpressure
  | s, _, [] => ([], s.setQueue ws none)
  | s, peer, next :: rest =>
    let look := peer 0
    if look.isOpen = false then ([], s.setQueue ws none)
    else if look.bufferedAmount > s.terminateBytes then
      ([], ((s.setQueue ws (some (next :: rest))).countTerminated.countDropped
        (rest.length + 1)).disconnect ws)
    else if look.bufferedAmount > s.dropBytes then ([], s.setQueue ws (some (next :: rest)))
    else if look.sendThrows then ([next], (s.setQueue ws (some rest)).countDropped 1)
    else
      let flushed := flushOutboundQueue ws (s.countSent ws next) peer.next rest
      (next :: flushed.1, flushed.2)

/-- Take a frame into the queue of a socket and hand on what can be: whether it is taken. -/
def queueOutboundMessage (ws : Socket) (message : Frame) (peer : Peer) :
    (Bool × List OutboundEffect) × OutboundBackpressure :=
  if (peer 0).isOpen = false then ((false, []), s)
  else
    let queue := s.queueOf ws
    if queue.length ≥ ceilings.maxQueuePerConnection ∨
        queuedBytes queue + byteLength message > ceilings.maxQueueBytesPerConnection then
      ((false, []), s)
    else
      let flushed := flushOutboundQueue ws s peer.next (queue ++ [message])
      ((true, .accepted ws message :: flushed.1.map (.handed ws)), flushed.2)

/-- Deliver a frame to some sockets: what is done to their queues. -/
def deliverBatch (message : Frame) :
    List (Socket × Peer) → OutboundBackpressure → List OutboundEffect × OutboundBackpressure
  | [], s => ([], s)
  | (ws, peer) :: rest, s =>
    let look := peer 0
    let own :=
      if look.isOpen = false then ([], s)
      else if look.bufferedAmount > s.terminateBytes then
        ([], (s.countTerminated.countDropped 1).disconnect ws)
      else if look.bufferedAmount > s.dropBytes then ([], s.countDropped 1)
      else
        let queued := s.queueOutboundMessage ceilings ws message peer.next
        (queued.1.2, if queued.1.1 then queued.2 else queued.2.countDropped 1)
    let others := deliverBatch message rest own.2
    (own.1 ++ others.1, others.2)

def clearAll : OutboundBackpressure := { s with outboundQueues := fun _ => none }

def setThresholds (drop terminate : Option ℕ) : OutboundBackpressure :=
  { s with
    dropBytes := drop.getD s.dropBytes
    terminateBytes := terminate.getD s.terminateBytes }

def register (ws : Socket) : OutboundBackpressure :=
  { s with registered := Function.update s.registered ws (some ⟨0, 0⟩) }

def resetMetrics : OutboundBackpressure := { s with metrics := ⟨0, 0, 0⟩ }

end OutboundBackpressure

/-! ## Runs -/

/-- The queues with all that has been done to them. -/
structure OutboundRun where
  outbound : OutboundBackpressure
  effects : List OutboundEffect

inductive OutboundLabel
  | register (ws : Socket)
  | queue (ws : Socket) (message : Frame) (peer : Peer)
  | deliver (batch : List (Socket × Peer)) (message : Frame)
  | disconnect (ws : Socket)
  | clearAll
  | setThresholds (drop terminate : Option ℕ)
  | countDropped (frames : ℕ)
  | resetMetrics

/-- The frames that have been taken into the queue of a socket. -/
def acceptedFor (ws : Socket) (effects : List OutboundEffect) : List Frame :=
  effects.filterMap fun
    | .accepted own message => if own = ws then some message else none
    | .handed _ _ => none

/-- The frames that have been handed to a socket. -/
def handedTo (ws : Socket) (effects : List OutboundEffect) : List Frame :=
  effects.filterMap fun
    | .accepted _ _ => none
    | .handed own message => if own = ws then some message else none

namespace OutboundRun

def start (dropBytes terminateBytes : ℕ) : OutboundRun :=
  ⟨⟨dropBytes, terminateBytes, fun _ => none, ⟨0, 0, 0⟩, fun _ => none⟩, []⟩

def step (ceilings : QueueCeilings) (w : OutboundRun) : OutboundLabel → Option OutboundRun
  | .register ws => some { w with outbound := w.outbound.register ws }
  | .queue ws message peer =>
    let queued := w.outbound.queueOutboundMessage ceilings ws message peer
    some ⟨queued.2, w.effects ++ queued.1.2⟩
  | .deliver batch message =>
    let delivered := OutboundBackpressure.deliverBatch ceilings message batch w.outbound
    some ⟨delivered.2, w.effects ++ delivered.1⟩
  | .disconnect ws => some { w with outbound := w.outbound.disconnect ws }
  | .clearAll => some { w with outbound := w.outbound.clearAll }
  | .setThresholds drop terminate =>
    some { w with outbound := w.outbound.setThresholds drop terminate }
  | .countDropped frames => some { w with outbound := w.outbound.countDropped frames }
  | .resetMetrics => some { w with outbound := w.outbound.resetMetrics }

end OutboundRun

/-! ## What a flush does -/

theorem queuedBytes_eq_sum (queue : List Frame) :
    queuedBytes queue = (queue.map byteLength).sum := by
  rw [queuedBytes, List.sum_eq_foldl, List.foldl_map]

theorem queuedBytes_append (first second : List Frame) :
    queuedBytes (first ++ second) = queuedBytes first + queuedBytes second := by
  rw [queuedBytes_eq_sum, queuedBytes_eq_sum, queuedBytes_eq_sum, List.map_append,
    List.sum_append]

theorem queuedBytes_le_of_sublist {first second : List Frame} (h : first.Sublist second) :
    queuedBytes first ≤ queuedBytes second := by
  rw [queuedBytes_eq_sum, queuedBytes_eq_sum]
  exact (h.map byteLength).sum_le_sum fun _ _ => Nat.zero_le _

namespace OutboundBackpressure

variable {s : OutboundBackpressure} {ws other : Socket} {queue : List Frame}

@[simp]
theorem queueOf_setQueue_self (s : OutboundBackpressure) (ws : Socket)
    (queue : Option (List Frame)) : (s.setQueue ws queue).queueOf ws = queue.getD [] := by
  rw [queueOf, setQueue]
  dsimp only
  rw [Function.update_self]

theorem queueOf_setQueue_of_ne (hne : other ≠ ws) (queue : Option (List Frame)) :
    (s.setQueue ws queue).queueOf other = s.queueOf other := by
  rw [queueOf, setQueue, queueOf]
  dsimp only
  rw [Function.update_of_ne hne]

@[simp]
theorem queueOf_countDropped (s : OutboundBackpressure) (frames : ℕ) (ws : Socket) :
    (s.countDropped frames).queueOf ws = s.queueOf ws := rfl

@[simp]
theorem queueOf_countTerminated (s : OutboundBackpressure) (ws : Socket) :
    s.countTerminated.queueOf ws = s.queueOf ws := rfl

@[simp]
theorem queueOf_countSent (s : OutboundBackpressure) (own : Socket) (message : Frame)
    (ws : Socket) : (s.countSent own message).queueOf ws = s.queueOf ws := rfl

theorem queueOf_disconnect (s : OutboundBackpressure) (ws other : Socket) :
    (s.disconnect ws).queueOf other = s.queueOf other ∨
      other = ws ∧ (s.disconnect ws).queueOf other = [] := by
  rw [disconnect]
  cases s.registered ws with
  | none => exact Or.inl rfl
  | some =>
    change (s.setQueue ws none).queueOf other = s.queueOf other ∨
      other = ws ∧ (s.setQueue ws none).queueOf other = []
    by_cases hother : other = ws
    · subst hother
      exact Or.inr ⟨rfl, queueOf_setQueue_self s other none⟩
    · exact Or.inl (queueOf_setQueue_of_ne hother none)

theorem queueOf_disconnect_sublist (s : OutboundBackpressure) (ws other : Socket) :
    ((s.disconnect ws).queueOf other).Sublist (s.queueOf other) := by
  rcases queueOf_disconnect s ws other with hsame | ⟨-, hlost⟩
  · rw [hsame]
  · rw [hlost]
    exact List.nil_sublist _

theorem flushOutboundQueue_sublist (ws : Socket) (s : OutboundBackpressure) (peer : Peer)
    (queue : List Frame) :
    ((flushOutboundQueue ws s peer queue).1 ++
      (flushOutboundQueue ws s peer queue).2.queueOf ws).Sublist queue := by
  induction queue generalizing s peer with
  | nil =>
    rw [flushOutboundQueue, queueOf_setQueue_self]
    exact List.Sublist.refl _
  | cons next _ ih =>
    rw [flushOutboundQueue]
    dsimp only
    split_ifs
    · rw [queueOf_setQueue_self]
      exact List.nil_sublist _
    · refine (queueOf_disconnect_sublist _ ws ws).trans ?_
      rw [queueOf_countDropped, queueOf_countTerminated, queueOf_setQueue_self]
      exact List.Sublist.refl _
    · rw [queueOf_setQueue_self]
      exact List.Sublist.refl _
    · rw [queueOf_countDropped, queueOf_setQueue_self]
      exact List.Sublist.refl _
    · exact (ih (s.countSent ws next) peer.next).cons_cons next

theorem flushOutboundQueue_of_ne (hne : other ≠ ws) (s : OutboundBackpressure) (peer : Peer)
    (queue : List Frame) :
    (flushOutboundQueue ws s peer queue).2.queueOf other = s.queueOf other := by
  induction queue generalizing s peer with
  | nil =>
    rw [flushOutboundQueue]
    exact queueOf_setQueue_of_ne hne none
  | cons next rest ih =>
    rw [flushOutboundQueue]
    dsimp only
    split_ifs
    · exact queueOf_setQueue_of_ne hne none
    · rcases queueOf_disconnect
        (((s.setQueue ws (some (next :: rest))).countTerminated).countDropped
        (rest.length + 1)) ws other with hsame | ⟨hsocket, -⟩
      · rw [hsame, queueOf_countDropped, queueOf_countTerminated]
        exact queueOf_setQueue_of_ne hne _
      · exact absurd hsocket hne
    · exact queueOf_setQueue_of_ne hne _
    · exact queueOf_setQueue_of_ne hne _
    · rw [ih, queueOf_countSent]

end OutboundBackpressure

/-! ## Ceilings and order -/

/-- The queue of every socket is within its ceilings, and what has been handed to the socket
and what waits for it are, in this order, a part of what was accepted. -/
structure Within (ceilings : QueueCeilings) (s : OutboundBackpressure)
    (effects : List OutboundEffect) : Prop where
  number : ∀ ws, (s.queueOf ws).length ≤ ceilings.maxQueuePerConnection
  bytes : ∀ ws, queuedBytes (s.queueOf ws) ≤ ceilings.maxQueueBytesPerConnection
  inOrder : ∀ ws, InOrder (acceptedFor ws effects) (handedTo ws effects) (s.queueOf ws)

section

variable {ceilings : QueueCeilings} {s s' : OutboundBackpressure}
  {effects : List OutboundEffect}

theorem Within.lose (h : Within ceilings s effects)
    (hlost : ∀ ws, (s'.queueOf ws).Sublist (s.queueOf ws)) : Within ceilings s' effects where
  number ws := (hlost ws).length_le.trans (h.number ws)
  bytes ws := (queuedBytes_le_of_sublist (hlost ws)).trans (h.bytes ws)
  inOrder ws := (h.inOrder ws).lose (hlost ws)

theorem acceptedFor_append (ws : Socket) (first second : List OutboundEffect) :
    acceptedFor ws (first ++ second) = acceptedFor ws first ++ acceptedFor ws second :=
  List.filterMap_append

theorem handedTo_append (ws : Socket) (first second : List OutboundEffect) :
    handedTo ws (first ++ second) = handedTo ws first ++ handedTo ws second :=
  List.filterMap_append

theorem acceptedFor_taken (ws own : Socket) (message : Frame) (out : List Frame) :
    acceptedFor ws (.accepted own message :: out.map (.handed own)) =
      if own = ws then [message] else [] := by
  have hnone : acceptedFor ws (out.map (.handed own)) = [] := by
    rw [acceptedFor, List.filterMap_map, List.filterMap_eq_nil_iff]
    intro frame _
    rfl
  rw [← List.singleton_append, acceptedFor_append, hnone, List.append_nil]
  split_ifs with hown
  · simp [acceptedFor, hown]
  · simp [acceptedFor, hown]

theorem handedTo_taken (ws own : Socket) (message : Frame) (out : List Frame) :
    handedTo ws (.accepted own message :: out.map (.handed own)) =
      if own = ws then out else [] := by
  rw [← List.singleton_append, handedTo_append]
  split_ifs with hown
  · subst hown
    simp [handedTo, List.filterMap_map]
  · simp [handedTo, List.filterMap_map, hown]

theorem Within.queueOutboundMessage (h : Within ceilings s effects) (ws : Socket)
    (message : Frame) (peer : Peer) :
    Within ceilings (s.queueOutboundMessage ceilings ws message peer).2
      (effects ++ (s.queueOutboundMessage ceilings ws message peer).1.2) := by
  rw [OutboundBackpressure.queueOutboundMessage]
  dsimp only
  split_ifs with hclosed hfull
  · rw [List.append_nil]
    exact h
  · rw [List.append_nil]
    exact h
  · obtain ⟨hnumber, hbytes⟩ := not_or.mp hfull
    have hflushed := OutboundBackpressure.flushOutboundQueue_sublist ws s peer.next
      (s.queueOf ws ++ [message])
    have hleft := (List.sublist_append_right _ _).trans hflushed
    have hpushedNumber : (s.queueOf ws ++ [message]).length ≤ ceilings.maxQueuePerConnection := by
      rw [List.length_append, List.length_singleton]
      omega
    have hpushedBytes : queuedBytes (s.queueOf ws ++ [message]) ≤
        ceilings.maxQueueBytesPerConnection := by
      rw [queuedBytes_append]
      have hone : queuedBytes [message] = byteLength message := Nat.zero_add _
      omega
    refine ⟨fun own => ?_, fun own => ?_, fun own => ?_⟩
    · by_cases hown : own = ws
      · subst hown
        exact hleft.length_le.trans hpushedNumber
      · rw [OutboundBackpressure.flushOutboundQueue_of_ne hown]
        exact h.number own
    · by_cases hown : own = ws
      · subst hown
        exact (queuedBytes_le_of_sublist hleft).trans hpushedBytes
      · rw [OutboundBackpressure.flushOutboundQueue_of_ne hown]
        exact h.bytes own
    · rw [acceptedFor_append, handedTo_append, acceptedFor_taken, handedTo_taken]
      by_cases hown : own = ws
      · subst hown
        rw [if_pos rfl, if_pos rfl]
        exact ((h.inOrder own).accept message).handAll hflushed
      · rw [if_neg (Ne.symm hown), if_neg (Ne.symm hown), List.append_nil, List.append_nil,
          OutboundBackpressure.flushOutboundQueue_of_ne hown]
        exact h.inOrder own

theorem Within.deliverBatch (h : Within ceilings s effects) (message : Frame)
    (batch : List (Socket × Peer)) :
    Within ceilings (OutboundBackpressure.deliverBatch ceilings message batch s).2
      (effects ++ (OutboundBackpressure.deliverBatch ceilings message batch s).1) := by
  induction batch generalizing s effects with
  | nil =>
    rw [OutboundBackpressure.deliverBatch, List.append_nil]
    exact h
  | cons own _ ih =>
    obtain ⟨ws, peer⟩ := own
    rw [OutboundBackpressure.deliverBatch]
    dsimp only
    rw [← List.append_assoc]
    refine ih ?_
    split_ifs
    · rw [List.append_nil]
      exact h
    · rw [List.append_nil]
      exact h.lose fun other => OutboundBackpressure.queueOf_disconnect_sublist _ ws other
    · rw [List.append_nil]
      exact h.lose fun other => List.Sublist.refl _
    · exact h.queueOutboundMessage ws message peer.next
    · exact (h.queueOutboundMessage ws message peer.next).lose fun other => List.Sublist.refl _

end

namespace OutboundRun

variable {ceilings : QueueCeilings} {w w' : OutboundRun}

theorem within_start (dropBytes terminateBytes : ℕ) :
    Within ceilings (start dropBytes terminateBytes).outbound
      (start dropBytes terminateBytes).effects where
  number _ := Nat.zero_le _
  bytes _ := Nat.zero_le _
  inOrder _ := InOrder.nil

theorem within_step (h : Within ceilings w.outbound w.effects) {label : OutboundLabel}
    (hstep : w.step ceilings label = some w') : Within ceilings w'.outbound w'.effects := by
  cases label with
  | queue ws message peer =>
    cases hstep
    exact h.queueOutboundMessage ws message peer
  | deliver batch message =>
    cases hstep
    exact h.deliverBatch message batch
  | disconnect ws =>
    cases hstep
    exact h.lose fun other => OutboundBackpressure.queueOf_disconnect_sublist _ ws other
  | clearAll =>
    cases hstep
    exact h.lose fun other => List.nil_sublist _
  | register | setThresholds | countDropped | resetMetrics =>
    cases hstep
    exact h.lose fun other => List.Sublist.refl _

/-- In every run, the queue of every socket is within its ceilings, its bytes are those of its
frames, and the frames handed to the socket are accepted ones in their order, each once. -/
theorem queues_within_ceilings (ceilings : QueueCeilings) (dropBytes terminateBytes : ℕ)
    (labels : List OutboundLabel) {w : OutboundRun}
    (hrun : run (step ceilings) (start dropBytes terminateBytes) labels = some w) (ws : Socket) :
    (w.outbound.queueOf ws).length ≤ ceilings.maxQueuePerConnection ∧
      queuedBytes (w.outbound.queueOf ws) ≤ ceilings.maxQueueBytesPerConnection ∧
      queuedBytes (w.outbound.queueOf ws) = ((w.outbound.queueOf ws).map byteLength).sum ∧
      (handedTo ws w.effects).Sublist (acceptedFor ws w.effects) := by
  have hwithin : Within ceilings w.outbound w.effects :=
    invariant_of_run (fun s label s' h hstep => within_step h hstep)
      (within_start dropBytes terminateBytes) hrun
  exact ⟨hwithin.number ws, hwithin.bytes ws, queuedBytes_eq_sum _,
    (hwithin.inOrder ws).handed_sublist⟩

/-- A socket with a number of bytes buffered at every look. -/
def steadyPeer (bufferedAmount : ℕ) : Peer := fun _ => ⟨true, bufferedAmount, false⟩

/-- A socket is slow for three frames, the last of which finds too many bytes waiting, and
then takes what has waited. -/
def slowThenFast : List OutboundLabel :=
  [.register 1, .queue 1 "one".toList (steadyPeer 2000), .queue 1 "two".toList (steadyPeer 2000),
    .queue 1 "three".toList (steadyPeer 2000), .setThresholds (some 3000) none,
    .deliver [(1, steadyPeer 2000)] "four".toList]

theorem queues_within_ceilings_slowThenFast :
    ∃ w, run (step ⟨3, 10⟩) (start 1000 4000) slowThenFast = some w ∧
      (w.outbound.queueOf 1).length ≤ 3 ∧ queuedBytes (w.outbound.queueOf 1) ≤ 10 ∧
      queuedBytes (w.outbound.queueOf 1) = ((w.outbound.queueOf 1).map byteLength).sum ∧
      (handedTo 1 w.effects).Sublist (acceptedFor 1 w.effects) :=
  ⟨_, rfl, queues_within_ceilings ⟨3, 10⟩ 1000 4000 slowThenFast rfl 1⟩

end OutboundRun

end Fluxora.Ws
