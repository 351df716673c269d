/-
# What fits in a batch frame

The bytes of a frame grow with its events, so the search for the largest prefix that fits ends
at it, provided that the first event fits. The events behind the prefix are discarded with the
accumulator that held them.
-/

import Fluxora.Ws.Batching

namespace Fluxora.Ws

open Lib Lib.JsonStringify Lib.Transition

universe u

/-! ## The search -/

/-- One round of the loop, on its two bounds. -/
def searchRound (fits : ℕ → Bool) (bounds : ℕ × ℕ) : ℕ × ℕ :=
  if bounds.1 < bounds.2 then
    if fits ((bounds.1 + bounds.2 + 1) / 2) then ((bounds.1 + bounds.2 + 1) / 2, bounds.2)
    else (bounds.1, (bounds.1 + bounds.2 + 1) / 2 - 1)
  else bounds

theorem largestPrefix_searchRound (fits : ℕ → Bool) (bounds : ℕ × ℕ) :
    largestPrefix fits (searchRound fits bounds).1 (searchRound fits bounds).2 =
      largestPrefix fits bounds.1 bounds.2 := by
  rw [searchRound]
  by_cases hopen : bounds.1 < bounds.2
  · rw [if_pos hopen]
    conv_rhs => rw [largestPrefix, if_pos hopen]
    split <;> rfl
  · rw [if_neg hopen]

theorem searchRound_iterate (fits : ℕ → Bool) (rounds : ℕ) (bounds : ℕ × ℕ)
    (hnear : bounds.2 - bounds.1 < 2 ^ rounds) :
    ¬ ((searchRound fits)^[rounds] bounds).1 < ((searchRound fits)^[rounds] bounds).2 ∧
      ((searchRound fits)^[rounds] bounds).1 = largestPrefix fits bounds.1 bounds.2 := by
  induction rounds generalizing bounds with
  | zero =>
    have hclosed : ¬ bounds.1 < bounds.2 := by omega
    rw [Function.iterate_zero, id_eq, largestPrefix, if_neg hclosed]
    exact ⟨hclosed, rfl⟩
  | succ rounds ih =>
    have hhalf : (searchRound fits bounds).2 - (searchRound fits bounds).1 < 2 ^ rounds := by
      rw [pow_succ] at hnear
      rw [searchRound]
      split_ifs with hopen hmid
      · change bounds.2 - (bounds.1 + bounds.2 + 1) / 2 < 2 ^ rounds
        omega
      · change (bounds.1 + bounds.2 + 1) / 2 - 1 - bounds.1 < 2 ^ rounds
        omega
      · omega
    rw [Function.iterate_succ_apply, ← largestPrefix_searchRound fits bounds]
    exact ih _ hhalf

/-- A search whose lower bound fits ends at the largest number up to the upper bound that fits,
when smaller numbers fit whenever larger ones do. -/
theorem largestPrefix_spec (fits : ℕ → Bool)
    (hmono : ∀ m n, m ≤ n → fits n = true → fits m = true) {lo hi : ℕ} (hle : lo ≤ hi)
    (hlo : fits lo = true) :
    fits (largestPrefix fits lo hi) = true ∧ lo ≤ largestPrefix fits lo hi ∧
      largestPrefix fits lo hi ≤ hi ∧
      ∀ n ≤ hi, fits n = true → n ≤ largestPrefix fits lo hi := by
  fun_induction largestPrefix fits lo hi with
  | case1 _ _ _ hmid ih =>
    obtain ⟨hfits, hlower, hupper, hlargest⟩ := ih (by omega) hmid
    exact ⟨hfits, by omega, hupper, hlargest⟩
  | case2 lo hi _ hmid ih =>
    obtain ⟨hfits, hlower, hupper, hlargest⟩ := ih (by omega) hlo
    refine ⟨hfits, hlower, by omega, fun n hn hnfits => ?_⟩
    by_cases hsmall : n ≤ (lo + hi + 1) / 2 - 1
    · exact hlargest n hsmall hnfits
    · exact absurd (hmono _ n (by omega) hnfits) hmid
  | case3 lo => exact ⟨hlo, le_refl lo, hle, fun n hn _ => by omega⟩

/-! ## The bytes of a frame -/

theorem byteLength_append (text text' : Frame) :
    byteLength (text ++ text') = byteLength text + byteLength text' := by
  rw [byteLength, Utf8.bytes_append, List.length_append, byteLength, byteLength]

theorem intercalate_isPrefix {α : Type u} (separator : List α) {texts texts' : List (List α)}
    (hpre : texts <+: texts') :
    separator.intercalate texts <+: separator.intercalate texts' := by
  induction texts generalizing texts' with
  | nil => exact List.nil_prefix
  | cons _ texts ih =>
    obtain ⟨more, rfl⟩ := hpre
    cases texts with
    | nil =>
      cases more with
      | nil => exact List.prefix_rfl
      | cons =>
        rw [List.cons_append, List.nil_append, List.intercalate_singleton,
          List.intercalate_cons_cons, List.append_assoc]
        exact List.prefix_append _ _
    | cons =>
      rw [List.cons_append, List.cons_append, List.intercalate_cons_cons,
        List.intercalate_cons_cons]
      exact (List.prefix_append_right_inj _).mpr (ih ⟨more, rfl⟩)

theorem stringifyItems_eq (items : List Json) : stringifyItems items = items.map stringify := by
  induction items with
  | nil => rw [stringifyItems, List.map_nil]
  | cons _ _ ih => rw [stringifyItems, ih, List.map_cons]

/-- What stands in front of the events. -/
def frameHead (streamId : String) : Frame :=
  '{' :: (stringify (.string "type") ++ ':' :: stringify (.string "stream_update_batch")) ++
    ',' :: (stringify (.string "streamId") ++ ':' :: stringify (.string streamId)) ++
    ',' :: stringify (.string "events") ++ [':', '[']

def frameEvents (events : List BatchedEvent) : Frame :=
  [','].intercalate ((events.map BatchedEvent.json).map stringify)

theorem batchFrame_eq (streamId : String) (events : List BatchedEvent) :
    batchFrame streamId events = frameHead streamId ++ frameEvents events ++ [']', '}'] := by
  simp only [batchFrame, frameHead, frameEvents, stringify, stringifyEntries, stringifyItems_eq,
    List.intercalate_cons_cons, List.intercalate_singleton, List.append_assoc, List.cons_append,
    List.nil_append]

theorem byteLength_batchFrame (streamId : String) (events : List BatchedEvent) :
    byteLength (batchFrame streamId events) =
      byteLength (frameHead streamId) + byteLength (frameEvents events) + 2 := by
  rw [batchFrame_eq, byteLength_append, byteLength_append]
  rfl

theorem byteLength_batchFrame_mono (streamId : String) {events events' : List BatchedEvent}
    (hpre : events <+: events') :
    byteLength (batchFrame streamId events) ≤ byteLength (batchFrame streamId events') := by
  have hevents : frameEvents events <+: frameEvents events' :=
    intercalate_isPrefix _ ((hpre.map _).map _)
  obtain ⟨more, hmore⟩ := hevents
  rw [byteLength_batchFrame, byteLength_batchFrame, ← hmore, byteLength_append]
  omega

/-! ## The events that are sent -/

def Fits (streamId : String) (events : List BatchedEvent) : Prop :=
  byteLength (batchFrame streamId events) ≤ maxMessageBytes

instance (streamId : String) (events : List BatchedEvent) : Decidable (Fits streamId events) :=
  inferInstanceAs (Decidable (_ ≤ _))

theorem Fits.of_isPrefix {streamId : String} {events events' : List BatchedEvent}
    (hfits : Fits streamId events') (hpre : events <+: events') : Fits streamId events :=
  (byteLength_batchFrame_mono streamId hpre).trans hfits

theorem safeLength_spec {streamId : String} {events : List BatchedEvent} (hne : events ≠ [])
    (hfirst : Fits streamId (events.take 1)) :
    Fits streamId (events.take (safeLength streamId events)) ∧
      safeLength streamId events ≤ events.length ∧
      ∀ n ≤ events.length, Fits streamId (events.take n) → n ≤ safeLength streamId events := by
  have hpos : 0 < events.length := List.length_pos_iff.mpr hne
  rw [safeLength]
  by_cases hlarge : byteLength (batchFrame streamId events) > maxMessageBytes
  · rw [if_pos hlarge]
    have hnot : ¬ Fits streamId events := not_le.mpr hlarge
    have htwo : 1 ≤ events.length - 1 := by
      by_contra hone
      have hwhole : events.take 1 = events := List.take_of_length_le (by omega)
      exact hnot (hwhole ▸ hfirst)
    obtain ⟨hfits, -, hupper, hlargest⟩ := largestPrefix_spec
      (fun n => decide (byteLength (batchFrame streamId (events.take n)) ≤ maxMessageBytes))
      (fun m n hle hn => decide_eq_true
        (Fits.of_isPrefix (of_decide_eq_true hn) (List.take_prefix_take_left hle)))
      htwo (decide_eq_true hfirst)
    refine ⟨of_decide_eq_true hfits, by omega, fun n hn hnfits => ?_⟩
    apply hlargest n _ (decide_eq_true hnfits)
    by_contra hall
    have hwhole : events.take n = events := List.take_of_length_le (by omega)
    exact hnot (hwhole ▸ hnfits)
  · rw [if_neg hlarge]
    rw [List.take_length]
    exact ⟨not_lt.mp hlarge, le_refl _, fun n hn _ => hn⟩

/-! ## Runs of the accumulators -/

variable {β : Type u} (entry : β → BatchedEvent) (maxSize : ℕ)

/-- A call, with what the socket shows when a batch is sent. -/
inductive BatchCall (β : Type u) where
  | enqueue (ws : Socket) (event : β) (isOpen : Bool)
  | flush (ws : Socket) (streamId : String) (isOpen : Bool)
  | clearConnection (ws : Socket)
  | clearAll

/-- The accumulators with what each connection and stream was given, and the batches that were
sent. -/
structure BatchWorld (β : Type u) where
  accumulators : BatchAccumulator β := fun _ => none
  accepted : Socket × String → List β := fun _ => []
  batches : Socket × String → List (List β) := fun _ => []

/-- A batch is sent on a socket that is open, and an empty one is not sent. -/
def sendBatch (batches : Socket × String → List (List β)) (own : Socket × String) (isOpen : Bool)
    (batch : List β) : Socket × String → List (List β) :=
  if isOpen ∧ batch ≠ [] then Function.update batches own (batches own ++ [batch]) else batches

namespace BatchWorld

variable (w : BatchWorld β)

def step : BatchCall β → BatchWorld β
  | .enqueue ws event isOpen =>
    let own := (ws, (entry event).streamId)
    let queued := w.accumulators.enqueue entry maxSize ws (entry event).streamId event
    { accumulators := queued.2
      accepted := Function.update w.accepted own (w.accepted own ++ [event])
      batches := sendBatch w.batches own isOpen queued.1 }
  | .flush ws streamId isOpen =>
    let flushed := w.accumulators.flush entry ws streamId
    { w with
      accumulators := flushed.2
      batches := sendBatch w.batches (ws, streamId) isOpen flushed.1 }
  | .clearConnection ws => { w with accumulators := w.accumulators.clearConnection ws }
  | .clearAll => { w with accumulators := BatchAccumulator.clearAll }

/-- The batches sent and the events that are pending are some of those accepted, in order. -/
def InOrder : Prop :=
  ∀ ws streamId, ((w.batches (ws, streamId)).flatten ++
    w.accumulators.eventsOf ws streamId).Sublist (w.accepted (ws, streamId))

variable {w}

theorem flatten_sendBatch (batches : Socket × String → List (List β))
    (own other : Socket × String) (isOpen : Bool) (batch : List β) :
    (sendBatch batches own isOpen batch other).flatten.Sublist
      ((batches other).flatten ++ if other = own then batch else []) := by
  rw [sendBatch]
  by_cases hsent : isOpen ∧ batch ≠ []
  · rw [if_pos hsent]
    by_cases hother : other = own
    · subst hother
      simp
    · simp [hother]
  · rw [if_neg hsent]
    exact List.sublist_append_left _ _

theorem sublist_of_sent {before after : List β} {accepted accepted' pending pending' : List β}
    {own other : Socket × String} {batch : List β} (hbefore : (before ++ pending).Sublist accepted)
    (hafter : after.Sublist (before ++ if other = own then batch else []))
    (hsame : other = own → (batch ++ pending').Sublist (pending ++ accepted') )
    (hother : other ≠ own → pending' = pending ∧ accepted' = []) :
    (after ++ pending').Sublist (accepted ++ accepted') := by
  by_cases hown : other = own
  · rw [if_pos hown] at hafter
    calc
      (after ++ pending').Sublist (before ++ batch ++ pending') :=
        hafter.append (List.Sublist.refl _)
      _ = before ++ (batch ++ pending') := List.append_assoc _ _ _
      (before ++ (batch ++ pending')).Sublist (before ++ (pending ++ accepted')) :=
        (List.Sublist.refl _).append (hsame hown)
      _ = before ++ pending ++ accepted' := (List.append_assoc _ _ _).symm
      (before ++ pending ++ accepted').Sublist (accepted ++ accepted') :=
        hbefore.append (List.Sublist.refl _)
  · rw [if_neg hown, List.append_nil] at hafter
    obtain ⟨rfl, rfl⟩ := hother hown
    rw [List.append_nil]
    exact (hafter.append (List.Sublist.refl _)).trans hbefore

theorem InOrder.step (hordered : w.InOrder) (call : BatchCall β) :
    (w.step entry maxSize call).InOrder := by
  intro own stream
  have hbefore := hordered own stream
  cases call with
  | enqueue ws event isOpen =>
    simp only [BatchWorld.step]
    have haccepted : Function.update w.accepted (ws, (entry event).streamId)
        (w.accepted (ws, (entry event).streamId) ++ [event]) (own, stream) =
          w.accepted (own, stream) ++
            if (own, stream) = (ws, (entry event).streamId) then [event] else [] := by
      by_cases hown : (own, stream) = (ws, (entry event).streamId)
      · rw [if_pos hown, hown, Function.update_self]
      · rw [if_neg hown, Function.update_of_ne hown, List.append_nil]
    rw [haccepted]
    apply sublist_of_sent hbefore (flatten_sendBatch w.batches _ _ isOpen _)
    · intro hown
      obtain ⟨rfl, rfl⟩ := Prod.mk.inj hown
      rw [if_pos rfl]
      cases BatchAccumulator.enqueue_cases entry w.accumulators maxSize own
          (entry event).streamId event with
      | inl hsent =>
        obtain ⟨-, hpre, hleft⟩ := hsent
        rw [hleft, if_pos ⟨rfl, rfl⟩, List.append_nil]
        exact hpre.sublist
      | inr hkept =>
        obtain ⟨hnone, hleft⟩ := hkept
        rw [hnone, hleft, if_pos ⟨rfl, rfl⟩, List.nil_append]
    · intro hown
      have hother : ¬ (own = ws ∧ stream = (entry event).streamId) :=
        fun h => hown (Prod.ext h.1 h.2)
      rw [if_neg hown]
      cases BatchAccumulator.enqueue_cases entry w.accumulators maxSize ws
          (entry event).streamId event with
      | inl hsent => exact ⟨by rw [hsent.2.2, if_neg hother], rfl⟩
      | inr hkept => exact ⟨by rw [hkept.2, if_neg hother], rfl⟩
  | flush ws streamId isOpen =>
    simp only [BatchWorld.step]
    rw [← List.append_nil (w.accepted (own, stream))]
    obtain ⟨hpre, hleft⟩ := BatchAccumulator.flush_spec entry w.accumulators ws streamId
    apply sublist_of_sent hbefore (flatten_sendBatch w.batches _ _ isOpen _)
    · intro hown
      obtain ⟨rfl, rfl⟩ := Prod.mk.inj hown
      rw [hleft, if_pos ⟨rfl, rfl⟩, List.append_nil, List.append_nil]
      exact hpre.sublist
    · intro hown
      have hother : ¬ (own = ws ∧ stream = streamId) := fun h => hown (Prod.ext h.1 h.2)
      exact ⟨by rw [hleft, if_neg hother], rfl⟩
  | clearConnection =>
    simp only [BatchWorld.step, BatchAccumulator.eventsOf_clearConnection]
    split_ifs
    · exact ((List.Sublist.refl _).append (List.nil_sublist _)).trans hbefore
    · exact hbefore
  | clearAll => exact ((List.Sublist.refl _).append (List.nil_sublist _)).trans hbefore

theorem inOrder_foldl (hordered : w.InOrder) (calls : List (BatchCall β)) :
    (calls.foldl (BatchWorld.step entry maxSize) w).InOrder := by
  induction calls generalizing w with
  | nil => exact hordered
  | cons call _ ih => exact ih (hordered.step entry maxSize call)

end BatchWorld

/-! ## Main results -/

/-- The search ends, and what is sent is a prefix of the events; if the first event fits, it is
the longest one that fits. Over a run the batches hold events in order and none twice; the rest
of a queue is discarded. -/
theorem send_longestPrefix :
    (∀ streamId (events : List β),
      BatchAccumulator.send entry streamId events <+: events ∧
      (∀ fits : ℕ → Bool, ∃ rounds ≤ events.length,
        ¬ ((searchRound fits)^[rounds] (1, events.length - 1)).1 <
            ((searchRound fits)^[rounds] (1, events.length - 1)).2 ∧
          ((searchRound fits)^[rounds] (1, events.length - 1)).1 =
            largestPrefix fits 1 (events.length - 1)) ∧
      (events ≠ [] → Fits streamId ((events.take 1).map entry) →
        Fits streamId ((BatchAccumulator.send entry streamId events).map entry) ∧
        ∀ sent, sent <+: events → Fits streamId (sent.map entry) →
          sent <+: BatchAccumulator.send entry streamId events)) ∧
    ∀ (calls : List (BatchCall β)) ws streamId,
      ((calls.foldl (BatchWorld.step entry maxSize) {}).batches (ws, streamId)).flatten.Sublist
        ((calls.foldl (BatchWorld.step entry maxSize) {}).accepted (ws, streamId)) := by
  refine ⟨fun streamId events => ⟨?isPrefix, ?ends, ?longest⟩, ?inOrder⟩
  case isPrefix => exact BatchAccumulator.send_isPrefix streamId events
  case ends =>
    intro fits
    have hnear : events.length - 1 - 1 < 2 ^ events.length :=
      lt_of_le_of_lt (by omega) Nat.lt_two_pow_self
    exact ⟨events.length, le_refl _, searchRound_iterate fits _ _ hnear⟩
  case longest =>
    intro hne hfirst
    rw [List.map_take] at hfirst
    obtain ⟨hfits, -, hlargest⟩ := safeLength_spec (by simpa using hne) hfirst
    apply And.intro
    · rwa [BatchAccumulator.send, List.map_take]
    · intro sent hsent hsentFits
      have htake : sent = events.take sent.length := List.prefix_iff_eq_take.mp hsent
      have hlength : sent.length ≤ safeLength streamId (events.map entry) := by
        apply hlargest _ (by simpa using hsent.length_le)
        rwa [← List.map_take, ← htake]
      rw [BatchAccumulator.send, htake]
      exact List.take_prefix_take_left hlength
  case inOrder =>
    intro calls ws streamId
    have hstart : BatchWorld.InOrder ({} : BatchWorld β) := fun _ _ => List.Sublist.refl _
    exact (List.sublist_append_left _ _).trans
      (BatchWorld.inOrder_foldl entry maxSize hstart calls ws streamId)

/-! ## Two long events -/

/-- An event whose id is a letter three thousand times. -/
def longEvent (letter : Char) : BatchedEvent :=
  ⟨"s", String.ofList (List.replicate 3000 letter), .null, none⟩

theorem byteLength_replicate {letter : Char} (hletter : letter.utf8Size = 1) (n : ℕ) :
    byteLength (List.replicate n letter) = n := by
  induction n with
  | zero => rfl
  | succ _ ih =>
    have hone : byteLength [letter] = 1 := by
      rw [byteLength, Utf8.bytes, List.flatMap_singleton, String.length_utf8EncodeChar, hletter]
    rw [List.replicate_succ', byteLength_append, ih, hone]

theorem byteLength_longEvent {letter : Char} (hplain : JsonText.IsPlain letter)
    (hletter : letter.utf8Size = 1) :
    byteLength (stringify (longEvent letter).json) = 3029 := by
  have hquote : JsonText.quote (String.ofList (List.replicate 3000 letter)).toList =
      '"' :: List.replicate 3000 letter ++ ['"'] := by
    rw [String.toList_ofList]
    exact JsonText.quote_of_isPlain fun c hc => List.eq_of_mem_replicate hc ▸ hplain
  have htext : stringify (longEvent letter).json =
      ('{' :: JsonText.quote "eventId".toList ++ [':', '"']) ++ List.replicate 3000 letter ++
        ('"' :: ',' :: JsonText.quote "payload".toList ++ [':', 'n', 'u', 'l', 'l', '}']) := by
    simp only [longEvent, BatchedEvent.json, Option.toList_none, List.map_nil, List.append_nil,
      stringify, stringifyEntries, hquote, List.intercalate_cons_cons, List.intercalate_singleton,
      List.append_assoc, List.cons_append, List.nil_append]
  have hfront : byteLength ('{' :: JsonText.quote "eventId".toList ++ [':', '"']) = 12 := by decide
  have hback : byteLength
      ('"' :: ',' :: JsonText.quote "payload".toList ++ [':', 'n', 'u', 'l', 'l', '}']) = 17 := by
    decide
  rw [htext, byteLength_append, byteLength_append, byteLength_replicate hletter, hfront, hback]

theorem send_longEvents :
    BatchAccumulator.send id "s" [longEvent 'a', longEvent 'b'] = [longEvent 'a'] := by
  have hplain : JsonText.IsPlain 'a' ∧ JsonText.IsPlain 'b' := by
    simp [JsonText.IsPlain]
  have hfirst : byteLength (stringify (longEvent 'a').json) = 3029 :=
    byteLength_longEvent hplain.1 (by decide)
  have hsecond : byteLength (stringify (longEvent 'b').json) = 3029 :=
    byteLength_longEvent hplain.2 (by decide)
  have hhead : byteLength (frameHead "s") = 55 := by decide
  have hone : Fits "s" [longEvent 'a'] := by
    rw [Fits, byteLength_batchFrame, frameEvents, hhead]
    simp [hfirst, maxMessageBytes]
  have htwo : ¬ Fits "s" [longEvent 'a', longEvent 'b'] := by
    have hevents : byteLength (frameEvents [longEvent 'a', longEvent 'b']) = 6059 := by
      rw [frameEvents, List.map_cons, List.map_cons, List.map_cons, List.map_cons,
        List.intercalate_cons_cons, byteLength_append, byteLength_append, hfirst]
      simp only [List.map_nil, List.intercalate_singleton, hsecond]
      rfl
    rw [Fits, byteLength_batchFrame, hhead, hevents]
    decide
  obtain ⟨hfits, hle, hlargest⟩ := safeLength_spec
    (List.cons_ne_nil (longEvent 'a') [longEvent 'b']) hone
  have hleast : 1 ≤ safeLength "s" [longEvent 'a', longEvent 'b'] :=
    hlargest 1 (by decide) hone
  have hmost : safeLength "s" [longEvent 'a', longEvent 'b'] ≠ 2 := by
    intro hall
    rw [hall] at hfits
    exact htwo hfits
  have hlength : safeLength "s" [longEvent 'a', longEvent 'b'] = 1 := by
    have htotal : safeLength "s" [longEvent 'a', longEvent 'b'] ≤ 2 := hle
    omega
  rw [BatchAccumulator.send, List.map_id, hlength]
  rfl

theorem foldl_two {first second : BatchedEvent} {streamId : String}
    (hfirst : first.streamId = streamId) (hsecond : second.streamId = streamId) :
    let full := [BatchCall.enqueue 0 first true, .enqueue 0 second true].foldl
      (BatchWorld.step id 2) {}
    full.accepted (0, streamId) = [first, second] ∧
      (full.batches (0, streamId)).flatten = BatchAccumulator.send id streamId [first, second] ∧
      full.accumulators.eventsOf 0 streamId = [] := by
  simp only [List.foldl_cons, List.foldl_nil, BatchWorld.step, id_eq, hfirst, hsecond,
    BatchAccumulator.enqueue, BatchAccumulator.eventsOf]
  by_cases hnone : BatchAccumulator.send id streamId [first, second] = []
  · simp [sendBatch, hnone]
  · simp [sendBatch, hnone]

/-- The second event is accepted, and it is not in what is sent. -/
theorem longEvents_discarded :
    let full := [BatchCall.enqueue 0 (longEvent 'a') true, .enqueue 0 (longEvent 'b') true].foldl
      (BatchWorld.step id 2) {}
    full.accepted (0, "s") = [longEvent 'a', longEvent 'b'] ∧
      (full.batches (0, "s")).flatten = [longEvent 'a'] ∧
      full.accumulators.eventsOf 0 "s" = [] := by
  have hstream : ∀ letter, (longEvent letter).streamId = "s" := fun _ => rfl
  have htwo := foldl_two (hstream 'a') (hstream 'b')
  rwa [send_longEvents] at htwo

end Fluxora.Ws
