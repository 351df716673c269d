/-
# Frames of stream updates

An update is sent as a frame with the identifier of the event, its type and its JSON. A
client that comes back sends the identifier of the last event it has seen, which is looked
at again before it is used. Identifiers are trimmed texts when they are ingested, and
nothing of them is escaped in the frame.
-/

import Fluxora.Auth.Middleware
import Fluxora.Indexer.Ingestion
import Fluxora.Lib.EventStream
import Fluxora.Lib.JsonStringify

namespace Fluxora.Streams

open Lib Lib.Fallible Lib.JsText Lib.EventStream Lib.JsonStringify Indexer

/-! ## Frames -/

def sseStreamUpdateEvent : String := "stream_update"

structure StreamUpdateEnvelope where
  streamId : String
  eventId : String
  payload : Json
  correlationId : Option String

def streamUpdateEnvelope (streamId eventId : String) (payload : Json)
    (correlationId : Option String) : StreamUpdateEnvelope :=
  ⟨streamId, eventId, payload, correlationId⟩

/-- The properties of the envelope. One that is undefined is not printed. -/
def StreamUpdateEnvelope.toJson (envelope : StreamUpdateEnvelope) : Json :=
  .object ([("type", .string "stream_update"), ("streamId", .string envelope.streamId),
    ("eventId", .string envelope.eventId), ("payload", envelope.payload)] ++
      (envelope.correlationId.map fun id => ("correlationId", Json.string id)).toList)

def formatSseStreamUpdate (envelope : StreamUpdateEnvelope) : String :=
  "id: " ++ envelope.eventId ++ "\n" ++
    "event: " ++ sseStreamUpdateEvent ++ "\n" ++
    "data: " ++ String.ofList (stringify envelope.toJson) ++ "\n\n"

/-! ## The identifier that comes back -/

/-- `/^[\x21-\x7E]+$/` -/
def isEventIdText (text : List Char) : Bool :=
  text ≠ [] && text.all fun c => 0x21 ≤ c.toNat && c.toNat ≤ 0x7E

/-- Validate the header, if there is one. -/
def parseLastEventIdHeader : Option Json → Except Auth.ApiError (Option String)
  | none => .ok none
  | some (.string raw) =>
    if trim raw.toList = [] then
      .error (Auth.validationError "Last-Event-ID must not be empty or whitespace-only")
    else if isEventIdText raw.toList = false then
      .error (Auth.validationError
        "Last-Event-ID contains invalid characters or exceeds the 200-character limit")
    else if (codeUnits (trim raw.toList)).length > 200 then
      .error (Auth.validationError
        "Last-Event-ID contains invalid characters or exceeds the 200-character limit")
    else .ok (some (String.ofList (trim raw.toList)))
  | some _ => .error (Auth.validationError "Last-Event-ID must be a string")

/-! ## There and back -/

/-- The frame is read as one event with the identifier and the JSON of the update, and the
identifier is taken back. -/
structure FrameRoundTrips (envelope : StreamUpdateEnvelope) : Prop where
  frame : ∃ event, parse (formatSseStreamUpdate envelope).toList = [event] ∧
    event.lastEventId = envelope.eventId.toList ∧ event.data = stringify envelope.toJson
  header : parseLastEventIdHeader (some (.string envelope.eventId)) = .ok (some envelope.eventId)

theorem formatSseStreamUpdate_eq (envelope : StreamUpdateEnvelope) :
    (formatSseStreamUpdate envelope).toList =
      frame envelope.eventId.toList sseStreamUpdateEvent.toList (stringify envelope.toJson) := by
  have hid : "id: ".toList = ['i', 'd', ':', ' '] := rfl
  have hevent : "event: ".toList = ['e', 'v', 'e', 'n', 't', ':', ' '] := rfl
  have hdata : "data: ".toList = ['d', 'a', 't', 'a', ':', ' '] := rfl
  have hend : "\n".toList = ['\n'] := rfl
  have hblank : "\n\n".toList = ['\n', '\n'] := rfl
  simp only [formatSseStreamUpdate, frame, fieldLine, String.toList_append, String.toList_ofList,
    hid, hevent, hdata, hend, hblank, List.append_assoc, List.cons_append, List.nil_append]

theorem within_stringify (value : Json) : Within (stringify value) := by
  intro c hc
  have hprintable := printable_stringify value c hc
  apply And.intro
  · rintro rfl
    exact absurd hprintable (by decide)
  · rintro rfl
    exact absurd hprintable (by decide)

/-- An identifier of visible ASCII characters. -/
def IsVisible (text : List Char) : Prop := ∀ c ∈ text, 0x21 ≤ c.toNat ∧ c.toNat ≤ 0x7E

instance (text : List Char) : Decidable (IsVisible text) :=
  inferInstanceAs (Decidable (∀ c ∈ text, _))

theorem isEventIdText_iff {text : List Char} (hne : text ≠ []) :
    isEventIdText text = true ↔ IsVisible text := by
  simp [isEventIdText, IsVisible, hne]

theorem trim_of_isVisible {text : List Char} (h : IsVisible text) : trim text = text := by
  have hblank : ∀ c ∈ text, isWhiteSpace c = false := by
    intro c hc
    have := h c hc
    simp [isWhiteSpace]
    omega
  exact JsonText.trim_eq_self (fun c hc => hblank c (List.mem_of_head? hc))
    fun c hc => hblank c (List.mem_of_getLast? hc)

theorem frame_of_isVisible {envelope : StreamUpdateEnvelope}
    (h : IsVisible envelope.eventId.toList) :
    parse (formatSseStreamUpdate envelope).toList =
      [⟨sseStreamUpdateEvent.toList, stringify envelope.toJson, envelope.eventId.toList⟩] := by
  have hid : Within envelope.eventId.toList := by
    intro c hc
    have := h c hc
    apply And.intro
    · rintro rfl
      exact absurd this (by decide)
    · rintro rfl
      exact absurd this (by decide)
  have htype : Within sseStreamUpdateEvent.toList := by decide
  rw [formatSseStreamUpdate_eq]
  refine parse_frame hid htype (within_stringify _) (fun c hc => ?_) (by decide)
  have := h c hc
  omega

theorem length_of_assertNonEmptyString {field : String} {maxLength : ℕ} {value : Option Json}
    {text : String} (haccept : assertNonEmptyString field maxLength value = .ok text) :
    (codeUnits text.toList).length ≤ maxLength := by
  unfold assertNonEmptyString at haccept
  split at haccept
  · split_ifs at haccept with hblank hlong
    injection haccept with htext
    rw [← htext, String.toList_ofList]
    exact not_lt.mp hlong
  · cases haccept

theorem validateEvent_eventId {parseDate : String → Option ℤ} {item : Json}
    {event : ContractEventRecord} (haccept : validateEvent parseDate item = .ok event) :
    event.eventId ≠ "" ∧ (codeUnits event.eventId.toList).length ≤ maxEventIdLength := by
  unfold validateEvent at haccept
  split at haccept
  · split at haccept
    · obtain ⟨eventId, hid, hrest⟩ := bind_eq_ok.mp haccept
      simp only [bind_eq_ok] at hrest
      obtain ⟨_, _, _, _, _, _, _, _, _, _, _, _, _, _, _, _, _, _, hevent⟩ := hrest
      cases hevent
      exact ⟨assertNonEmptyString_ne_empty hid, length_of_assertNonEmptyString hid⟩
    · cases haccept
  · cases haccept

theorem parseLastEventIdHeader_eq_iff {eventId : String} (hne : eventId ≠ "")
    (hlength : (codeUnits eventId.toList).length ≤ maxEventIdLength) :
    parseLastEventIdHeader (some (.string eventId)) = .ok (some eventId) ↔
      IsVisible eventId.toList := by
  have htext : eventId.toList ≠ [] := fun hnil => hne (String.toList_eq_nil_iff.mp hnil)
  apply Iff.intro
  · intro haccept
    rw [parseLastEventIdHeader] at haccept
    split_ifs at haccept with _ hinvalid
    rw [Bool.not_eq_false] at hinvalid
    exact (isEventIdText_iff htext).mp hinvalid
  · intro hvisible
    have htrim := trim_of_isVisible hvisible
    have hvalid := (isEventIdText_iff htext).mpr hvisible
    have hshort : ¬(codeUnits eventId.toList).length > 200 := by
      unfold maxEventIdLength at hlength
      omega
    rw [parseLastEventIdHeader, htrim, if_neg htext, if_neg (by rw [hvalid]; decide),
      if_neg hshort, String.ofList_toList]

/-- A frame goes there and back exactly when the identifier of the event has visible ASCII
characters only. -/
theorem frameRoundTrips_iff {parseDate : String → Option ℤ} {item : Json}
    {event : ContractEventRecord} (haccept : validateEvent parseDate item = .ok event)
    (streamId : String) (payload : Json) (correlationId : Option String) :
    FrameRoundTrips (streamUpdateEnvelope streamId event.eventId payload correlationId) ↔
      ∀ c ∈ event.eventId.toList, 0x21 ≤ c.toNat ∧ c.toNat ≤ 0x7E := by
  obtain ⟨hne, hlength⟩ := validateEvent_eventId haccept
  apply Iff.intro
  · intro htrips
    exact (parseLastEventIdHeader_eq_iff hne hlength).mp htrips.header
  · intro hvisible
    exact ⟨⟨_, frame_of_isVisible hvisible, rfl, rfl⟩,
      (parseLastEventIdHeader_eq_iff hne hlength).mpr hvisible⟩

/-! ## Two events -/

def sampleDate (text : String) : Option ℤ :=
  if text = "2026-01-01T00:00:00.000Z" then some 1767225600000 else none

/-- The body of an event with the given identifier. -/
def sampleItem (eventId : String) : Json :=
  .object [("eventId", .string eventId), ("ledger", .number 7), ("contractId", .string "C1"),
    ("topic", .string "stream.updated"), ("txHash", .string "tx"), ("txIndex", .number 0),
    ("operationIndex", .number 0), ("eventIndex", .number 0),
    ("payload", .object [("amount", .string "5")]),
    ("happenedAt", .string "2026-01-01T00:00:00.000Z"), ("ledgerHash", .string "hash")]

def sampleEvent (eventId : String) : ContractEventRecord where
  eventId
  ledger := 7
  contractId := "C1"
  topic := "stream.updated"
  txHash := "tx"
  txIndex := 0
  operationIndex := 0
  eventIndex := 0
  payload := [("amount", .string "5")]
  happenedAt := 1767225600000
  ledgerHash := "hash"

theorem validateEvent_sampleItem {eventId : String}
    (h : assertNonEmptyString "eventId" maxEventIdLength (some (.string eventId)) =
      .ok eventId) :
    validateEvent sampleDate (sampleItem eventId) = .ok (sampleEvent eventId) := by
  show (assertNonEmptyString "eventId" maxEventIdLength (some (.string eventId)) >>= _) = _
  rw [h]
  rfl

theorem frameRoundTrips_visible :
    FrameRoundTrips (streamUpdateEnvelope "stream-1" "tx-0"
      (.object [("amount", .string "5")]) none) :=
  (@frameRoundTrips_iff sampleDate _ (sampleEvent "tx-0")
    (validateEvent_sampleItem (by decide +kernel)) "stream-1" _ none).mpr (by simp [sampleEvent])

/-- An identifier with a line feed makes up a field of its own. -/
theorem frameRoundTrips_fails_lineFeed :
    validateEvent sampleDate (sampleItem "tx-0\nid: tx-9") = .ok (sampleEvent "tx-0\nid: tx-9") ∧
      (parse (formatSseStreamUpdate (streamUpdateEnvelope "stream-1" "tx-0\nid: tx-9"
        (.object [("amount", .string "5")]) none)).toList).map Event.lastEventId =
          ["tx-9".toList] ∧
      ¬FrameRoundTrips (streamUpdateEnvelope "stream-1" "tx-0\nid: tx-9"
        (.object [("amount", .string "5")]) none) := by
  refine ⟨validateEvent_sampleItem (by decide +kernel), ?_, fun htrips => ?_⟩
  · rw [formatSseStreamUpdate_eq]
    decide +kernel
  · have hvisible := (parseLastEventIdHeader_eq_iff (by decide) (by decide +kernel)).mp
      htrips.header
    exact absurd (hvisible '\n' (by decide +kernel)) (by decide)

end Fluxora.Streams
