/-
# Cursors that continue a listing

A cursor carries the id of the last row and the query it was issued for, as JSON behind base64url.
Reading one back checks lengths that issuing one does not: an id that is blank or longer than two
hundred code units, and a query whose binding is longer than five hundred, have cursors that the
routes themselves refuse.
-/

import Fluxora.Lib.Base64url
import Fluxora.Lib.JsonParse
import Fluxora.Streams.ReadRoutes

namespace Fluxora.Streams

open Lib Lib.JsText Lib.JsonStringify Lib.JsonParse Auth Serialization

/-! ## Texts of cursors -/

def cursorPayload (lastId scope : String) : Json :=
  .object [("v", .number 1), ("lastId", .string lastId), ("scope", .string scope)]

def encodeCursor (lastId scope : String) : String :=
  String.ofList (Base64url.encode (Utf8.bytes (stringify (cursorPayload lastId scope))))

/-- Base64url, UTF-8 and JSON, with `none` for a text that is no JSON. -/
def decodeJson (cursor : String) : Option Json :=
  parse (Utf8.read (Base64url.decode cursor.toList))

/-- The text of a cursor that was issued; all of them have a scope. -/
def OpaqueCursor.encoded (cursor : OpaqueCursor) : Option String :=
  cursor.scope.map (encodeCursor cursor.lastId)

def StreamListPage.nextCursorText (page : StreamListPage) : Option String :=
  page.nextCursor.bind OpaqueCursor.encoded

def ExportLine.cursorText : ExportLine → Option String
  | .stream _ => none
  | .resumptionCursor cursor => cursor.encoded

theorem readable_one : Readable (.number 1) := by
  have hone : numberText 1 = ['1'] := by decide +kernel
  refine .number ?_ ?_
  · rw [hone]
    decide +kernel
  · intro c hc
    rw [hone, List.mem_singleton] at hc
    rw [hc]
    rfl

theorem readable_object {entries : List (String × Json)}
    (hkeys : (Properties.keys entries).Nodup) (hvalues : ∀ value ∈ entries.map Prod.snd,
      Readable value) : Readable (.object entries) :=
  .object hkeys fun entry hentry => hvalues entry.2 (List.mem_map_of_mem hentry)

theorem decodeJson_encodeCursor (lastId scope : String) :
    decodeJson (encodeCursor lastId scope) = some (cursorPayload lastId scope) := by
  have hreadable : Readable (cursorPayload lastId scope) := by
    refine readable_object (show ["v", "lastId", "scope"].Nodup by decide) fun value hvalue => ?_
    simp only [List.map_cons, List.map_nil, List.mem_cons, List.not_mem_nil, or_false] at hvalue
    rcases hvalue with rfl | rfl | rfl
    · exact readable_one
    · exact .string lastId
    · exact .string scope
  rw [decodeJson, encodeCursor, String.toList_ofList, Base64url.decode_encode, Utf8.read_bytes,
    parse_stringify hreadable]

theorem trim_encodeCursor_ne_nil (lastId scope : String) :
    trim (encodeCursor lastId scope).toList ≠ [] := by
  rw [encodeCursor, String.toList_ofList]
  apply Base64url.trim_encode_ne_nil
  intro hempty
  have hread := Utf8.read_bytes (stringify (cursorPayload lastId scope))
  rw [hempty] at hread
  have hprinted : stringify (cursorPayload lastId scope) ≠ [] := by
    rw [cursorPayload, stringify]
    exact List.cons_ne_nil _ _
  exact hprinted (hread.symm.trans (by decide))

/-! ## Reading a cursor back -/

/-- The ids that a cursor can carry back. -/
def Carried (id : String) : Prop :=
  trim id.toList ≠ [] ∧ (codeUnits id.toList).length ≤ cursorLastIdMaxLength

instance : DecidablePred Carried := fun _ => inferInstanceAs (Decidable (_ ∧ _))

theorem parseCursorParam_encodeCursor (lastId scope : String) :
    parseCursorParam decodeJson (some (encodeCursor lastId scope)) =
        .ok (some ⟨lastId, some scope⟩) ∧
      Carried lastId ∧ (codeUnits scope.toList).length ≤ cursorScopeMaxLength ∨
    parseCursorParam decodeJson (some (encodeCursor lastId scope)) =
        .error (validationError invalidCursorMessage) ∧
      ¬(Carried lastId ∧ (codeUnits scope.toList).length ≤ cursorScopeMaxLength) := by
  have hdecoded : decodeCursor decodeJson (encodeCursor lastId scope) =
      if (1 : ℚ) ≠ 1 ∨ trim lastId.toList = [] ∨
          cursorLastIdMaxLength < (codeUnits lastId.toList).length then
        .error (validationError invalidCursorMessage)
      else if cursorScopeMaxLength < (codeUnits scope.toList).length then
        .error (validationError invalidCursorMessage)
      else .ok ⟨lastId, some scope⟩ := by
    rw [decodeCursor, decodeJson_encodeCursor]
    rfl
  rw [parseCursorParam, if_neg (trim_encodeCursor_ne_nil lastId scope), hdecoded, Carried]
  split_ifs with hid hscope
  · refine .inr ⟨rfl, fun hcarried => ?_⟩
    rcases hid with hone | hblank | hlong
    · exact hone rfl
    · exact hcarried.1.1 hblank
    · exact absurd hcarried.1.2 (not_le.mpr hlong)
  · exact .inr ⟨rfl, fun hcarried => absurd hcarried.2 (not_le.mpr hscope)⟩
  · rw [not_or, not_or] at hid
    exact .inl ⟨rfl, ⟨hid.2.1, not_lt.mp hid.2.2⟩, not_lt.mp hscope⟩

theorem parseCursorParam_encodeCursor_iff {lastId scope : String} :
    parseCursorParam decodeJson (some (encodeCursor lastId scope)) =
        .ok (some ⟨lastId, some scope⟩) ↔
      Carried lastId ∧ (codeUnits scope.toList).length ≤ cursorScopeMaxLength := by
  rcases parseCursorParam_encodeCursor lastId scope with ⟨hread, hcarried⟩ | ⟨hread, hcarried⟩
  · exact ⟨fun _ => hcarried, fun _ => hread⟩
  · refine ⟨fun hok => ?_, fun h => absurd h hcarried⟩
    rw [hread] at hok
    cases hok

/-! ## What a list cursor is bound to -/

/-- The filters of a list query and its caller. -/
structure ListBinding where
  status : Option StreamStatus
  sender : Option String
  recipient : Option String
  callerAddress : Option String

def ListBinding.scope (binding : ListBinding) : String :=
  streamCursorScope binding.status binding.sender binding.recipient binding.callerAddress

def PaginationQuery.binding (query : PaginationQuery) (context : Context) : ListBinding :=
  ⟨query.status, query.sender, query.recipient, context.callerAddress⟩

/-- The value of a text that may be absent. -/
def textOrNull (text : Option String) : Json := (text.map Json.string).getD .null

variable (text : Option String)

theorem readable_textOrNull : Readable (textOrNull text) := by
  cases text with
  | none => exact .null
  | some text => exact .string text

theorem textOrNull_inj {text text' : Option String} (h : textOrNull text = textOrNull text') :
    text = text' := by
  cases text <;> cases text' <;> cases h <;> rfl

theorem StreamStatus.text_inj {status status' : StreamStatus} (h : status.text = status'.text) :
    status = status' := by
  cases status <;> cases status' <;> first | rfl | exact absurd h (by decide)

def scopePayload (binding : ListBinding) : Json :=
  .object [("v", .number 1), ("status", textOrNull (binding.status.map StreamStatus.text)),
    ("sender", textOrNull binding.sender), ("recipient", textOrNull binding.recipient),
    ("caller", textOrNull binding.callerAddress), ("order", .string "id:asc")]

theorem ListBinding.scope_eq (binding : ListBinding) :
    binding.scope = String.ofList (stringify (scopePayload binding)) := rfl

theorem readable_scopePayload (binding : ListBinding) : Readable (scopePayload binding) := by
  refine readable_object
    (show ["v", "status", "sender", "recipient", "caller", "order"].Nodup by decide)
    fun value hvalue => ?_
  simp only [List.map_cons, List.map_nil, List.mem_cons, List.not_mem_nil, or_false] at hvalue
  rcases hvalue with rfl | rfl | rfl | rfl | rfl | rfl
  · exact readable_one
  · exact readable_textOrNull _
  · exact readable_textOrNull _
  · exact readable_textOrNull _
  · exact readable_textOrNull _
  · exact .string _

theorem ListBinding.scope_inj {binding binding' : ListBinding}
    (h : binding.scope = binding'.scope) : binding = binding' := by
  rw [scope_eq, scope_eq] at h
  have hpayload := stringify_inj (readable_scopePayload binding) (readable_scopePayload binding')
    (String.ofList_injective h)
  simp only [scopePayload, Json.object.injEq, List.cons.injEq, Prod.mk.injEq] at hpayload
  obtain ⟨-, ⟨-, hstatus⟩, ⟨-, hsender⟩, ⟨-, hrecipient⟩, ⟨-, hcaller⟩, -⟩ := hpayload
  obtain ⟨status, sender, recipient, callerAddress⟩ := binding
  obtain ⟨status', sender', recipient', callerAddress'⟩ := binding'
  obtain rfl := Option.map_injective (fun _ _ => StreamStatus.text_inj) (textOrNull_inj hstatus)
  obtain rfl := textOrNull_inj hsender
  obtain rfl := textOrNull_inj hrecipient
  obtain rfl := textOrNull_inj hcaller
  rfl

/-- The length of a text or of `null` as JSON prints it. -/
def printedLength : Option String → ℕ
  | none => 4
  | some text => (codeUnits (JsonText.quote text.toList)).length

def ListBinding.printedLength (binding : ListBinding) : ℕ :=
  67 + Streams.printedLength (binding.status.map StreamStatus.text) +
    Streams.printedLength binding.sender + Streams.printedLength binding.recipient +
    Streams.printedLength binding.callerAddress

theorem codeUnits_append (text text' : List Char) :
    codeUnits (text ++ text') = codeUnits text ++ codeUnits text' := List.flatMap_append

theorem length_textOrNull :
    (codeUnits (stringify (textOrNull text))).length = printedLength text := by
  cases text with
  | none =>
    rw [textOrNull, Option.map_none, Option.getD_none, stringify]
    rfl
  | some =>
    rw [textOrNull, Option.map_some, Option.getD_some, stringify]
    rfl

theorem stringify_scopePayload (binding : ListBinding) :
    stringify (scopePayload binding) =
      "\x7b\"v\":1,\"status\":".toList ++
        (stringify (textOrNull (binding.status.map StreamStatus.text)) ++ (",\"sender\":".toList ++
          (stringify (textOrNull binding.sender) ++ (",\"recipient\":".toList ++
            (stringify (textOrNull binding.recipient) ++ (",\"caller\":".toList ++
              (stringify (textOrNull binding.callerAddress) ++
                ",\"order\":\"id:asc\"\x7d".toList))))))) := by
  have hone : stringify (.number 1) = ['1'] := by
    rw [stringify]
    decide +kernel
  have horder : stringify (.string "id:asc") = "\"id:asc\"".toList := by
    rw [stringify]
    rfl
  rw [scopePayload, stringify]
  simp only [stringifyEntries, List.intercalate_cons_cons, List.intercalate_singleton, hone, horder]
  simp only [List.append_assoc, List.cons_append, List.nil_append]
  rfl

theorem ListBinding.length_scope (binding : ListBinding) :
    (codeUnits binding.scope.toList).length = binding.printedLength := by
  rw [scope_eq, String.toList_ofList, stringify_scopePayload, printedLength]
  simp only [codeUnits_append, List.length_append, length_textOrNull]
  have hfixed : (codeUnits "\x7b\"v\":1,\"status\":".toList).length = 16 ∧
      (codeUnits ",\"sender\":".toList).length = 10 ∧
      (codeUnits ",\"recipient\":".toList).length = 13 ∧
      (codeUnits ",\"caller\":".toList).length = 10 ∧
      (codeUnits ",\"order\":\"id:asc\"\x7d".toList).length = 18 := by decide
  omega

/-! ## Continuing a listing -/

/-- An environment whose cursors are read as they are issued. -/
def ReadEnv.reading (env : ReadEnv) : ReadEnv := { env with decodeJson := Streams.decodeJson }

/-- What the list route does with a cursor that was accepted. -/
def listFrom (env : ReadEnv) (query : PaginationQuery) (context : Context)
    (afterId : Option String) : Except ApiError ReadAnswer :=
  if env.listingHealthy = false then
    .error (serviceUnavailable
      "Stream list is temporarily unavailable. Retry when dependency health is restored.")
  else do
    assertCallerMayList context.callerAddress query.sender query.recipient
    match env.database 0 with
    | .error e => .error (rethrowDbError e)
    | .ok table =>
      let page := findWithCursor env table ⟨query.status, query.sender, query.recipient⟩
        query.limit afterId query.includeTotal
      .ok (.listed (toStreamListPage page (query.binding context).scope query.includeTotal)
        (streamCacheControl (page.streams.map StreamRecord.status)))

section

variable {env : ReadEnv} {req : ReadRequest} {context : Context} {query : PaginationQuery}
  {lastId scope : String}

theorem listStreamsHandler_cursor (hquery : paginationSchema req.query = .ok query)
    (hcursor : query.cursor = some (encodeCursor lastId scope)) :
    listStreamsHandler env.reading req context =
      if Carried lastId ∧ (codeUnits scope.toList).length ≤ cursorScopeMaxLength then
        if scope = (query.binding context).scope then
          listFrom env.reading query context (some lastId)
        else .error (validationError cursorMismatchMessage)
      else .error (validationError invalidCursorMessage) := by
  rw [listStreamsHandler, hquery]
  simp only [hcursor, ReadEnv.reading]
  rcases parseCursorParam_encodeCursor lastId scope with ⟨hread, hcarried⟩ | ⟨hread, hcarried⟩
  · have hother : (some scope).any (· ≠ (query.binding context).scope) =
        decide (scope ≠ (query.binding context).scope) := rfl
    rw [hread, if_pos hcarried]
    change (if (some scope).any (· ≠ (query.binding context).scope) = true then _ else _) = _
    rw [hother]
    by_cases hsame : scope = (query.binding context).scope
    · rw [if_pos hsame, if_neg (by simp [hsame])]
      rfl
    · rw [if_neg hsame, if_pos (by simp [hsame])]
  · rw [hread, if_neg hcarried]
    rfl

theorem resumeFrom_cursor (hparam :
    req.query.lookup "resume_from" = some (.string (encodeCursor lastId unscopedStreamCursor))) :
    resumeFrom env.reading req =
      if Carried lastId then .ok (some lastId)
      else .error (validationError invalidCursorMessage) := by
  have hshort : (codeUnits unscopedStreamCursor.toList).length ≤ cursorScopeMaxLength := by decide
  have hconfigured : configured (some (encodeCursor lastId unscopedStreamCursor)) =
      some (encodeCursor lastId unscopedStreamCursor) := by
    have hne : encodeCursor lastId unscopedStreamCursor ≠ "" := by
      intro hempty
      have htrim := trim_encodeCursor_ne_nil lastId unscopedStreamCursor
      rw [hempty] at htrim
      exact htrim rfl
    rw [configured, Option.filter_some, if_pos (decide_eq_true hne)]
  rw [resumeFrom, hparam]
  simp only [hconfigured, ReadEnv.reading]
  rcases parseCursorParam_encodeCursor lastId unscopedStreamCursor with
    ⟨hread, hcarried⟩ | ⟨hread, hcarried⟩
  · rw [hread, if_pos hcarried.1]
    rfl
  · rw [hread, if_neg fun h => hcarried ⟨h, hshort⟩]
    rfl

end

variable {id : String} {includeTotal : Bool}

theorem nextCursorText_toStreamListPage {page : StreamPage} {scope : String}
    (hmore : page.hasMore = true) (hlast : page.streams.getLast?.map (·.id) = some id) :
    (toStreamListPage page scope includeTotal).nextCursorText = some (encodeCursor id scope) := by
  obtain ⟨last, hlast', rfl⟩ := Option.map_eq_some_iff.mp hlast
  rw [StreamListPage.nextCursorText, toStreamListPage]
  simp only [if_pos hmore, List.getLast?_map, hlast']
  rfl

theorem eq_of_nextCursorText {page : StreamPage} {scope cursor : String}
    (hlast : page.streams.getLast?.map (·.id) = some id)
    (hcursor : (toStreamListPage page scope includeTotal).nextCursorText = some cursor) :
    cursor = encodeCursor id scope := by
  cases hmore : page.hasMore with
  | true =>
    rw [nextCursorText_toStreamListPage hmore hlast] at hcursor
    exact (Option.some.inj hcursor).symm
  | false =>
    rw [StreamListPage.nextCursorText, toStreamListPage] at hcursor
    simp only [hmore] at hcursor
    cases hcursor

theorem cursorText_toExportNdjsonLines {records : List StreamRecord}
    (hlast : records.getLast?.map (·.id) = some id) :
    (toExportNdjsonLines records).getLast?.bind ExportLine.cursorText =
      some (encodeCursor id unscopedStreamCursor) := by
  obtain ⟨last, hlast', rfl⟩ := Option.map_eq_some_iff.mp hlast
  rw [toExportNdjsonLines, hlast', Option.map_some, Option.toList_some, List.getLast?_concat]
  rfl

/-- For rows with an id and queries with given filters and caller, the cursor of a page continues
the listing, the cursor at the end of an export line resumes the export, and the cursor of a page
is refused for other filters and callers. -/
structure CursorsRoundTrip (env : ReadEnv) (id : String) (binding : ListBinding) : Prop where
  continued : ∀ (page : StreamPage) (includeTotal : Bool), page.hasMore = true →
    page.streams.getLast?.map (·.id) = some id → ∃ cursor,
      (toStreamListPage page binding.scope includeTotal).nextCursorText = some cursor ∧
      parseCursorParam decodeJson (some cursor) = .ok (some ⟨id, some binding.scope⟩) ∧
      ∀ (req : ReadRequest) (query : PaginationQuery) (context : Context),
        paginationSchema req.query = .ok query → query.cursor = some cursor →
          query.binding context = binding →
            listStreamsHandler env.reading req context =
              listFrom env.reading query context (some id)
  resumed : ∀ records : List StreamRecord, records.getLast?.map (·.id) = some id → ∃ cursor,
    (toExportNdjsonLines records).getLast?.bind ExportLine.cursorText = some cursor ∧
    ∀ req : ReadRequest, req.query.lookup "resume_from" = some (.string cursor) →
      resumeFrom env.reading req = .ok (some id)
  refused : ∀ (page : StreamPage) (includeTotal : Bool) (cursor : String),
    page.streams.getLast?.map (·.id) = some id →
    (toStreamListPage page binding.scope includeTotal).nextCursorText = some cursor →
      ∀ (req : ReadRequest) (query : PaginationQuery) (context : Context),
        paginationSchema req.query = .ok query → query.cursor = some cursor →
          query.binding context ≠ binding → ∃ message,
            listStreamsHandler env.reading req context = .error (validationError message)

theorem otherCursor_refused {env : ReadEnv} {req : ReadRequest} {query : PaginationQuery}
    {context : Context} {binding : ListBinding} (hquery : paginationSchema req.query = .ok query)
    (hcursor : query.cursor = some (encodeCursor id binding.scope))
    (hbinding : query.binding context ≠ binding) :
    ∃ message, listStreamsHandler env.reading req context = .error (validationError message) := by
  rw [listStreamsHandler_cursor hquery hcursor,
    if_neg fun hsame => hbinding (ListBinding.scope_inj hsame).symm]
  split_ifs
  · exact ⟨_, rfl⟩
  · exact ⟨_, rfl⟩

theorem CursorsRoundTrip.carried {env : ReadEnv} {binding : ListBinding}
    (h : CursorsRoundTrip env id binding) :
    Carried id ∧ (codeUnits binding.scope.toList).length ≤ cursorScopeMaxLength := by
  let page : StreamPage := ⟨[{ streamSample with id := id }], true, none⟩
  obtain ⟨cursor, hcursor, hread, -⟩ := h.continued page false rfl rfl
  obtain rfl : cursor = encodeCursor id binding.scope := eq_of_nextCursorText rfl hcursor
  exact parseCursorParam_encodeCursor_iff.mp hread

/-- The cursors that are issued work for the ids that a cursor can carry, in lists whose filters
and caller take up no more than the length that is read back. -/
theorem cursorsRoundTrip_iff (env : ReadEnv) (id : String) (binding : ListBinding) :
    CursorsRoundTrip env id binding ↔
      Carried id ∧ binding.printedLength ≤ cursorScopeMaxLength := by
  rw [← ListBinding.length_scope]
  refine ⟨CursorsRoundTrip.carried, ?_⟩
  rintro ⟨hid, hscope⟩
  constructor
  · intro page includeTotal hmore hlast
    refine ⟨_, nextCursorText_toStreamListPage hmore hlast,
      parseCursorParam_encodeCursor_iff.mpr ⟨hid, hscope⟩, ?_⟩
    intro req query context hquery hcursor hbinding
    rw [listStreamsHandler_cursor hquery hcursor, if_pos ⟨hid, hscope⟩, if_pos (by rw [hbinding])]
  · intro records hlast
    refine ⟨_, cursorText_toExportNdjsonLines hlast, fun req hparam => ?_⟩
    rw [resumeFrom_cursor hparam, if_pos hid]
  · intro page includeTotal cursor hlast hissued req query context hquery hcursor hbinding
    rw [eq_of_nextCursorText hlast hissued] at hcursor
    exact otherCursor_refused hquery hcursor hbinding

/-- A stream with an id of two hundred and one characters at the end of a page ends the listing. -/
theorem longId_ends : ¬ ∀ (env : ReadEnv) (id : String) (binding : ListBinding),
    CursorsRoundTrip env id binding := by
  intro h
  have hcarried :=
    (h keyedEnv (String.ofList (List.replicate 201 'a')) ⟨none, none, none, none⟩).carried
  rw [Carried, String.toList_ofList] at hcarried
  exact absurd hcarried.1.2 (by decide +kernel)

end Fluxora.Streams
