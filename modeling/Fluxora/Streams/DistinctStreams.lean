/-
# Distinct requests and distinct streams

A request that is answered with a new stream should have made it. The id of a stream is a digest
of the normalised body alone, and the insert gives way to a row that is there: a request under
another key, or of another tenant, with the same body is answered with the stream of the first, in
whatever state that stream is by then.
-/

import Fluxora.Streams.RepeatedCreate

namespace Fluxora.Streams

open Lib Lib.Transition Serialization

/-! ## Answers with a stream -/

/-- The stream of an answer without `Idempotency-Replayed: true`, as soon as it is
known. -/
def CreatePhase.reported : CreatePhase → Option Stream
  | .storing row => some (toApiStream row)
  | .answered (.created stream) => some stream
  | _ => none

/-- The insert has been made, or has met a row. -/
def CreatePhase.Placed : CreatePhase → Prop
  | .findingById => True
  | .findingByEvent => True
  | phase => phase.reported.isSome = true

/-- One tenant and one key. -/
def CreateRequest.SameKey (request request' : CreateRequest) : Prop :=
  request.tenantId = request'.tenantId ∧ request.idempotencyKey = request'.idempotencyKey

/-- Requests with different keys or of different tenants that are answered with a new
stream are answered with different ones, and each of them is active and has paid nothing
out. -/
structure DistinctStreams (s : ApiState) : Prop where
  distinct : ∀ first second current current' stream stream', s.calls first = some current →
    s.calls second = some current' → current.phase = .answered (.created stream) →
    current'.phase = .answered (.created stream') →
    ¬ current.request.SameKey current'.request → stream.id ≠ stream'.id
  fresh : ∀ call current stream, s.calls call = some current →
    current.phase = .answered (.created stream) →
    stream.status = .active ∧ stream.streamedAmount = "0"

/-- No request inserts the input of a request with another key that has been placed, and
a request that has met a row finds it as it was inserted. -/
def Unrepeated (cfg : CreateConfig) (s : ApiState) : ApiLabel → Prop
  | .advance call =>
    ∀ current, s.calls call = some current →
      (current.phase = .inserting → ∀ other current', other ≠ call →
        s.calls other = some current' → current'.phase.Placed →
        current'.input = current.input → current'.request.SameKey current.request) ∧
      (current.phase = .findingById ∨ current.phase = .findingByEvent →
        ∀ row ∈ s.table.rows, row.position = (current.input.row cfg.sha256).position →
          row.status = .active ∧ row.streamedAmount = "0")
  | _ => True

/-! ## The invariant -/

/-- Every reported stream is in the table under the digest of its request, and requests
with one digest have one key. -/
structure Reported (cfg : CreateConfig) (s : ApiState) : Prop where
  plain : ∀ call current, s.calls call = some current → current.input.Plain
  own : OwnIds s.table
  placed : ∀ first second current current', s.calls first = some current →
    s.calls second = some current' → current.phase.Placed → current'.phase.Placed →
    current.input = current'.input → current.request.SameKey current'.request
  inTable : ∀ call current stream, s.calls call = some current →
    current.phase.reported = some stream →
    ∃ row ∈ s.table.rows, row.id = stream.id ∧
      row.position = (current.input.row cfg.sha256).position
  fresh : ∀ call current stream, s.calls call = some current →
    current.phase.reported = some stream →
    stream.status = .active ∧ stream.streamedAmount = "0"

namespace Reported

variable {cfg : CreateConfig} {s s' : ApiState}

theorem distinctStreams (h : Reported cfg s) (hfree : Function.Injective cfg.sha256) :
    DistinctStreams s := by
  have hreported : ∀ {current : CreateCall} {stream : Stream},
      current.phase = .answered (.created stream) → current.phase.reported = some stream :=
    fun hphase => congrArg CreatePhase.reported hphase
  have hplaced : ∀ {current : CreateCall} {stream : Stream},
      current.phase = .answered (.created stream) → current.phase.Placed := by
    intro current stream hphase
    rw [hphase]
    rfl
  constructor
  · intro first second current current' stream stream' hfirst hsecond hphase hphase' hdifferent
      hsame
    obtain ⟨row, hrow, hid, hposition⟩ := h.inTable _ _ _ hfirst (hreported hphase)
    obtain ⟨row', hrow', hid', hposition'⟩ := h.inTable _ _ _ hsecond (hreported hphase')
    -- one id is one row, and one row is one input
    have hone : row = row' := List.inj_on_of_nodup_map s.table.ids hrow hrow'
      (hid.trans (hsame.trans hid'.symm))
    have hinput := ApiCreateStreamInput.position_row_inj hfree (h.plain _ _ hfirst)
      (h.plain _ _ hsecond) (hposition.symm.trans (hone ▸ hposition'))
    exact hdifferent (h.placed _ _ _ _ hfirst hsecond (hplaced hphase) (hplaced hphase') hinput)
  · intro call current stream hcall hphase
    exact h.fresh call current stream hcall (hreported hphase)

variable {table : StreamsTable}

theorem put (h : Reported cfg s) {call : ℕ} {request : CreateRequest} {input : ApiCreateStreamInput}
    {phase : CreatePhase} {store : IdempotencyStore} (hplain : input.Plain) (hown : OwnIds table)
    (hrows : ∀ row ∈ s.table.rows, row ∈ table.rows)
    (hplaced : phase.Placed → ∀ other current, other ≠ call → s.calls other = some current →
      current.phase.Placed → current.input = input → current.request.SameKey request)
    (hreported : ∀ stream, phase.reported = some stream → (∃ row ∈ table.rows, row.id = stream.id ∧
      row.position = (input.row cfg.sha256).position) ∧ stream.status = .active ∧
      stream.streamedAmount = "0") :
    Reported cfg (s.put table store call ⟨request, input, phase⟩) where
  plain := by
    intro other current hother
    rcases ApiState.calls_put hother with ⟨-, rfl⟩ | ⟨-, hold⟩
    · exact hplain
    · exact h.plain other current hold
  own := hown
  placed := by
    intro first second current current' hfirst hsecond hphase hphase' hinput
    rcases ApiState.calls_put hfirst with ⟨-, rfl⟩ | ⟨hne, hold⟩
    · rcases ApiState.calls_put hsecond with ⟨-, rfl⟩ | ⟨hne', hold'⟩
      · exact ⟨rfl, rfl⟩
      · obtain ⟨htenant, hkey⟩ := hplaced hphase second current' hne' hold' hphase' hinput.symm
        exact ⟨htenant.symm, hkey.symm⟩
    · rcases ApiState.calls_put hsecond with ⟨-, rfl⟩ | ⟨-, hold'⟩
      · exact hplaced hphase' first current hne hold hphase hinput
      · exact h.placed first second current current' hold hold' hphase hphase' hinput
  inTable := by
    intro other current stream hother hphase
    rcases ApiState.calls_put hother with ⟨-, rfl⟩ | ⟨-, hold⟩
    · exact (hreported stream hphase).1
    · obtain ⟨row, hrow, hkeys⟩ := h.inTable other current stream hold hphase
      exact ⟨row, hrows row hrow, hkeys⟩
  fresh := by
    intro other current stream hother hphase
    rcases ApiState.calls_put hother with ⟨-, rfl⟩ | ⟨-, hold⟩
    · exact (hreported stream hphase).2
    · exact h.fresh other current stream hold hphase

theorem move (h : Reported cfg s) {call : ℕ} {current : CreateCall}
    (hcall : s.calls call = some current) (hunrepeated : Unrepeated cfg s (.advance call))
    {phase : CreatePhase} {store : IdempotencyStore}
    (hmove : Move cfg s current phase table store) :
    Reported cfg (s.put table store call { current with phase }) := by
  have hplain := h.plain call current hcall
  obtain ⟨hother, hasInserted⟩ := hunrepeated current hcall
  have hsame : ∀ row ∈ s.table.rows, row ∈ s.table.rows := fun _ hrow => hrow
  -- a request that was placed stays placed
  have hplaced : current.phase.Placed → ∀ other current', other ≠ call →
      s.calls other = some current' → current'.phase.Placed → current'.input = current.input →
      current'.request.SameKey current.request :=
    fun hphase other current' _ hother hphase' hinput =>
      h.placed other call current' current hother hcall hphase' hphase hinput
  -- a row that is found is reported as it is
  have hfound : current.phase = .findingById ∨ current.phase = .findingByEvent →
      ∀ row ∈ s.table.rows, row.position = (current.input.row cfg.sha256).position →
      ∀ stream, (CreatePhase.storing row).reported = some stream →
        (∃ row ∈ s.table.rows, row.id = stream.id ∧
          row.position = (current.input.row cfg.sha256).position) ∧
        stream.status = .active ∧ stream.streamedAmount = "0" := by
    intro hphase row hrow hposition stream hstream
    cases hstream
    exact ⟨⟨row, hrow, rfl, hposition⟩, hasInserted hphase row hrow hposition⟩
  have hnothing : ∀ {P : Stream → Prop} stream, (none : Option Stream) = some stream → P stream :=
    fun _ h => by cases h
  cases hmove with
  | busy | replay | refuse | miss => exact h.put hplain h.own hsame (fun h => by cases h) hnothing
  | insert _ hphase _ hrows =>
    apply h.put hplain (h.own.insert hrows)
    · intro row hrow
      rw [hrows]
      exact List.mem_append_left _ hrow
    · exact fun _ => hother hphase
    · intro stream hstream
      cases hstream
      refine ⟨⟨_, ?_, rfl, rfl⟩, rfl, rfl⟩
      rw [hrows]
      exact List.mem_append_right _ (List.mem_singleton.mpr rfl)
  | conflict hphase => exact h.put hplain h.own hsame (fun _ => hother hphase) hnothing
  | idTaken => exact h.put hplain h.own hsame (fun h => by cases h) hnothing
  | foundById row hphase hrow =>
    have hmem := (StreamsTable.getById_eq_some_iff.mp hrow).1
    exact h.put hplain h.own hsame (fun _ => hplaced (hphase ▸ trivial))
      (hfound (Or.inl hphase) row hmem (h.own.position_of_id hrow))
  | notById hphase => exact h.put hplain h.own hsame (fun _ => hplaced (hphase ▸ trivial)) hnothing
  | foundByEvent row hphase hrow =>
    obtain ⟨hmem, hposition⟩ := StreamsTable.mem_of_getByEvent hrow
    exact h.put hplain h.own hsame (fun _ => hplaced (hphase ▸ trivial))
      (hfound (Or.inr hphase) row hmem hposition)
  | notByEvent => exact h.put hplain h.own hsame (fun h => by cases h) hnothing
  | store row hphase =>
    have hreported : current.phase.reported = some (toApiStream row) := by
      rw [hphase]
      rfl
    have hplacedNow : current.phase.Placed := by
      rw [hphase]
      rfl
    apply h.put hplain h.own hsame (fun _ => hplaced hplacedNow)
    intro stream hstream
    cases hstream
    exact ⟨h.inTable call current _ hcall hreported, h.fresh call current _ hcall hreported⟩

theorem update (h : Reported cfg s) {id : String} {guard : StreamStatus}
    {change : UpdateStreamInput}
    (hrows : table.rows = s.table.rows.map (StreamsTable.updateRow id guard change)) :
    Reported cfg { s with table } := by
  refine ⟨h.plain, h.own.update hrows, h.placed, fun call current stream hcall hphase => ?_,
    h.fresh⟩
  obtain ⟨row, hrow, hid, hposition⟩ := h.inTable call current stream hcall hphase
  obtain ⟨hsameId, hsamePosition⟩ := StreamsTable.updateRow_keys id guard change row
  refine ⟨StreamsTable.updateRow id guard change row, ?_, hsameId.trans hid,
    hsamePosition.trans hposition⟩
  rw [show ({ s with table } : ApiState).table = table from rfl, hrows]
  exact List.mem_map_of_mem hrow

theorem step (h : Reported cfg s) {label : ApiLabel} (hunrepeated : Unrepeated cfg s label)
    (hstep : apiStep cfg s label = some s') : Reported cfg s' := by
  cases apiMove_of_step hstep with
  | tick => exact ⟨h.plain, h.own, h.placed, h.inTable, h.fresh⟩
  | refused => exact h
  | accepted _ _ _ _ hparsed =>
    apply h.put (plain_of_parseCreateStreamBody hparsed) h.own (fun _ hrow => hrow)
    · intro hphase
      cases hphase
    · intro _ hstream
      cases hstream
  | advance _ _ _ _ _ hcall hmove => exact h.move hcall hunrepeated hmove
  | updated _ _ _ _ hrows => exact h.update hrows
  | unchanged => exact h

theorem start {now : ℕ} (hown : OwnIds table) (store : IdempotencyStore) :
    Reported cfg (.start now table store) where
  plain _ _ hcall := by cases hcall
  own := hown
  placed _ _ _ _ hcall := by cases hcall
  inTable _ _ _ hcall := by cases hcall
  fresh _ _ _ hcall := by cases hcall

end Reported

/-! ## All runs -/

/-- The same tenant asks again, under another key. -/
def otherRequest (startTime : ℕ) : CreateRequest :=
  ⟨"tenant", "other", sampleBody (some startTime)⟩

theorem otherRequest_fullKey_ne (startTime : ℕ) :
    (otherRequest startTime).fullKey ≠ (sampleRequest 0).fullKey := by
  show IdempotencyStore.buildKey "other" "tenant" ≠ IdempotencyStore.buildKey "key" "tenant"
  decide

theorem unrepeated_of_apart {cfg : CreateConfig} {s : ApiState} {call : ℕ} {label : ApiLabel}
    {request : CreateRequest} {input : ApiCreateStreamInput}
    (hlabel : label = .receive call request ∨ label = .advance call)
    (hown : ∀ current, s.calls call = some current → current.input = input ∧
      current.phase ≠ .findingById ∧ current.phase ≠ .findingByEvent)
    (hothers : ∀ other current, other ≠ call → s.calls other = some current →
      current.input ≠ input) : Unrepeated cfg s label := by
  rcases hlabel with rfl | rfl
  · trivial
  · intro current hcall
    obtain ⟨hinput, hById, hByEvent⟩ := hown current hcall
    refine ⟨fun _ other current' hne hother _ hsame => ?_, fun hfinding => ?_⟩
    · exact absurd (hsame.trans hinput) (hothers other current' hne hother)
    · exact absurd hfinding (not_or.mpr ⟨hById, hByEvent⟩)

theorem exists_first_carried_out (cfg : CreateConfig) :
    ∃ s, Reaches (apiStep cfg) (Unrepeated cfg) (.start 0 .empty .empty) s ∧
      (∀ other, other ≠ 0 → s.calls other = none) ∧
      s.calls 0 = some ⟨sampleRequest 0, sampleInput 0, .answered (.created
        (toApiStream ⟨(sampleInput 0).row cfg.sha256, .active⟩))⟩ ∧
      s.table.rows = [⟨(sampleInput 0).row cfg.sha256, .active⟩] ∧
      ∀ key, key ≠ (sampleRequest 0).fullKey → s.store.values key = none := by
  have hstart : ApiState.calls (.start 0 .empty .empty) 0 = none := rfl
  obtain ⟨s, hrun, _, hothers, hcreated, hrows, hstored⟩ :=
    exists_carried_out cfg hstart (parse_sampleRequest_zero 0) rfl List.not_mem_nil rfl
      fun s label hlabel _ _ hothers hown =>
        unrepeated_of_apart hlabel hown fun other current hne hother => by
          cases (hothers other hne).symm.trans hother
  exact ⟨s, hrun, hothers, hcreated, hrows, fun key hkey =>
    (congrFun hstored key).trans (if_neg hkey)⟩

end Fluxora.Streams
