/-
# One payload for a key

A key that has been used for one body must not create a second stream from another. The check
compares the fingerprint that is stored under the key, and it is made once, before the database is
asked. A request that comes while another one is between its lookup and the storing of its answer
finds nothing, and goes on whatever its body is.
-/

import Fluxora.Streams.RepeatedCreate

namespace Fluxora.Streams

open Lib Lib.Transition Serialization

/-! ## Requests in between -/

/-- The request has looked its key up in vain and its answer is not stored yet. -/
def CreatePhase.InFlight : CreatePhase → Prop
  | .inserting => True
  | .findingById => True
  | .findingByEvent => True
  | .storing _ => True
  | _ => False

/-- The body is turned into a stream. -/
def CreatePhase.Made : CreatePhase → Prop
  | .answered (.created _) => True
  | .answered _ => False
  | phase => phase.InFlight

theorem CreatePhase.InFlight.ne_answered {phase : CreatePhase} (h : phase.InFlight)
    (answer : CreateAnswer) : phase ≠ .answered answer := by
  rintro rfl
  exact h

theorem CreatePhase.InFlight.made {phase : CreatePhase} (h : phase.InFlight) : phase.Made := by
  cases phase with
  | answered answer => exact absurd rfl (h.ne_answered answer)
  | _ => exact h

/-- Of two requests of one tenant with one key and different inputs, at most one is
turned into a stream, and the other one is refused. -/
def OnePayload (s : ApiState) : Prop :=
  ∀ first second current current', s.calls first = some current →
    s.calls second = some current' →
    current.request.tenantId = current'.request.tenantId →
    current.request.idempotencyKey = current'.request.idempotencyKey →
    current.input ≠ current'.input → current.phase.Made →
    ¬ current'.phase.Made ∧
      ∀ answer, current'.phase = .answered answer →
        answer = .differentPayload ∨ answer = .inProgress

/-- No request looks its key up while one with another input is in flight under it, or
when what is stored has expired. -/
def Unhurried (s : ApiState) : ApiLabel → Prop
  | .advance call =>
    ∀ current, s.calls call = some current → current.phase = .reading →
      (∀ other current', s.calls other = some current' →
        current'.request.fullKey = current.request.fullKey → current'.phase.InFlight →
        current'.input = current.input) ∧
      ∀ value deadline, s.store.values current.request.fullKey = some (value, deadline) →
        s.now < deadline
  | _ => True

/-! ## The invariant -/

/-- One input for each key, kept in the store once it has been carried out. -/
structure OneInput (cfg : CreateConfig) (s : ApiState) : Prop where
  plain : ∀ call current, s.calls call = some current → current.input.Plain
  own : OwnIds s.table
  found : ∀ call current, s.calls call = some current →
    current.phase = .findingById ∨ current.phase = .findingByEvent →
    (current.input.row cfg.sha256).position ∈ s.table.rows.map StreamRecord.position
  working : ∀ call current message, s.calls call = some current →
    current.phase ≠ .answered (.failed message)
  made : ∀ first second current current', s.calls first = some current →
    s.calls second = some current' → current.request.fullKey = current'.request.fullKey →
    current.phase.Made → current'.phase.Made → current.input = current'.input
  kept : ∀ call current stream, s.calls call = some current →
    current.phase = .answered (.created stream) →
    ∃ value deadline, s.store.values current.request.fullKey = some (value, deadline)
  stored : ∀ key value deadline, s.store.values key = some (value, deadline) →
    ∃ call current stream entry, s.calls call = some current ∧ current.request.fullKey = key ∧
      current.phase = .answered (.created stream) ∧ value = .entry entry ∧
      entry.requestFingerprint = current.input.fingerprintInput cfg.sha256
  replayed : ∀ call current code stream, s.calls call = some current →
    current.phase = .answered (.replayed code stream) →
    ∃ other current' stream', s.calls other = some current' ∧
      current'.request.fullKey = current.request.fullKey ∧
      current'.phase = .answered (.created stream') ∧ current'.input = current.input

namespace OneInput

variable {cfg : CreateConfig} {s s' : ApiState}

theorem onePayload (h : OneInput cfg s) : OnePayload s := by
  intro first second current current' hfirst hsecond htenant hkey hne hmade
  have hfull : current.request.fullKey = current'.request.fullKey := by
    rw [CreateRequest.fullKey, CreateRequest.fullKey, htenant, hkey]
  refine ⟨fun hmade' => hne (h.made _ _ _ _ hfirst hsecond hfull hmade hmade'),
    fun answer hanswer => ?_⟩
  cases answer with
  | created =>
    have hmade' : current'.phase.Made := by
      rw [hanswer]
      trivial
    exact absurd (h.made _ _ _ _ hfirst hsecond hfull hmade hmade') hne
  | replayed code stream =>
    obtain ⟨other, original, stream', hother, hfull', hphase, hinput⟩ :=
      h.replayed second current' code stream hsecond hanswer
    have hmade' : original.phase.Made := by
      rw [hphase]
      trivial
    have hsame := h.made _ _ _ _ hfirst hother (hfull.trans hfull'.symm) hmade hmade'
    exact absurd (hsame.trans hinput) hne
  | inProgress => exact Or.inr rfl
  | differentPayload => exact Or.inl rfl
  | failed message => exact absurd hanswer (h.working second current' message hsecond)

variable {table : StreamsTable} {call : ℕ} {input : ApiCreateStreamInput} {request : CreateRequest}

theorem put (h : OneInput cfg s) {phase : CreatePhase} {store : IdempotencyStore}
    (hopen : ∀ current answer, s.calls call = some current → current.phase ≠ .answered answer)
    (hplain : input.Plain) (hown : OwnIds table)
    (hgrows : ∀ position ∈ s.table.rows.map StreamRecord.position, position ∈ table.rows.map
      StreamRecord.position)
    (hfound : phase = .findingById ∨ phase = .findingByEvent → (input.row cfg.sha256).position ∈
      table.rows.map StreamRecord.position)
    (hworking : ∀ message, phase ≠ .answered (.failed message))
    (hmade : phase.Made → ∀ other current, s.calls other = some current → current.request.fullKey =
      request.fullKey → other ≠ call → current.phase.Made → current.input = input)
    (hstore : ∀ key, store.values key = s.store.values key ∨ key = request.fullKey ∧ (∃ stream,
      phase = .answered (.created stream)) ∧ ∃ entry deadline, store.values key = some (.entry
      entry, deadline) ∧ entry.requestFingerprint = input.fingerprintInput cfg.sha256)
    (hkept : ∀ stream, phase = .answered (.created stream) → ∃ value deadline, store.values
      request.fullKey = some (value, deadline))
    (hreplayed : ∀ code stream, phase = .answered (.replayed code stream) → ∃ other current stream',
      s.calls other = some current ∧ current.request.fullKey = request.fullKey ∧ current.phase =
      .answered (.created stream') ∧ current.input = input) :
    OneInput cfg (s.put table store call ⟨request, input, phase⟩) := by
  -- an answered request is another one, and stays where it is
  have hanswered : ∀ other current answer, s.calls other = some current →
      current.phase = .answered answer →
      (s.put table store call ⟨request, input, phase⟩).calls other = some current := by
    intro other current answer hother hanswer
    rw [ApiState.calls_put_of_ne]
    · exact hother
    · intro hsame
      exact hopen current answer (hsame ▸ hother) hanswer
  constructor
  case plain =>
    intro other current hother
    rcases ApiState.calls_put hother with ⟨-, rfl⟩ | ⟨-, hold⟩
    · exact hplain
    · exact h.plain other current hold
  case own =>
    exact hown
  case found =>
    intro other current hother hphase
    rcases ApiState.calls_put hother with ⟨-, rfl⟩ | ⟨-, hold⟩
    · exact hfound hphase
    · exact hgrows _ (h.found other current hold hphase)
  case working =>
    intro other current message hother
    rcases ApiState.calls_put hother with ⟨-, rfl⟩ | ⟨-, hold⟩
    · exact hworking message
    · exact h.working other current message hold
  case made =>
    intro first second current current' hfirst hsecond hkey hphase hphase'
    rcases ApiState.calls_put hfirst with ⟨-, rfl⟩ | ⟨hne, hold⟩
    · rcases ApiState.calls_put hsecond with ⟨-, rfl⟩ | ⟨hne', hold'⟩
      · rfl
      · exact (hmade hphase second current' hold' hkey.symm hne' hphase').symm
    · rcases ApiState.calls_put hsecond with ⟨-, rfl⟩ | ⟨-, hold'⟩
      · exact hmade hphase' first current hold hkey hne hphase
      · exact h.made first second current current' hold hold' hkey hphase hphase'
  case kept =>
    intro other current stream hother hphase
    rcases ApiState.calls_put hother with ⟨-, rfl⟩ | ⟨-, hold⟩
    · exact hkept stream hphase
    · obtain ⟨value, deadline, hvalue⟩ := h.kept other current stream hold hphase
      rcases hstore current.request.fullKey with hsame | ⟨_, _, entry, deadline', hnew, _⟩
      · exact ⟨value, deadline, hsame.trans hvalue⟩
      · exact ⟨_, _, hnew⟩
  case stored =>
    intro key value deadline hvalue
    rcases hstore key with hsame | ⟨hkey, ⟨stream, hphase⟩, entry, deadline', hnew, hentry⟩
    · obtain ⟨other, current, stream, entry, hother, hkey, hphase, hrest⟩ :=
        h.stored key value deadline (hsame.symm.trans hvalue)
      exact ⟨other, current, stream, entry, hanswered other current _ hother hphase, hkey, hphase,
        hrest⟩
    · cases hnew.symm.trans hvalue
      exact ⟨call, _, stream, entry, s.calls_put_self table store call _, hkey.symm, hphase,
        rfl, hentry⟩
  case replayed =>
    intro other current code stream hother hphase
    obtain ⟨original, current', stream', horiginal, hkey, hcreated, hinput⟩ :
        ∃ original current' stream', s.calls original = some current' ∧
          current'.request.fullKey = current.request.fullKey ∧
          current'.phase = .answered (.created stream') ∧ current'.input = current.input := by
      rcases ApiState.calls_put hother with ⟨-, rfl⟩ | ⟨-, hold⟩
      · exact hreplayed code stream hphase
      · exact h.replayed other current code stream hold hphase
    exact ⟨original, current', stream', hanswered original current' _ horiginal hcreated, hkey,
      hcreated, hinput⟩

theorem stay (h : OneInput cfg s) {phase : CreatePhase}
    (hopen : ∀ current answer, s.calls call = some current → current.phase ≠ .answered answer)
    (hplain : input.Plain)
    (hfound : phase = .findingById ∨ phase = .findingByEvent → (input.row cfg.sha256).position ∈
      s.table.rows.map StreamRecord.position)
    (hanswer : ∀ answer, phase = .answered answer → answer = .differentPayload ∨ ∃ code stream,
      answer = .replayed code stream)
    (hmade : phase.Made → ∀ other current, s.calls other = some current → current.request.fullKey =
      request.fullKey → other ≠ call → current.phase.Made → current.input = input)
    (hreplayed : ∀ code stream, phase = .answered (.replayed code stream) → ∃ other current stream',
      s.calls other = some current ∧ current.request.fullKey = request.fullKey ∧ current.phase =
      .answered (.created stream') ∧ current.input = input) :
    OneInput cfg (s.put s.table s.store call ⟨request, input, phase⟩) := by
  apply h.put hopen hplain h.own (fun _ hposition => hposition) hfound
  · intro message hphase
    rcases hanswer _ hphase with hother | ⟨_, _, hother⟩
    · cases hother
    · cases hother
  · exact hmade
  · exact fun key => Or.inl rfl
  · intro stream hphase
    rcases hanswer _ hphase with hother | ⟨_, _, hother⟩
    · cases hother
    · cases hother
  · exact hreplayed

theorem input_eq (h : OneInput cfg s) {current : CreateCall} (hcall : s.calls call = some current)
    (hflight : current.phase.InFlight) {other : ℕ} {current' : CreateCall}
    (hother : s.calls other = some current')
    (hkey : current'.request.fullKey = current.request.fullKey) (hmade : current'.phase.Made) :
    current'.input = current.input :=
  h.made other call current' current hother hcall hkey hmade hflight.made

theorem onward (h : OneInput cfg s) {current : CreateCall} (hcall : s.calls call = some current)
    (hflight : current.phase.InFlight) {phase : CreatePhase} (hflight' : phase.InFlight)
    (hfound : phase = .findingById ∨ phase = .findingByEvent → (current.input.row
      cfg.sha256).position ∈ s.table.rows.map StreamRecord.position) :
    OneInput cfg (s.put s.table s.store call { current with phase }) := by
  apply h.stay _ (h.plain call current hcall) hfound
  · exact fun answer hanswer => absurd hanswer (hflight'.ne_answered answer)
  · exact fun _ other current' hother hkey _ hmade =>
      h.input_eq hcall hflight hother hkey hmade
  · exact fun _ _ hanswer => absurd hanswer (hflight'.ne_answered _)
  · intro current' answer hcall'
    cases hcall.symm.trans hcall'
    exact hflight.ne_answered answer

theorem move (h : OneInput cfg s) (hfree : Function.Injective cfg.sha256) {current : CreateCall}
    (hcall : s.calls call = some current) (hunhurried : Unhurried s (.advance call))
    {phase : CreatePhase} {store : IdempotencyStore}
    (hmove : Move cfg s current phase table store) :
    OneInput cfg (s.put table store call { current with phase }) := by
  have hplain := h.plain call current hcall
  -- a request that moves has not been answered
  have hopen : ∀ {phase' : CreatePhase}, current.phase = phase' →
      (∀ answer, phase' ≠ .answered answer) →
      ∀ current' answer, s.calls call = some current' → current'.phase ≠ .answered answer := by
    intro phase' hphase hnot current' answer hcall' hanswer
    cases hcall.symm.trans hcall'
    exact hnot answer (hphase.symm.trans hanswer)
  cases hmove with
  | busy _ hstored =>
    obtain ⟨deadline, hvalue, _⟩ := IdempotencyStore.get_eq_some_iff.mp hstored
    obtain ⟨_, _, _, _, _, _, _, hentry, _⟩ := h.stored _ _ _ hvalue
    cases hentry
  | replay _ hphase hstored hsame =>
    obtain ⟨deadline, hvalue, _⟩ := IdempotencyStore.get_eq_some_iff.mp hstored
    obtain ⟨other, original, stream, entry', hother, hkey, hcreated, hentry, hprint⟩ :=
      h.stored _ _ _ hvalue
    cases hentry
    have hinput : original.input = current.input :=
      ApiCreateStreamInput.fingerprintInput_inj hfree (h.plain other original hother) hplain
        (hprint.symm.trans hsame)
    apply h.stay (hopen hphase fun _ => CreatePhase.noConfusion) hplain
    · rintro (hfinding | hfinding) <;> cases hfinding
    · intro answer hanswer
      cases hanswer
      exact Or.inr ⟨_, _, rfl⟩
    · exact False.elim
    · exact fun _ _ _ => ⟨other, original, stream, hother, hkey, hcreated, hinput⟩
  | refuse _ hphase =>
    apply h.stay (hopen hphase fun _ => CreatePhase.noConfusion) hplain
    · rintro (hfinding | hfinding) <;> cases hfinding
    · intro answer hanswer
      cases hanswer
      exact Or.inl rfl
    · exact False.elim
    · intro _ _ hanswer
      cases hanswer
  | miss hphase habsent =>
    obtain ⟨hsame, hlive⟩ := hunhurried current hcall hphase
    apply h.stay (hopen hphase fun _ => CreatePhase.noConfusion) hplain
    · rintro (hfinding | hfinding) <;> cases hfinding
    · intro _ hanswer
      cases hanswer
    · intro _ other current' hother hkey _ hmade'
      cases hphase' : current'.phase with
      | answered answer =>
        cases answer with
        | created stream =>
          -- what has been carried out would have been found
          obtain ⟨value, deadline, hvalue⟩ := h.kept other current' stream hother hphase'
          rw [hkey] at hvalue
          have hget := IdempotencyStore.get_eq_some_iff.mpr
            ⟨deadline, hvalue, hlive value deadline hvalue⟩
          cases habsent.symm.trans hget
        | _ =>
          rw [hphase'] at hmade'
          exact hmade'.elim
      | _ =>
        rw [hphase'] at hmade'
        refine hsame other current' hother hkey ?_
        rw [hphase']
        exact hmade'
    · intro _ _ hanswer
      cases hanswer
  | insert _ hphase _ hrows =>
    apply h.put (hopen hphase fun _ => CreatePhase.noConfusion) hplain (h.own.insert hrows)
    · intro position hposition
      rw [hrows, List.map_append]
      exact List.mem_append_left _ hposition
    · rintro (hfinding | hfinding) <;> cases hfinding
    · exact fun _ => CreatePhase.noConfusion
    · exact fun _ other current' hother hkey _ hmade =>
        h.input_eq hcall (hphase ▸ trivial) hother hkey hmade
    · exact fun key => Or.inl rfl
    · exact fun _ => CreatePhase.noConfusion
    · exact fun _ _ => CreatePhase.noConfusion
  | conflict hphase htaken => exact h.onward hcall (hphase ▸ trivial) trivial fun _ => htaken
  | idTaken _ _ hfree' htaken => exact absurd (h.own.taken_of_id htaken) hfree'
  | foundById _ hphase =>
    refine h.onward hcall (hphase ▸ trivial) trivial ?_
    rintro (hfinding | hfinding) <;> cases hfinding
  | notById hphase =>
    exact h.onward hcall (hphase ▸ trivial) trivial
      fun _ => h.found call current hcall (Or.inl hphase)
  | foundByEvent _ hphase =>
    refine h.onward hcall (hphase ▸ trivial) trivial ?_
    rintro (hfinding | hfinding) <;> cases hfinding
  | notByEvent _ hphase habsent =>
    -- the row of the conflict is still there
    exact absurd (h.found call current hcall (Or.inr hphase))
      (StreamsTable.not_mem_of_getByEvent habsent)
  | store row hphase =>
    have hvalues : (s.store.set s.now cfg.ttlSeconds current.request.fullKey
        (current.entry cfg row)).values = _ :=
      IdempotencyStore.values_set cfg.ttlSeconds_pos (current.entry cfg row)
    apply h.put (hopen hphase fun _ => CreatePhase.noConfusion) hplain h.own
      (fun _ hposition => hposition)
    · rintro (hfinding | hfinding) <;> cases hfinding
    · intro _ hanswer
      cases hanswer
    · exact fun _ other current' hother hkey _ hmade =>
        h.input_eq hcall (hphase ▸ trivial) hother hkey hmade
    · intro key
      rw [hvalues]
      by_cases hkey : key = current.request.fullKey
      · exact Or.inr ⟨hkey, ⟨_, rfl⟩, _, _, if_pos hkey, rfl⟩
      · exact Or.inl (if_neg hkey)
    · intro _ _
      rw [hvalues]
      exact ⟨_, _, if_pos rfl⟩
    · intro _ _ hanswer
      cases hanswer

theorem update (h : OneInput cfg s) {id : String} {guard : StreamStatus}
    {change : UpdateStreamInput}
    (hrows : table.rows = s.table.rows.map (StreamsTable.updateRow id guard change)) :
    OneInput cfg { s with table } := by
  refine ⟨h.plain, h.own.update hrows, fun call current hcall hphase => ?_, h.working, h.made,
    h.kept, h.stored, h.replayed⟩
  rw [show ({ s with table } : ApiState).table = table from rfl, hrows,
    StreamsTable.map_updateRow fun row => (StreamsTable.updateRow_keys id guard change row).2]
  exact h.found call current hcall hphase

theorem step (h : OneInput cfg s) (hfree : Function.Injective cfg.sha256) {label : ApiLabel}
    (hunhurried : Unhurried s label) (hstep : apiStep cfg s label = some s') :
    OneInput cfg s' := by
  cases apiMove_of_step hstep with
  | tick => exact ⟨h.plain, h.own, h.found, h.working, h.made, h.kept, h.stored, h.replayed⟩
  | refused => exact h
  | accepted _ _ _ hfresh hparsed =>
    apply h.stay
    · intro current answer hcall
      cases hfresh.symm.trans hcall
    · exact plain_of_parseCreateStreamBody hparsed
    · rintro (hfinding | hfinding) <;> cases hfinding
    · exact fun _ => CreatePhase.noConfusion
    · exact False.elim
    · exact fun _ _ => CreatePhase.noConfusion
  | advance _ _ _ _ _ hcall hmove => exact h.move hfree hcall hunhurried hmove
  | updated _ _ _ _ hrows => exact h.update hrows
  | unchanged => exact h

theorem start {now : ℕ} (hown : OwnIds table) : OneInput cfg (.start now table .empty) where
  plain _ _ hcall := by cases hcall
  own := hown
  found _ _ hcall := by cases hcall
  working _ _ _ hcall := by cases hcall
  made _ _ _ _ hcall := by cases hcall
  kept _ _ _ hcall := by cases hcall
  stored _ _ _ hvalue := by cases hvalue
  replayed _ _ _ _ hcall := by cases hcall

end OneInput

/-! ## All interleavings -/

/-- In every run in which no request looks its key up while one with another input is in
flight under it, and in which nothing that is looked up has expired, one payload is
carried out for each key and every other one is refused. -/
theorem one_payload (cfg : CreateConfig) (hfree : Function.Injective cfg.sha256) {now : ℕ}
    {table : StreamsTable} (hown : OwnIds table) {s : ApiState}
    (hrun : Reaches (apiStep cfg) Unhurried (.start now table .empty) s) : OnePayload s := by
  have hpreserved : ∀ s label s', OneInput cfg s → Unhurried s label →
      apiStep cfg s label = some s' → OneInput cfg s' :=
    fun s label s' h hunhurried hstep => h.step hfree hunhurried hstep
  exact (Reaches.invariant hpreserved (OneInput.start hown) hrun).onePayload

theorem unhurried_of_alone {s : ApiState} {call : ℕ} {label : ApiLabel} {request : CreateRequest}
    (hlabel : label = .receive call request ∨ label = .advance call)
    (hothers : ∀ other current, other ≠ call → s.calls other = some current →
      ¬ current.phase.InFlight)
    (hlive : ∀ key value deadline, s.store.values key = some (value, deadline) →
      s.now < deadline) : Unhurried s label := by
  rcases hlabel with rfl | rfl
  · trivial
  · intro current hcall hreading
    refine ⟨fun other current' hother _ hflight => ?_, fun value deadline => hlive _ value deadline⟩
    by_cases hsame : other = call
    · rw [hsame] at hother
      cases hcall.symm.trans hother
      rfl
    · exact absurd hflight (hothers other current' hsame hother)

/-- One request is carried out; then another one comes with its key and another body,
and is refused. -/
theorem one_payload_refusal :
    ∃ s, Reaches (apiStep sampleConfig) Unhurried (.start 0 .empty .empty) s ∧
      (∃ stream, s.calls 0 =
        some ⟨sampleRequest 0, sampleInput 0, .answered (.created stream)⟩) ∧
      s.calls 1 = some ⟨sampleRequest 1, sampleInput 1, .answered .differentPayload⟩ ∧
      OnePayload s := by
  obtain ⟨cfg, hcfg⟩ : ∃ cfg, cfg = sampleConfig := ⟨_, rfl⟩
  have hfree : Function.Injective cfg.sha256 := hcfg ▸ sampleDigest.injective
  rw [← hcfg]
  have hidle : ∀ s label, label = .receive 0 (sampleRequest 0) ∨ label = .advance 0 →
      s.now = 0 → s.store = .empty →
      (∀ other, other ≠ 0 → s.calls other = none) →
      (∀ current, s.calls 0 = some current → current.input = sampleInput 0 ∧
        current.phase ≠ .findingById ∧ current.phase ≠ .findingByEvent) → Unhurried s label := by
    intro s label hlabel _ hstore hothers _
    apply unhurried_of_alone hlabel
    · intro other current hne hother
      cases (hothers other hne).symm.trans hother
    · intro key value deadline hvalue
      rw [hstore] at hvalue
      cases hvalue
  have hstart : ApiState.calls (.start 0 .empty .empty) 0 = none := rfl
  obtain ⟨s, hrun, hnow, hothers, hcreated, _, hstored⟩ :=
    exists_carried_out cfg hstart (parse_sampleRequest_zero 0) rfl List.not_mem_nil rfl hidle
  -- the second request finds what the first has stored
  have hother : s.calls 1 = none := hothers 1 Nat.one_ne_zero
  have hreceived := hrun.tail (show Unhurried _ (.receive 1 (sampleRequest 1)) from trivial)
    (apiStep_receive hother (parse_sampleRequest_one s.now))
  have hlater : s.now < 0 + cfg.ttlSeconds * 1000 := by
    have hpositive := cfg.ttlSeconds_pos
    have hzero : s.now = 0 := hnow
    omega
  have hdifferent : (sampleInput 0).fingerprintInput cfg.sha256 ≠
      (sampleInput 1).fingerprintInput cfg.sha256 := by
    intro hsame
    have hequal := ApiCreateStreamInput.fingerprintInput_inj hfree
      (plain_of_parseCreateStreamBody (parse_sampleRequest_zero 0))
      (plain_of_parseCreateStreamBody (parse_sampleRequest_one 0)) hsame
    cases congrArg ApiCreateStreamInput.startTime hequal
  have hnext : CreateCall.next cfg
      (s.put s.table s.store 1 ⟨sampleRequest 1, sampleInput 1, .reading⟩)
      ⟨sampleRequest 1, sampleInput 1, .reading⟩ =
        some (.answered .differentPayload, s.table, s.store) := by
    have hget := IdempotencyStore.get_eq_some_iff.mpr
      ⟨_, (congrFun hstored (sampleRequest 1).fullKey).trans (if_pos rfl), hlater⟩
    simp only [CreateCall.next, ApiState.put, hget, CreateCall.afterLookup, if_pos hdifferent]
  have hunhurried : Unhurried
      (s.put s.table s.store 1 ⟨sampleRequest 1, sampleInput 1, .reading⟩) (.advance 1) := by
    have hlabel : ApiLabel.advance 1 = .receive 1 (sampleRequest 1) ∨
      ApiLabel.advance 1 = .advance 1 := Or.inr rfl
    apply unhurried_of_alone hlabel
    · intro other current hne hcall
      rw [ApiState.calls_put_of_ne hne] at hcall
      by_cases hzero : other = 0
      · rw [hzero, hcreated] at hcall
        cases hcall
        exact False.elim
      · cases (hothers other hzero).symm.trans hcall
    · intro key value deadline hvalue
      have hvalue' := (congrFun hstored key).symm.trans hvalue
      split_ifs at hvalue'
      · cases hvalue'
        exact hlater
      · cases hvalue'
  have hrefused := hreceived.tail hunhurried
    (apiStep_advance (ApiState.calls_put_self _ _ _ _ _) hnext)
  have hkept : ((s.put s.table s.store 1 ⟨sampleRequest 1, sampleInput 1, .reading⟩).put s.table
      s.store 1 ⟨sampleRequest 1, sampleInput 1, .answered .differentPayload⟩).calls 0 =
        s.calls 0 :=
    (ApiState.calls_put_of_ne Nat.zero_ne_one).trans (ApiState.calls_put_of_ne Nat.zero_ne_one)
  exact ⟨_, hrefused, ⟨_, hkept.trans hcreated⟩, ApiState.calls_put_self _ _ _ _ _,
    one_payload cfg hfree (fun _ hrow => absurd hrow List.not_mem_nil) hrefused⟩

/-- Two requests with one key and different bodies look their key up before either is
carried out, and two streams are created. -/
theorem one_payload_fails :
    ¬ ∀ s, Reaches (apiStep sampleConfig) (fun _ _ => True) (.start 0 .empty .empty) s →
      OnePayload s := by
  intro hclaim
  obtain ⟨s, hrun, hfirst, hsecond, htable⟩ :=
    exists_both_missed sampleConfig (parse_sampleRequest_zero 0) (parse_sampleRequest_one (0 + 0))
      fun _ _ _ _ => trivial
  obtain ⟨s', hrun', hfirst', hsecond', _⟩ := exists_both_inserted sampleConfig hrun
    (fun _ _ _ _ _ => trivial) hfirst hsecond htable position_sampleInput_ne
  exact (hclaim s' hrun' 0 1 _ _ hfirst' hsecond' rfl rfl (by decide) trivial).1 trivial

end Fluxora.Streams
