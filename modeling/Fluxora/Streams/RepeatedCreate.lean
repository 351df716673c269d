/-
# Repeating a create request

A client that does not know whether its request was carried out sends it again, with the same key
and the same body. One stream should come of it, and every request should be answered with that
stream.

A body that says when the stream starts is normalised to the same input at all times, so that all
its requests have one fingerprint and one row.
-/

import Fluxora.Streams.CreateHandler

namespace Fluxora.Streams

open Lib Lib.Transition Serialization

/-! ## Repetitions of one request -/

/-- A system that no request has reached yet. -/
def ApiState.start (now : ℕ) (table : StreamsTable) (store : IdempotencyStore) : ApiState :=
  ⟨now, table, store, fun _ => none⟩

/-- Only the given request arrives, any number of times, and it is looked up while what
is stored under its key has not expired. -/
def OnlyRequest (request : CreateRequest) (s : ApiState) : ApiLabel → Prop
  | .tick _ => True
  | .receive _ received => received = request
  | .advance call =>
    ∀ current, s.calls call = some current → current.phase = .reading →
      ∀ value deadline, s.store.values request.fullKey = some (value, deadline) →
        s.now < deadline
  | .update _ _ _ => False

/-- However the requests with a key and a body are interleaved, at most one row is
created, and every request is answered in the end: with the stream, or with a request to
come back. -/
def HonoursKey (cfg : CreateConfig) (body : Json) : Prop :=
  ∀ (tenantId key : String) (now : ℕ) (table : StreamsTable) (store : IdempotencyStore)
    (s : ApiState), OwnIds table →
    store.values (IdempotencyStore.buildKey key tenantId) = none →
    Reaches (apiStep cfg) (OnlyRequest ⟨tenantId, key, body⟩) (.start now table store) s →
    s.table.rows.length ≤ table.rows.length + 1 ∧ Answerable cfg s ∧
    ∃ stream, ∀ call current answer, s.calls call = some current →
      current.phase = .answered answer →
      answer = .created stream ∨ answer = .replayed 201 stream ∨ answer = .inProgress

/-! ## Bodies with a start -/

/-- Where a repetition can be once the row that stands for the input is known. -/
def CreatePhase.Sound (target : StreamRecord) (table : StreamsTable) : CreatePhase → Prop
  | .reading => True
  | .inserting => True
  | .findingById => target ∈ table.rows
  | .findingByEvent => target ∈ table.rows
  | .storing row => row = target
  | .answered answer =>
    answer = .created (toApiStream target) ∨ answer = .replayed 201 (toApiStream target) ∨
      answer = .inProgress

theorem CreatePhase.Sound.mono {target : StreamRecord} {table table' : StreamsTable}
    {phase : CreatePhase} (h : phase.Sound target table)
    (hgrows : ∀ row ∈ table.rows, row ∈ table'.rows) : phase.Sound target table' := by
  cases phase with
  | reading | inserting => trivial
  | findingById | findingByEvent => exact hgrows target h
  | storing | answered => exact h

/-- All calls repeat one request, and there is one row for it, if there is any. -/
structure Repeated (cfg : CreateConfig) (request : CreateRequest) (input : ApiCreateStreamInput)
    (before : StreamsTable) (target : StreamRecord) (s : ApiState) : Prop where
  calls : ∀ call current, s.calls call = some current →
    current.request = request ∧ current.input = input ∧ current.phase.Sound target s.table
  stored : ∀ value deadline, s.store.values request.fullKey = some (value, deadline) →
    value = .entry ⟨input.fingerprintInput cfg.sha256, 201, toApiStream target⟩
  own : OwnIds s.table
  rows : s.table = before ∨ s.table.rows = before.rows ++ [target]
  unique : ∀ row ∈ s.table.rows, row.position = (input.row cfg.sha256).position → row = target

namespace Repeated

variable {cfg : CreateConfig} {request : CreateRequest} {input : ApiCreateStreamInput}
  {before : StreamsTable} {target : StreamRecord} {s s' : ApiState} {call : ℕ}

theorem put (h : Repeated cfg request input before target s) {next : CreateCall}
    (hrequest : next.request = request) (hinput : next.input = input)
    (hsound : next.phase.Sound target s.table) :
    Repeated cfg request input before target (s.put s.table s.store call next) where
  calls other current hother := by
    rcases ApiState.calls_put hother with ⟨-, rfl⟩ | ⟨-, hold⟩
    · exact ⟨hrequest, hinput, hsound⟩
    · exact h.calls other current hold
  stored := h.stored
  own := h.own
  rows := h.rows
  unique := h.unique

theorem insert (h : Repeated cfg request input before target s)
    (hposition : target.position = (input.row cfg.sha256).position)
    (hnew : (input.row cfg.sha256).position ∉ before.rows.map StreamRecord.position → target =
      ⟨input.row cfg.sha256, .active⟩) {current : CreateCall} {table : StreamsTable}
    (hrequest : current.request = request) (hinput : current.input = input)
    (hfree : (input.row cfg.sha256).position ∉ s.table.rows.map StreamRecord.position)
    (hrows : table.rows = s.table.rows ++ [⟨input.row cfg.sha256, .active⟩]) :
    Repeated cfg request input before target
      (s.put table s.store call
        { current with phase := .storing ⟨input.row cfg.sha256, .active⟩ }) := by
  have hbefore : s.table = before := by
    refine h.rows.resolve_right fun hadded => hfree ?_
    rw [hadded, ← hposition]
    exact List.mem_map_of_mem (List.mem_append_right _ (List.mem_singleton.mpr rfl))
  have htarget := hnew (hbefore ▸ hfree)
  rw [← htarget] at hrows ⊢
  refine ⟨fun other next hother => ?_, h.stored, h.own.insert (htarget ▸ hrows), Or.inr ?_, ?_⟩
  · rcases ApiState.calls_put hother with ⟨-, rfl⟩ | ⟨-, hold⟩
    · exact ⟨hrequest, hinput, rfl⟩
    · obtain ⟨hrequest', hinput', hsound⟩ := h.calls other next hold
      refine ⟨hrequest', hinput', hsound.mono fun row hrow => ?_⟩
      rw [show (s.put table s.store call _).table = table from rfl, hrows]
      exact List.mem_append_left _ hrow
  · rw [← hbefore]
    exact hrows
  · intro row hrow hrowPosition
    rw [show (s.put table s.store call _).table = table from rfl, hrows] at hrow
    rcases List.mem_append.mp hrow with hold | hlast
    · exact h.unique row hold hrowPosition
    · exact List.mem_singleton.mp hlast

theorem store (h : Repeated cfg request input before target s) {current : CreateCall}
    (hrequest : current.request = request) (hinput : current.input = input) :
    Repeated cfg request input before target
      (s.put s.table
        (s.store.set s.now cfg.ttlSeconds current.request.fullKey (current.entry cfg target)) call
        { current with phase := .answered (.created (toApiStream target)) }) where
  calls other next hother := by
    rcases ApiState.calls_put hother with ⟨-, rfl⟩ | ⟨-, hold⟩
    · exact ⟨hrequest, hinput, Or.inl rfl⟩
    · exact h.calls other next hold
  stored value deadline hvalue := by
    simp only [ApiState.put, IdempotencyStore.values_set cfg.ttlSeconds_pos, hrequest,
      if_true] at hvalue
    cases hvalue
    rw [CreateCall.entry, hinput]
  own := h.own
  rows := h.rows
  unique := h.unique

theorem move (h : Repeated cfg request input before target s)
    (hposition : target.position = (input.row cfg.sha256).position)
    (hnew : (input.row cfg.sha256).position ∉ before.rows.map StreamRecord.position → target =
      ⟨input.row cfg.sha256, .active⟩) {current : CreateCall} (hcall : s.calls call = some current)
    {phase : CreatePhase} {table : StreamsTable} {store : IdempotencyStore}
    (hmove : Move cfg s current phase table store) :
    Repeated cfg request input before target (s.put table store call { current with phase }) := by
  obtain ⟨hrequest, hinput, hsound⟩ := h.calls call current hcall
  subst hinput
  -- what a lookup finds was stored by a repetition
  have hfound : ∀ value, s.store.get s.now current.request.fullKey = some value →
      value = .entry
        ⟨current.input.fingerprintInput cfg.sha256, 201, toApiStream target⟩ := by
    intro value hget
    obtain ⟨deadline, hvalue, _⟩ := IdempotencyStore.get_eq_some_iff.mp hget
    exact h.stored value deadline (hrequest ▸ hvalue)
  cases hmove with
  | busy _ hstored => cases hfound _ hstored
  | replay _ _ hstored =>
    cases hfound _ hstored
    exact h.put hrequest rfl (Or.inr (Or.inl rfl))
  | refuse _ _ hstored hother =>
    cases hfound _ hstored
    exact absurd rfl hother
  | miss => exact h.put hrequest rfl trivial
  | insert _ _ hfree hrows => exact h.insert hposition hnew hrequest rfl hfree hrows
  | conflict _ htaken =>
    obtain ⟨row, hrow, heq⟩ := List.mem_map.mp htaken
    have htarget := h.unique row hrow heq
    exact h.put hrequest rfl (htarget ▸ hrow)
  | idTaken _ _ hfree htaken => exact absurd (h.own.taken_of_id htaken) hfree
  | foundById row _ hrow =>
    have hmem := (StreamsTable.getById_eq_some_iff.mp hrow).1
    exact h.put hrequest rfl (h.unique row hmem (h.own.position_of_id hrow))
  | notById hphase =>
    rw [hphase] at hsound
    exact h.put hrequest rfl hsound
  | foundByEvent row _ hrow =>
    obtain ⟨hmem, heq⟩ := StreamsTable.mem_of_getByEvent hrow
    exact h.put hrequest rfl (h.unique row hmem heq)
  | notByEvent _ hphase habsent =>
    rw [hphase] at hsound
    exact absurd (List.mem_map.mpr ⟨target, hsound, hposition⟩)
      (StreamsTable.not_mem_of_getByEvent habsent)
  | store row hphase =>
    rw [hphase] at hsound
    rw [show row = target from hsound]
    exact h.store hrequest rfl

theorem step (h : Repeated cfg request input before target s)
    (hparsed : ∀ now, parseCreateStreamBody now request.body = .ok input)
    (hposition : target.position = (input.row cfg.sha256).position)
    (hnew : (input.row cfg.sha256).position ∉ before.rows.map StreamRecord.position →
      target = ⟨input.row cfg.sha256, .active⟩)
    {label : ApiLabel} (honly : OnlyRequest request s label)
    (hstep : apiStep cfg s label = some s') :
    Repeated cfg request input before target s' := by
  cases apiMove_of_step hstep with
  | tick => exact ⟨h.calls, h.stored, h.own, h.rows, h.unique⟩
  | refused => exact h
  | accepted _ _ _ _ hparsed' =>
    cases honly
    rw [hparsed] at hparsed'
    cases hparsed'
    exact h.put rfl rfl trivial
  | advance _ _ _ _ _ hcall hmove => exact h.move hposition hnew hcall hmove
  | updated | unchanged => exact honly.elim

end Repeated

variable {now : ℕ}

theorem honoursKey_of_carriesStartTime (cfg : CreateConfig) {body : Json}
    {input : ApiCreateStreamInput} (haccepted : parseCreateStreamBody now body = .ok input)
    (hstart : carriesStartTime body = true) : HonoursKey cfg body := by
  intro tenantId key start table store s hown hstore hrun
  have hparsed : ∀ later, parseCreateStreamBody later body = .ok input := by
    intro later
    rw [parseCreateStreamBody_at haccepted later, if_pos hstart]
  obtain ⟨target, hposition, hunique, hnew⟩ : ∃ target : StreamRecord,
      target.position = (input.row cfg.sha256).position ∧
      (∀ row ∈ table.rows, row.position = (input.row cfg.sha256).position → row = target) ∧
      ((input.row cfg.sha256).position ∉ table.rows.map StreamRecord.position →
        target = ⟨input.row cfg.sha256, .active⟩) := by
    by_cases htaken : (input.row cfg.sha256).position ∈ table.rows.map StreamRecord.position
    · obtain ⟨row, hrow, heq⟩ := List.mem_map.mp htaken
      refine ⟨row, heq, fun other hother heq' => ?_, fun hfree => absurd htaken hfree⟩
      exact List.inj_on_of_nodup_map table.positions hother hrow (heq'.trans heq.symm)
    · refine ⟨⟨input.row cfg.sha256, .active⟩, rfl, fun other hother heq => ?_, fun _ => rfl⟩
      exact absurd (List.mem_map.mpr ⟨other, hother, heq⟩) htaken
  have hpreserved : ∀ s label s',
      Repeated cfg ⟨tenantId, key, body⟩ input table target s →
      OnlyRequest ⟨tenantId, key, body⟩ s label → apiStep cfg s label = some s' →
      Repeated cfg ⟨tenantId, key, body⟩ input table target s' :=
    fun s label s' h honly hstep => h.step hparsed hposition hnew honly hstep
  have hinitial : Repeated cfg ⟨tenantId, key, body⟩ input table target
      (.start start table store) := by
    refine ⟨fun _ _ hcall => (by cases hcall), fun value deadline hvalue => ?_, hown, Or.inl rfl,
      hunique⟩
    exact absurd (hstore.symm.trans hvalue) (Option.some_ne_none _).symm
  have h := Reaches.invariant hpreserved hinitial hrun
  refine ⟨?_, answerable cfg s, toApiStream target, fun call current answer hcall hanswer => ?_⟩
  · rcases h.rows with hsame | hadded
    · rw [hsame]
      exact Nat.le_succ _
    · rw [hadded, List.length_append]
      exact Nat.le_refl _
  · have hsound := (h.calls call current hcall).2.2
    rw [hanswer] at hsound
    exact hsound

/-! ## Bodies without a start -/

variable {allowed : ApiState → ApiLabel → Prop}

theorem exists_both_missed (cfg : CreateConfig) {ms : ℕ} {request request' : CreateRequest}
    {first second : ApiCreateStreamInput}
    (hfirst : parseCreateStreamBody now request.body = .ok first)
    (hsecond : parseCreateStreamBody (now + ms) request'.body = .ok second)
    (hallowed : ∀ s label, label ∈ [ApiLabel.receive 0 request, .tick ms, .receive 1 request',
      .advance 0, .advance 1] → s.store = .empty → allowed s label) :
    ∃ s, Reaches (apiStep cfg) allowed (.start now .empty .empty) s ∧
      s.calls 0 = some ⟨request, first, .inserting⟩ ∧
      s.calls 1 = some ⟨request', second, .inserting⟩ ∧ s.table = .empty := by
  have hstart : Reaches (apiStep cfg) allowed (.start now .empty .empty)
    (.start now .empty .empty) := Reaches.refl _
  have hreceived := hstart.tail (hallowed _ (.receive 0 request) (by simp) rfl)
    (apiStep_receive rfl hfirst)
  have hticked := hreceived.tail (hallowed _ (.tick ms) (by simp) rfl) rfl
  have hboth := hticked.tail (hallowed _ (.receive 1 request') (by simp) rfl)
    (apiStep_receive rfl hsecond)
  have hmissed := hboth.tail (hallowed _ (.advance 0) (by simp) rfl) (apiStep_miss rfl rfl rfl)
  have hlast := hmissed.tail (hallowed _ (.advance 1) (by simp) rfl) (apiStep_miss rfl rfl rfl)
  exact ⟨_, hlast, rfl, rfl, rfl⟩

theorem exists_both_inserted (cfg : CreateConfig) {initial s : ApiState}
    {request request' : CreateRequest} {first second : ApiCreateStreamInput}
    (hrun : Reaches (apiStep cfg) allowed initial s)
    (hallowed : ∀ s call current, s.calls call = some current → current.phase = .inserting → allowed
      s (.advance call)) (hcallFirst : s.calls 0 = some ⟨request, first, .inserting⟩)
    (hcallSecond : s.calls 1 = some ⟨request', second, .inserting⟩) (htable : s.table = .empty)
    (hdistinct : (second.row cfg.sha256).position ≠ (first.row cfg.sha256).position) :
    ∃ s', Reaches (apiStep cfg) allowed initial s' ∧
      s'.calls 0 = some ⟨request, first, .storing ⟨first.row cfg.sha256, .active⟩⟩ ∧
      s'.calls 1 = some ⟨request', second, .storing ⟨second.row cfg.sha256, .active⟩⟩ ∧
      s'.table.rows =
        [⟨first.row cfg.sha256, .active⟩, ⟨second.row cfg.sha256, .active⟩] := by
  have hfreeFirst : (first.row cfg.sha256).position ∉ s.table.rows.map StreamRecord.position := by
    rw [htable]
    exact List.not_mem_nil
  obtain ⟨table, hinsert, hrows⟩ := apiStep_insert cfg hcallFirst rfl hfreeFirst
    (by rw [htable]; rfl)
  have hrun₁ := hrun.tail (hallowed _ _ _ hcallFirst rfl) hinsert
  rw [htable] at hrows
  have hrows₁ : table.rows = [⟨first.row cfg.sha256, .active⟩] := hrows
  have hcallSecond₁ : (s.put table s.store 0
      ⟨request, first, .storing ⟨first.row cfg.sha256, .active⟩⟩).calls 1 =
        some ⟨request', second, .inserting⟩ :=
    (ApiState.calls_put_of_ne Nat.one_ne_zero).trans hcallSecond
  obtain ⟨table', hinsert', hrows'⟩ := apiStep_insert cfg hcallSecond₁ rfl
    (by
      rw [show (s.put table s.store 0 _).table = table from rfl, hrows₁]
      exact fun hmem => hdistinct (List.mem_singleton.mp hmem))
    (by
      rw [StreamsTable.getById_eq_none_iff, show (s.put table s.store 0 _).table = table from rfl,
        hrows₁]
      exact fun hmem => hdistinct (position_row_of_id (List.mem_singleton.mp hmem)))
  have hrun₂ := hrun₁.tail (hallowed _ _ _ hcallSecond₁ rfl) hinsert'
  refine ⟨_, hrun₂, ?_, ApiState.calls_put_self _ _ _ _ _, ?_⟩
  · rw [ApiState.calls_put_of_ne Nat.zero_ne_one]
    exact s.calls_put_self _ _ _ _
  · rw [show (ApiState.put _ table' _ 1 _).table = table' from rfl, hrows',
      show (s.put table s.store 0 _).table = table from rfl, hrows₁]
    rfl

theorem exists_two_rows (cfg : CreateConfig) (hfree : Function.Injective cfg.sha256) {body : Json}
    {input : ApiCreateStreamInput} (haccepted : parseCreateStreamBody now body = .ok input)
    (hstart : carriesStartTime body = false) (tenantId key : String) :
    ∃ s, Reaches (apiStep cfg) (OnlyRequest ⟨tenantId, key, body⟩)
        (.start 999 .empty .empty) s ∧ s.table.rows.length = 2 := by
  have hparsed : ∀ later, parseCreateStreamBody later body =
      .ok { input with startTime := later / 1000 } := by
    intro later
    rw [parseCreateStreamBody_at haccepted later, hstart]
    rfl
  obtain ⟨first, hfirst⟩ : ∃ first : ApiCreateStreamInput,
      first = { input with startTime := 0 } := ⟨_, rfl⟩
  obtain ⟨second, hsecond⟩ : ∃ second : ApiCreateStreamInput,
      second = { input with startTime := 1 } := ⟨_, rfl⟩
  have hparsedFirst : parseCreateStreamBody 999 body = .ok first := hfirst ▸ hparsed 999
  have hparsedSecond : parseCreateStreamBody 1000 body = .ok second := hsecond ▸ hparsed 1000
  have hdistinct : (second.row cfg.sha256).position ≠ (first.row cfg.sha256).position := by
    intro hsame
    have hequal := ApiCreateStreamInput.position_row_inj hfree
      (plain_of_parseCreateStreamBody hparsedSecond)
      (plain_of_parseCreateStreamBody hparsedFirst) hsame
    rw [hfirst, hsecond] at hequal
    cases congrArg ApiCreateStreamInput.startTime hequal
  have hlookups : ∀ s label, label ∈ [ApiLabel.receive 0 ⟨tenantId, key, body⟩, .tick 1,
      .receive 1 ⟨tenantId, key, body⟩, .advance 0, .advance 1] → s.store = .empty →
      OnlyRequest ⟨tenantId, key, body⟩ s label := by
    intro s label hlabel hempty
    have hadvance : ∀ call, OnlyRequest ⟨tenantId, key, body⟩ s (.advance call) := by
      intro call _ _ _ value deadline hvalue
      rw [hempty] at hvalue
      cases hvalue
    simp only [List.mem_cons, List.not_mem_nil, or_false] at hlabel
    rcases hlabel with rfl | rfl | rfl | rfl | rfl
    · rfl
    · trivial
    · rfl
    · exact hadvance 0
    · exact hadvance 1
  obtain ⟨s, hrun, hcallFirst, hcallSecond, htable⟩ :=
    exists_both_missed cfg hparsedFirst hparsedSecond hlookups
  have hidle : ∀ s call current, s.calls call = some current → current.phase = .inserting →
      OnlyRequest ⟨tenantId, key, body⟩ s (.advance call) := by
    intro s call current hcall hinserting current' hcall' hreading
    cases hcall.symm.trans hcall'
    cases hinserting.symm.trans hreading
  obtain ⟨s', hrun', _, _, hrows⟩ :=
    exists_both_inserted cfg hrun hidle hcallFirst hcallSecond htable hdistinct
  refine ⟨s', hrun', ?_⟩
  rw [hrows]
  rfl

theorem not_honoursKey (cfg : CreateConfig) (hfree : Function.Injective cfg.sha256) {body : Json}
    {input : ApiCreateStreamInput} (haccepted : parseCreateStreamBody now body = .ok input)
    (hstart : carriesStartTime body = false) : ¬ HonoursKey cfg body := by
  intro hhonours
  obtain ⟨s, hrun, hrows⟩ := exists_two_rows cfg hfree haccepted hstart "tenant" "key"
  have hone := (hhonours "tenant" "key" 999 .empty .empty s
    (fun _ hrow => absurd hrow List.not_mem_nil) rfl hrun).1
  rw [hrows] at hone
  exact absurd hone (by decide)

end Fluxora.Streams
