/-
# Concurrent writers of the streams table

Status changes through the API, stream events and creates all reach the table through two
repository calls: an insert that yields to a row for the same event, and `updateStream`, which
reads the row, checks the transition on what it has read and then updates under the condition that
the status is still the one it has read.

Here any number of such calls run against one table. A call takes one statement at a time, and the
statements of different calls come in any order. A statement is answered, fails without effect, or
takes effect and loses its answer.
-/

import Fluxora.Lib.Transition
import Fluxora.Streams.EventService

namespace Fluxora.Streams

open Lib Lib.Statements Lib.Transition

/-! ## Calls -/

inductive CallResult
  | updated (row : StreamRecord)
  | upserted (created : Bool)
  /-- The transition is not declared, the race was lost or there is no such stream. -/
  | rejected (message : String)
  /-- The database has raised an error. -/
  | failed (message : String)

/-- Where a call is: the statement that comes next, with what it needs. -/
inductive Call
  | idle
  | reading (id : String) (input : UpdateStreamInput)
  | updating (id : String) (input : UpdateStreamInput) (current : StreamStatus)
  | checking (id : String) (current : StreamStatus)
  | inserting (input : CreateStreamInput)
  | finished (result : CallResult)

/-- The statement of a call, on the table as it is: the table afterwards and what the
call does next. -/
def Call.next (table : StreamsTable) : Call → Option (StreamsTable × Call)
  | .idle => none
  | .finished _ => none
  | .reading id input =>
    match table.getById id with
    | none => some (table, .finished (.rejected s!"Stream not found: {id}"))
    | some current =>
      match input.status.filter fun target =>
        !isValidStatusTransition current.status target with
      | some target =>
        some (table, .finished (.rejected (invalidTransitionMessage current.status target)))
      | none => some (table, .updating id input current.status)
  | .updating id input current =>
    match table.guardedUpdate id current input with
    | .ok (some (row, table')) => some (table', .finished (.updated row))
    | .ok none => some (table, .checking id current)
    | .error message => some (table, .finished (.failed message))
  | .checking id current =>
    if (table.getById id).isSome then
      let status := current.text
      some (table, .finished (.rejected
        (s!"Status conflict: stream {id} status changed concurrently from " ++
          s!"'{status}'. Precondition no longer holds.")))
    else some (table, .finished (.rejected s!"Stream not found after update: {id}"))
  | .inserting input =>
    match table.insert input with
    | .ok (some (_, table')) => some (table', .finished (.upserted true))
    -- the reads that follow a conflict change nothing
    | .ok none => some (table, .finished (.upserted false))
    | .error message => some (table, .finished (.failed message))

/-- What makes a call. -/
inductive Writer
  | update (id : String) (input : UpdateStreamInput)
  /-- `PATCH /api/streams/:id/status`, and `DELETE /api/streams/:id` as a cancellation. -/
  | status (id : String) (target : StreamStatus)
  /-- `POST /api/streams`. -/
  | create (input : CreateStreamInput)
  | event (event : StreamEvent)

/-- The call a writer makes. An update event without a field that counts makes none. -/
def Writer.call : Writer → Call
  | .update id input => .reading id input
  | .status id target => .reading id { status := some target }
  | .create input => .inserting input
  | .event (.created e) => .inserting e.input
  | .event (.updated e) => if e.update = {} then .idle else .reading e.streamId e.update
  | .event (.cancelled e) => .reading e.streamId { status := some .cancelled }

/-! ## The system -/

structure DatabaseState where
  table : StreamsTable
  calls : ℕ → Call

def DatabaseState.initial (table : StreamsTable) : DatabaseState := ⟨table, fun _ => .idle⟩

/-- The table after a statement of a call, and where the call is then. -/
def DatabaseState.put (s : DatabaseState) (table : StreamsTable) (call : ℕ) (next : Call) :
    DatabaseState :=
  ⟨table, fun other => if other = call then next else s.calls other⟩

@[simp] theorem DatabaseState.put_calls_self (s : DatabaseState) (table : StreamsTable)
    (call : ℕ) (next : Call) : (s.put table call next).calls call = next := if_pos rfl

variable {s s' : DatabaseState} {label : WriteLabel}

theorem DatabaseState.put_calls_of_ne {table : StreamsTable} {call other : ℕ} {next : Call}
    (hne : other ≠ call) :
    (s.put table call next).calls other = s.calls other := if_neg hne

inductive WriteLabel
  | begin (call : ℕ) (writer : Writer)
  /-- The next statement of the call is answered. -/
  | advance (call : ℕ)
  /-- The next statement fails without effect. -/
  | fail (call : ℕ) (message : String)
  /-- The next statement has its effect and its answer is lost. -/
  | lose (call : ℕ) (message : String)

def writeStep (s : DatabaseState) : WriteLabel → Option DatabaseState
  | .begin call writer =>
    match s.calls call with
    | .idle => some (s.put s.table call writer.call)
    | _ => none
  | .advance call =>
    ((s.calls call).next s.table).map fun (table, next) => s.put table call next
  | .fail call message =>
    ((s.calls call).next s.table).map fun _ => s.put s.table call (.finished (.failed message))
  | .lose call message =>
    ((s.calls call).next s.table).map fun (table, _) =>
      s.put table call (.finished (.failed message))

/-! ## What a statement can do to the table -/

/-- The ways in which a statement of a call changes the table. -/
inductive TableChange (call : Call) (before after : StreamsTable) : Prop
  | nothing (same : after = before)
  | updated (id : String) (change : UpdateStreamInput) (row : StreamRecord)
      (issued : call = .updating id change row.status)
      (found : before.getById id = some row)
      (valid : change.status.all (isValidStatusTransition row.status) = true)
      (rows : after.rows = before.rows.map (StreamsTable.updateRow id row.status change))
  | inserted (input : CreateStreamInput) (rows : after.rows = before.rows ++ [⟨input, .active⟩])

/-- The transition of a call that is about to update has been checked for the status it
is guarded by. -/
def Call.Checked : Call → Prop
  | .updating _ input current => input.status.all (isValidStatusTransition current) = true
  | _ => True

/-- One statement: it changes the table in one of these ways, and only a call that is
then finished with a success changes it. -/
structure Statement (call : Call) (table table' : StreamsTable) (next : Call) : Prop where
  change : TableChange call table table'
  checked : next.Checked
  success : table' ≠ table → ∃ result, next = .finished result ∧ ∀ message,
    result ≠ .rejected message

theorem Statement.quiet {call next : Call} {table : StreamsTable} (hchecked : next.Checked) :
    Statement call table table next :=
  ⟨.nothing rfl, hchecked, fun h => absurd rfl h⟩

theorem Call.next_statement {table table' : StreamsTable} {call next : Call}
    (hchecked : call.Checked) (hnext : call.next table = some (table', next)) :
    Statement call table table' next := by
  cases call with
  | idle | finished => cases hnext
  | reading =>
    simp only [Call.next] at hnext
    split at hnext
    · cases hnext
      exact Statement.quiet trivial
    · split at hnext
      · cases hnext
        exact Statement.quiet trivial
      · rename_i hvalid
        cases hnext
        exact Statement.quiet (filter_invalid_eq_none_iff.mp hvalid)
  | updating id input current =>
    simp only [Call.next] at hnext
    rcases table.guardedUpdate_cases id current input with
      ⟨row, written, hfound, hstatus, hanswer, hrows⟩ | ⟨_, hanswer⟩
    · rw [hanswer] at hnext
      cases hnext
      refine ⟨.updated id input row (hstatus ▸ rfl) hfound (hstatus ▸ hchecked)
        (hstatus ▸ hrows), trivial, ?_⟩
      exact fun _ => ⟨_, rfl, fun _ => CallResult.noConfusion⟩
    · rw [hanswer] at hnext
      cases hnext
      exact Statement.quiet trivial
  | checking =>
    simp only [Call.next] at hnext
    split_ifs at hnext
    · cases hnext
      exact Statement.quiet trivial
    · cases hnext
      exact Statement.quiet trivial
  | inserting input =>
    simp only [Call.next] at hnext
    split at hnext
    · rename_i row written hinsert
      cases hnext
      refine ⟨.inserted input (StreamsTable.rows_of_insert hinsert), trivial, ?_⟩
      exact fun _ => ⟨_, rfl, fun _ => CallResult.noConfusion⟩
    · cases hnext
      exact Statement.quiet trivial
    · cases hnext
      exact Statement.quiet trivial

/-- The update that a call issues changes a row, and its transition has been checked. -/
structure RowChange (call : Call) (id : String) (row row' : StreamRecord)
    (change : UpdateStreamInput) : Prop where
  issued : call = .updating id change row.status
  valid : change.status.all (isValidStatusTransition row.status) = true
  assigned : row' = StreamsTable.assign change row

variable {id : String}

theorem TableChange.row {call : Call} {before after : StreamsTable}
    (h : TableChange call before after) {row : StreamRecord} (hrow : before.getById id = some row) :
    ∃ row', after.getById id = some row' ∧
      (row' = row ∨ ∃ change, RowChange call id row row' change) := by
  cases h with
  | nothing hsame => exact ⟨row, hsame ▸ hrow, Or.inl rfl⟩
  | updated key change target hissued hfound hvalid hrows =>
    have hafter := StreamsTable.getById_of_rows_map hrows id
    rw [hrow, Option.map_some] at hafter
    refine ⟨_, hafter, ?_⟩
    by_cases hkey : row.id = key
    · have hid := (StreamsTable.getById_eq_some_iff.mp hrow).2
      have hsame : target = row := by
        rw [← hid, hkey, hfound] at hrow
        exact Option.some.inj hrow
      rw [hsame] at hvalid hissued ⊢
      exact Or.inr ⟨change, hid ▸ hkey ▸ hissued, hvalid, if_pos ⟨hkey, rfl⟩⟩
    · exact Or.inl (if_neg fun hboth => hkey hboth.1)
  | inserted _ hrows =>
    refine ⟨row, ?_, Or.inl rfl⟩
    rw [StreamsTable.getById, hrows, List.find?_append]
    exact congrArg (Option.or · _) hrow

/-! ## What a step can do -/

/-- The call a step belongs to. -/
def WriteLabel.call : WriteLabel → ℕ
  | .begin call _ => call
  | .advance call => call
  | .fail call _ => call
  | .lose call _ => call

/-- The statement of the step has its effect. -/
def WriteLabel.takesEffect : WriteLabel → Bool
  | .advance _ => true
  | .lose _ _ => true
  | _ => false

/-- Every call that is about to update has been checked. -/
def CallsChecked (s : DatabaseState) : Prop := ∀ call, (s.calls call).Checked

theorem Writer.call_checked (writer : Writer) : writer.call.Checked := by
  cases writer with
  | update | status | create => trivial
  | event event =>
    cases event with
    | created | cancelled => trivial
    | updated =>
      rw [Writer.call]
      split_ifs
      · trivial
      · trivial

theorem writeStep_put (hchecked : CallsChecked s) (hstep : writeStep s label = some s') :
    ∃ table next, s' = s.put table label.call next ∧
      Statement (s.calls label.call) s.table table next ∧
      (label.takesEffect = false → table = s.table) ∧
      ∀ result, s.calls label.call ≠ .finished result := by
  -- a statement of the call, whose answer may be replaced by an error
  have hstatement : ∀ {call : ℕ} {table : StreamsTable} {next : Call},
      (s.calls call).next s.table = some (table, next) →
      Statement (s.calls call) s.table table next ∧
        ∀ result, s.calls call ≠ .finished result := by
    intro call table next hnext
    refine ⟨Call.next_statement (hchecked call) hnext, fun result hfinished => ?_⟩
    rw [hfinished] at hnext
    cases hnext
  cases label with
  | begin _ writer =>
    simp only [writeStep] at hstep
    split at hstep
    · rename_i hidle
      cases hstep
      refine ⟨_, _, rfl, Statement.quiet writer.call_checked, fun _ => rfl,
        fun result hfinished => ?_⟩
      rw [WriteLabel.call, hidle] at hfinished
      cases hfinished
    · cases hstep
  | advance =>
    obtain ⟨⟨table, next⟩, hnext, hput⟩ := Option.map_eq_some_iff.mp hstep
    exact ⟨table, next, hput.symm, (hstatement hnext).1, fun h => (by cases h),
      (hstatement hnext).2⟩
  | fail =>
    obtain ⟨⟨table, next⟩, hnext, hput⟩ := Option.map_eq_some_iff.mp hstep
    exact ⟨s.table, _, hput.symm, Statement.quiet trivial, fun _ => rfl, (hstatement hnext).2⟩
  | lose =>
    obtain ⟨⟨table, next⟩, hnext, hput⟩ := Option.map_eq_some_iff.mp hstep
    refine ⟨table, _, hput.symm, ⟨(hstatement hnext).1.change, trivial, ?_⟩,
      fun h => (by cases h), (hstatement hnext).2⟩
    exact fun _ => ⟨_, rfl, fun _ => CallResult.noConfusion⟩

theorem CallsChecked.step (h : CallsChecked s)
    (hstep : writeStep s label = some s') : CallsChecked s' := by
  obtain ⟨table, next, hput, hstatement, _⟩ := writeStep_put h hstep
  rw [hput]
  intro call
  by_cases hcall : call = label.call
  · rw [hcall, DatabaseState.put_calls_self]
    exact hstatement.checked
  · rw [DatabaseState.put_calls_of_ne hcall]
    exact h call

theorem CallsChecked.initial (table : StreamsTable) : CallsChecked (.initial table) :=
  fun _ => trivial

theorem writeStep_row (hchecked : CallsChecked s) (hstep : writeStep s label = some s')
    {row : StreamRecord} (hrow : s.table.getById id = some row) :
    ∃ row', s'.table.getById id = some row' ∧
      (row' = row ∨ label.takesEffect = true ∧
        ∃ change, RowChange (s.calls label.call) id row row' change) := by
  obtain ⟨table, next, hput, hstatement, hquiet, _⟩ := writeStep_put hchecked hstep
  rw [hput]
  cases heffect : label.takesEffect with
  | false => exact ⟨row, (hquiet heffect).symm ▸ hrow, Or.inl rfl⟩
  | true =>
    obtain ⟨row', hafter, hsame | hchange⟩ := hstatement.change.row hrow
    · exact ⟨row', hafter, Or.inl hsame⟩
    · exact ⟨row', hafter, Or.inr ⟨rfl, hchange⟩⟩

theorem finished_step (hchecked : CallsChecked s) (hstep : writeStep s label = some s') {call : ℕ}
    {result : CallResult}
    (hfinished : s.calls call = .finished result) : s'.calls call = .finished result := by
  obtain ⟨table, next, hput, _, _, hopen⟩ := writeStep_put hchecked hstep
  have hother : call ≠ label.call := fun hsame => hopen result (hsame ▸ hfinished)
  rw [hput, DatabaseState.put_calls_of_ne hother, hfinished]

/-! ## Safety of the statuses -/

/-- What is promised of a step from `u` to `v` in a run that goes on to `w`. -/
structure StatusSafe (u : DatabaseState) (label : WriteLabel) (v w : DatabaseState) : Prop where
  /-- A row whose status changes takes a declared transition. -/
  edge : ∀ id row, u.table.getById id = some row → ∃ row', v.table.getById id = some row' ∧
    (row'.status ≠ row.status → isValidStatusTransition row.status row'.status = true)
  /-- A terminal status is not left. -/
  terminal : ∀ id row, u.table.getById id = some row → isTerminalStatus row.status = true →
    ∃ row', w.table.getById id = some row' ∧ row'.status = row.status
  /-- No statement of a call that is rejected in the end changes the table. -/
  rejected : ∀ message, w.calls label.call = .finished (.rejected message) → v.table = u.table

theorem edge_step (hchecked : CallsChecked s) (hstep : writeStep s label = some s')
    {row : StreamRecord} (hrow : s.table.getById id = some row) :
    ∃ row', s'.table.getById id = some row' ∧
      (row'.status ≠ row.status → isValidStatusTransition row.status row'.status = true) := by
  obtain ⟨row', hafter, hsame | ⟨_, change, _, hvalid, hassign⟩⟩ :=
    writeStep_row hchecked hstep hrow
  · exact ⟨row', hafter, fun hne => absurd (hsame ▸ rfl) hne⟩
  · refine ⟨row', hafter, fun hne => ?_⟩
    have hstatus : row'.status = change.status.getD row.status := hassign ▸ rfl
    cases hchange : change.status with
    | none =>
      rw [hchange] at hstatus
      exact absurd hstatus hne
    | some =>
      rw [hchange] at hstatus hvalid
      rw [hstatus]
      exact hvalid

theorem terminal_reaches {u w : DatabaseState} (hchecked : CallsChecked u)
    (hrun : Reaches writeStep (fun _ _ => True) u w) {row : StreamRecord}
    (hrow : u.table.getById id = some row) (hterminal : isTerminalStatus row.status = true) :
    ∃ row', w.table.getById id = some row' ∧ row'.status = row.status := by
  have hpreserved : ∀ (s : DatabaseState) (label : WriteLabel) (s' : DatabaseState),
      (CallsChecked s ∧ ∃ row', s.table.getById id = some row' ∧ row'.status = row.status) →
      True → writeStep s label = some s' →
      CallsChecked s' ∧ ∃ row', s'.table.getById id = some row' ∧ row'.status = row.status := by
    rintro s label s' ⟨hchecked, current, hcurrent, hstatus⟩ _ hstep
    obtain ⟨next, hnext, hedge⟩ := edge_step hchecked hstep hcurrent
    refine ⟨hchecked.step hstep, next, hnext, ?_⟩
    -- the edge would start in a terminal status
    by_contra hne
    have hvalid := hedge fun h => hne (h.trans hstatus)
    rw [hstatus, not_valid_of_terminal hterminal] at hvalid
    cases hvalid
  exact (Reaches.invariant hpreserved ⟨hchecked, row, hrow, rfl⟩ hrun).2

theorem rejected_step {u v w : DatabaseState} (hchecked : CallsChecked u)
    (hstep : writeStep u label = some v) (hrun : Reaches writeStep (fun _ _ => True) v w)
    {message : String} (hrejected : w.calls label.call = .finished (.rejected message)) :
    v.table = u.table := by
  obtain ⟨table, next, hput, hstatement, _⟩ := writeStep_put hchecked hstep
  by_contra hchanged
  rw [hput] at hchanged
  obtain ⟨result, hfinished, hresult⟩ := hstatement.success hchanged
  have hcall : v.calls label.call = .finished result := by
    rw [hput, DatabaseState.put_calls_self, hfinished]
  have hpreserved : ∀ (s : DatabaseState) (next : WriteLabel) (s' : DatabaseState),
      (CallsChecked s ∧ s.calls label.call = .finished result) → True →
      writeStep s next = some s' → CallsChecked s' ∧ s'.calls label.call = .finished result :=
    fun s _ s' hinv _ hnext => ⟨hinv.1.step hnext, finished_step hinv.1 hnext hinv.2⟩
  have hkept := (Reaches.invariant hpreserved ⟨hchecked.step hstep, hcall⟩ hrun).2
  rw [hkept] at hrejected
  exact hresult message (Call.finished.inj hrejected)

/-- However the statements of any calls are interleaved, a status changes along the
declared transitions only, a terminal status is kept, and a rejected call has changed
nothing. -/
theorem status_safety (table : StreamsTable) {u v w : DatabaseState} {label : WriteLabel}
    (hreach : Reaches writeStep (fun _ _ => True) (.initial table) u)
    (hstep : writeStep u label = some v) (hrun : Reaches writeStep (fun _ _ => True) v w) :
    StatusSafe u label v w := by
  have hchecked : CallsChecked u :=
    Reaches.invariant (fun _ _ _ h _ hnext => h.step hnext) (CallsChecked.initial table) hreach
  have hlater : Reaches writeStep (fun _ _ => True) u w :=
    ((Reaches.refl u).tail trivial hstep).trans hrun
  constructor
  · exact fun id row hrow => edge_step hchecked hstep hrow
  · exact fun id row hrow hterminal => terminal_reaches hchecked hlater hrow hterminal
  · exact fun message hrejected => rejected_step hchecked hstep hrun hrejected

/-- Two calls read an active stream, the first one pauses it, and the second one, which
was to complete it, loses the race. -/
theorem status_safety_race :
    ∃ u v w, Reaches writeStep (fun _ _ => True) (.initial (.single streamSample)) u ∧
      writeStep u (.advance 1) = some v ∧ Reaches writeStep (fun _ _ => True) v w ∧
      (w.table.getById "ab-0").map (·.status) = some .paused ∧
      StatusSafe u (.advance 1) v w := by
  have hreach := Reaches.of_run (fun _ _ _ => trivial)
    (show run writeStep (.initial (.single streamSample))
      [.begin 0 (.status "ab-0" .paused), .begin 1 (.status "ab-0" .completed), .advance 0,
        .advance 1, .advance 0] = some _ from rfl)
  refine ⟨_, _, _, hreach, rfl, (Reaches.refl _).tail trivial
    (show writeStep _ (.advance 1) = some _ from rfl), rfl, ?_⟩
  exact status_safety _ hreach rfl ((Reaches.refl _).tail trivial
    (show writeStep _ (.advance 1) = some _ from rfl))

/-! ## A call on its own -/

/-- How the repository's answer ends a call. -/
def CallResult.ofAnswer : Except String StreamRecord → CallResult
  | .ok row => .updated row
  | .error message => .rejected message

theorem updateStream_alone {session : Session StreamsTable} {call : ℕ} {input : UpdateStreamInput}
    (hhealthy : session.Healthy) (hstore : session.store = s.table)
    (hcall : s.calls call = .reading id input) :
    ∃ n s', run writeStep s (List.replicate n (.advance call)) = some s' ∧
      s'.table = (updateStream id input session).2.store ∧
      s'.calls call = .finished (.ofAnswer (updateStream id input session).1) := by
  have hadvance : ∀ {s : DatabaseState} {table : StreamsTable} {next : Call},
      (s.calls call).next s.table = some (table, next) →
      writeStep s (.advance call) = some (s.put table call next) := by
    intro s table next hnext
    simp [writeStep, hnext]
  unfold updateStream
  rw [query_bind_healthy hhealthy, hstore]
  cases hcurrent : s.table.getById id with
  | none =>
    have hread : (s.calls call).next s.table =
        some (s.table, .finished (.rejected s!"Stream not found: {id}")) := by
      simp only [hcall, Call.next, hcurrent]
    exact ⟨1, _, run_cons (hadvance hread) [], hstore.symm, s.put_calls_self _ _ _⟩
  | some current =>
    dsimp only
    cases hinvalid : input.status.filter fun target =>
        !isValidStatusTransition current.status target with
    | some target =>
      have hread : (s.calls call).next s.table = some (s.table,
          .finished (.rejected (invalidTransitionMessage current.status target))) := by
        simp only [hcall, Call.next, hcurrent, hinvalid]
      exact ⟨1, _, run_cons (hadvance hread) [], hstore.symm, s.put_calls_self _ _ _⟩
    | none =>
      dsimp only
      have hread : (s.calls call).next s.table =
          some (s.table, .updating id input current.status) := by
        simp only [hcall, Call.next, hcurrent, hinvalid]
      -- nobody else has written, so the guard still holds
      rcases s.table.guardedUpdate_cases id current.status input with
        ⟨row, table, _, _, hanswer, _⟩ | ⟨hother, _⟩
      · have hupdate :
            ((s.put s.table call (.updating id input current.status)).calls call).next s.table =
              some (table, .finished (.updated (StreamsTable.assign input row))) := by
          simp only [DatabaseState.put_calls_self, Call.next, hanswer]
        rw [execute_bind_healthy hhealthy.issue,
          show session.issue.store = s.table from hstore, hanswer]
        exact ⟨2, _, (run_cons (hadvance hread) _).trans (run_cons (hadvance hupdate) []),
          rfl, DatabaseState.put_calls_self _ _ _ _⟩
      · exact absurd rfl (hother current hcurrent)

theorem updateStream_alone_sample :
    ∃ n s', run writeStep ⟨.single streamSample,
        fun _ => .reading "ab-0" { status := some .paused }⟩
        (List.replicate n (.advance 0)) = some s' ∧
      (s'.table.getById "ab-0").map (·.status) = some .paused := by
  obtain ⟨n, s', hrun, htable, _⟩ := @updateStream_alone ⟨.single streamSample,
    fun _ => .reading "ab-0" { status := some .paused }⟩ "ab-0" (.start (.single streamSample) [])
      0 _ rfl rfl rfl
  exact ⟨n, s', hrun, by rw [htable]; rfl⟩

end Fluxora.Streams
