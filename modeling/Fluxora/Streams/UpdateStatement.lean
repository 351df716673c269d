/-
# The generated update statement

`updateStream` writes its statement as text: one assignment for each field that is present, a
guard on the id and on the status that was read before, and the keys that decrypt the returned
addresses. All of them are parameters of one list, and each part of the statement has its own way
of counting them.

The statement is interpreted here parameter by parameter.
-/

import Fluxora.Lib.Placeholders
import Fluxora.Streams.Repository

namespace Fluxora.Streams

open Lib.Placeholders

/-! ## Columns and values -/

inductive SqlValue
  | text (value : String)
  | integer (value : ℤ)
  deriving DecidableEq

/-- The columns that an update may assign. -/
inductive Column
  | status
  | streamedAmount
  | remainingAmount
  | endTime

def StreamStatus.ofText : String → Option StreamStatus
  | "active" => some .active
  | "paused" => some .paused
  | "completed" => some .completed
  | "cancelled" => some .cancelled
  | _ => none

@[simp] theorem StreamStatus.ofText_text (status : StreamStatus) :
    StreamStatus.ofText status.text = some status := by
  cases status <;> rfl

theorem StreamStatus.text_injective : Function.Injective StreamStatus.text := by
  intro first second htext
  have hread := congrArg StreamStatus.ofText htext
  rw [ofText_text, ofText_text] at hread
  exact Option.some.inj hread

/-- Store a value in a column. A value of another type is an error. -/
def Column.put : Column → SqlValue → StreamRecord → Option StreamRecord
  | .status, .text value, row => (StreamStatus.ofText value).map ({ row with status := · })
  | .streamedAmount, .text value, row => some { row with streamedAmount := value }
  | .remainingAmount, .text value, row => some { row with remainingAmount := value }
  | .endTime, .integer value, row => some { row with endTime := value }
  | _, _, _ => none

/-! ## The statement -/

/-- The keys that decrypt stored addresses. -/
structure KeySet where
  current : String
  previous : Option String

/-- `UPDATE streams SET … WHERE id = $i AND status = $s RETURNING …`, with the numbers
of its parameters. The assignment of `updated_at` takes none. -/
structure UpdateStatement where
  clauses : List (Column × ℕ)
  idParam : ℕ
  statusParam : ℕ
  keyParam : ℕ
  previousKeyParam : Option ℕ
  values : List SqlValue

/-- The fields in the order in which they are looked at. -/
def UpdateStreamInput.fields (input : UpdateStreamInput) : List (Column × Option SqlValue) :=
  [(.status, input.status.map (SqlValue.text ·.text)),
   (.streamedAmount, input.streamedAmount.map .text),
   (.remainingAmount, input.remainingAmount.map .text),
   (.endTime, input.endTime.map .integer)]

/-- The statement for an update, guarded by the status that was read. -/
def updateStatement (id : String) (input : UpdateStreamInput) (current : StreamStatus)
    (keySet : KeySet) : UpdateStatement :=
  let built := Builder.collect input.fields
  let withId := built.values ++ [SqlValue.text id]
  let withStatus := withId ++ [SqlValue.text current.text]
  let keyIndex := withStatus.length + 1
  { clauses := built.clauses
    idParam := built.idx
    statusParam := withId.length + 1
    keyParam := keyIndex
    previousKeyParam := keySet.previous.map fun _ => keyIndex + 1
    values := withStatus ++ [SqlValue.text keySet.current] ++
      (keySet.previous.map SqlValue.text).toList }

namespace UpdateStatement

/-- The `WHERE` clause. -/
def selects (statement : UpdateStatement) (row : StreamRecord) : Bool :=
  parameter statement.values statement.idParam = some (.text row.id) ∧
    parameter statement.values statement.statusParam = some (.text row.status.text)

/-- The `SET` clause. -/
def set (statement : UpdateStatement) (row : StreamRecord) : Option StreamRecord :=
  applyClauses Column.put statement.values statement.clauses row

/-- Run the statement. A value that does not fit its column is an error, and so is a
result that violates a key. -/
def run (statement : UpdateStatement) (table : StreamsTable) :
    Except String (Option (StreamRecord × StreamsTable)) :=
  match table.rows.mapM fun row => if statement.selects row then statement.set row else row with
  | none => .error "invalid input syntax"
  | some rows =>
    match (table.rows.find? statement.selects).bind statement.set with
    | none => .ok none
    | some returned =>
      if h : (rows.map (·.id)).Nodup ∧ (rows.map StreamRecord.position).Nodup then
        .ok (some (returned, ⟨rows, h.1, h.2⟩))
      else .error "duplicate key value violates unique constraint"

end UpdateStatement

/-! ## What the statement does -/

variable (id : String) (input : UpdateStreamInput) (current : StreamStatus) (keySet : KeySet)

theorem updateStatement_parameters :
    let statement := updateStatement id input current keySet
    parameter statement.values statement.idParam = some (.text id) ∧
      parameter statement.values statement.statusParam = some (.text current.text) ∧
      parameter statement.values statement.keyParam = some (.text keySet.current) ∧
      statement.previousKeyParam.bind (parameter statement.values) =
        keySet.previous.map .text := by
  have hidx : (Builder.collect input.fields).idx =
      (Builder.collect input.fields).values.length + 1 := Builder.wellNumbered_collect _
  refine ⟨?_, ?_, ?_, ?_⟩
  · simp only [updateStatement, List.append_assoc, hidx]
    exact parameter_length_succ _ _ _
  · simp [updateStatement, parameter]
  · simp [updateStatement, parameter]
  · cases hprevious : keySet.previous with
    | none => simp [updateStatement, hprevious]
    | some previous =>
      have hlast := parameter_length_succ ((Builder.collect input.fields).values ++
        [SqlValue.text id] ++ [SqlValue.text current.text] ++ [SqlValue.text keySet.current])
          (SqlValue.text previous) []
      rw [List.length_append, List.length_singleton] at hlast
      simp only [updateStatement, hprevious, Option.map_some, Option.bind_some,
        Option.toList_some]
      exact hlast

variable (row : StreamRecord)

theorem selects_updateStatement :
    (updateStatement id input current keySet).selects row =
      decide (row.id = id ∧ row.status = current) := by
  obtain ⟨hid, hstatus, _⟩ := updateStatement_parameters id input current keySet
  unfold UpdateStatement.selects
  rw [hid, hstatus]
  apply decide_eq_decide.mpr
  rw [Option.some_inj, Option.some_inj, SqlValue.text.injEq, SqlValue.text.injEq,
    StreamStatus.text_injective.eq_iff, eq_comm, @eq_comm _ current]

theorem set_updateStatement :
    (updateStatement id input current keySet).set row = some (StreamsTable.assign input row) := by
  have hmeans := Builder.means_collect Column.put input.fields
    (SqlValue.text id :: SqlValue.text current.text :: SqlValue.text keySet.current ::
      (keySet.previous.map SqlValue.text).toList) row
  have hset : (updateStatement id input current keySet).set row =
      input.fields.foldlM (putField Column.put) row := by
    refine Eq.trans ?_ hmeans
    simp [UpdateStatement.set, updateStatement]
  rw [hset]
  obtain ⟨status, streamedAmount, remainingAmount, endTime⟩ := input
  cases status <;> cases streamedAmount <;> cases remainingAmount <;> cases endTime <;>
    simp [UpdateStreamInput.fields, putField, Column.put, StreamsTable.assign]

theorem run_updateStatement (table : StreamsTable) :
    (updateStatement id input current keySet).run table =
      table.guardedUpdate id current input := by
  have hselects : (updateStatement id input current keySet).selects =
      fun row => decide (row.id = id ∧ row.status = current) := by
    funext row
    exact selects_updateStatement id input current keySet row
  have hrow : (fun row => if (updateStatement id input current keySet).selects row then
      (updateStatement id input current keySet).set row else some row) =
      fun row => pure (StreamsTable.updateRow id current input row) := by
    funext row
    rw [selects_updateStatement, set_updateStatement, StreamsTable.updateRow]
    by_cases hmatch : row.id = id ∧ row.status = current <;> simp [hmatch]
  unfold UpdateStatement.run StreamsTable.guardedUpdate
  rw [hrow, hselects, List.mapM_pure]
  cases hfind : table.rows.find? fun row => decide (row.id = id ∧ row.status = current) with
  | none => rfl
  | some row =>
    have hids := table.ids
    have hpositions := table.positions
    rw [← StreamsTable.map_updateRow fun row =>
      (StreamsTable.updateRow_keys id current input row).1] at hids
    rw [← StreamsTable.map_updateRow fun row =>
      (StreamsTable.updateRow_keys id current input row).2] at hpositions
    simp only [Option.bind_some, set_updateStatement]
    exact dif_pos ⟨hids, hpositions⟩

end Fluxora.Streams
