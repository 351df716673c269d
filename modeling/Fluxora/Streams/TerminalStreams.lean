/-
# Terminal streams

A stream that is completed or cancelled is taken to be immutable, and responses that show only
such streams are handed to public caches. The status of such a row is safe. Its amounts and its
end are not: an update that carries no status is not checked at all, and it is guarded by the
status it has read, terminal or not.
-/

import Fluxora.Serialization.Stream
import Fluxora.Streams.Writers

namespace Fluxora.Streams

open Lib.Transition Serialization

/-- The statement that the call issues next does not update a terminal row with other
amounts or another end. -/
def SparesTerminal (s : DatabaseState) (call : ℕ) : Prop :=
  ∀ id input current row, s.calls call = .updating id input current →
    s.table.getById id = some row → row.status = current → isTerminalStatus current = true →
    input.Repeats row

/-- No statement that takes effect updates a terminal row with anything new. -/
def TerminalSpared (s : DatabaseState) (label : WriteLabel) : Prop :=
  label.takesEffect = true → SparesTerminal s label.call

/-- What is promised between two states of a run: a terminal row stays, and what was
marked publicly cacheable is still what the API shows. -/
structure TerminalKept (u w : DatabaseState) : Prop where
  row : ∀ id row, u.table.getById id = some row → isTerminalStatus row.status = true →
    w.table.getById id = some row
  cached : ∀ rows : List StreamRecord, (∀ row ∈ rows, row ∈ u.table.rows) →
    streamCacheControl (rows.map (·.status)) = cacheableStreamHeaders →
    ∀ row ∈ rows, (w.table.getById row.id).map toApiStream = some (toApiStream row)

theorem terminal_step {s s' : DatabaseState} {label : WriteLabel} (hchecked : CallsChecked s)
    (hspared : TerminalSpared s label) (hstep : writeStep s label = some s') {id : String}
    {row : StreamRecord} (hrow : s.table.getById id = some row)
    (hterminal : isTerminalStatus row.status = true) : s'.table.getById id = some row := by
  obtain ⟨row', hafter, hsame | ⟨heffect, change, hissued, hvalid, hassigned⟩⟩ :=
    writeStep_row hchecked hstep hrow
  · rw [hafter, hsame]
  · have hstatus : change.status = none := by
      cases hcarried : change.status with
      | none => rfl
      | some target =>
        have hdeclared : isValidStatusTransition row.status target = true := by
          simpa [hcarried] using hvalid
        rw [not_valid_of_terminal hterminal] at hdeclared
        cases hdeclared
    have hrepeats := hspared heffect id change row.status row hissued hrow rfl hterminal
    rw [hafter, hassigned, assign_eq_self hstatus hrepeats]

theorem terminal_row_reaches {u w : DatabaseState} (hchecked : CallsChecked u)
    (hrun : Reaches writeStep TerminalSpared u w) {id : String} {row : StreamRecord}
    (hrow : u.table.getById id = some row) (hterminal : isTerminalStatus row.status = true) :
    w.table.getById id = some row := by
  have hpreserved : ∀ (s : DatabaseState) (label : WriteLabel) (s' : DatabaseState),
      (CallsChecked s ∧ s.table.getById id = some row) → TerminalSpared s label →
      writeStep s label = some s' → CallsChecked s' ∧ s'.table.getById id = some row :=
    fun s label s' hinv hspared hstep =>
      ⟨hinv.1.step hstep, terminal_step hinv.1 hspared hstep hinv.2 hterminal⟩
  exact (Reaches.invariant hpreserved ⟨hchecked, hrow⟩ hrun).2

/-- A cancelled stream, and an event that says how much of it was streamed. -/
def cancelledSample : StreamRecord := { streamSample with status := .cancelled }

theorem isHexDigit_streamedSample : "cd".toList.all isHexDigit = true := rfl

def streamedSample : StreamEvent :=
  .updated ⟨"C", ⟨"cd", isHexDigit_streamedSample⟩, 1, "ab-0", some "5", none, none, none⟩

end Fluxora.Streams
