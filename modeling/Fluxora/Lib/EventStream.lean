/-
# Event streams

The text format of server-sent events, read by the rules of the HTML standard. A stream is a
sequence of lines, ended in one of three ways. A line sets a field, and an empty line dispatches
the event that the fields before it describe. What comes after the last empty line is discarded.
-/

import Mathlib.Data.List.Basic

namespace Fluxora.Lib.EventStream

/-! ## Lines -/

/-- The lines that have been ended, given the part of the first line that has been read. -/
def linesFrom : List Char → List Char → List (List Char)
  | _, [] => []
  | line, '\r' :: '\n' :: rest => line :: linesFrom [] rest
  | line, '\r' :: rest => line :: linesFrom [] rest
  | line, '\n' :: rest => line :: linesFrom [] rest
  | line, c :: rest => linesFrom (line ++ [c]) rest

/-- A byte order mark at the start does not count. -/
def dropByteOrderMark : List Char → List Char
  | c :: rest => if c.toNat = 0xFEFF then rest else c :: rest
  | [] => []

def lines (text : List Char) : List (List Char) := linesFrom [] (dropByteOrderMark text)

/-! ## Fields -/

structure Event where
  type : List Char
  data : List Char
  lastEventId : List Char
  deriving DecidableEq

/-- The buffers, and the events that have been dispatched. -/
structure Reader where
  type : List Char := []
  data : List Char := []
  lastEventId : List Char := []
  events : List Event := []

/-- The name of a field and its value, without the one space after the colon. -/
def fieldOf (line : List Char) : List Char × List Char :=
  let value := (line.dropWhile (· ≠ ':')).drop 1
  (line.takeWhile (· ≠ ':'), if value.head? = some ' ' then value.drop 1 else value)

namespace Reader

variable (reader : Reader)

/-- Fields with other names, `retry` among them, have nothing to do with events. -/
def process (name value : List Char) : Reader :=
  if name = ['e', 'v', 'e', 'n', 't'] then { reader with type := value }
  else if name = ['d', 'a', 't', 'a'] then
    { reader with data := reader.data ++ value ++ ['\n'] }
  else if name = ['i', 'd'] then
    if value.any (·.toNat = 0) then reader else { reader with lastEventId := value }
  else reader

/-- An event without data is none. The identifier stays for the events to come. -/
def dispatch : Reader :=
  if reader.data = [] then { reader with type := [], data := [] }
  else
    { reader with
      type := []
      data := []
      events := reader.events ++
        [{ type := if reader.type = [] then ['m', 'e', 's', 's', 'a', 'g', 'e'] else reader.type
           data := reader.data.dropLast
           lastEventId := reader.lastEventId }] }

def read (line : List Char) : Reader :=
  if line = [] then reader.dispatch
  else if line.head? = some ':' then reader
  else reader.process (fieldOf line).1 (fieldOf line).2

end Reader

/-- The events of a stream that has ended. -/
def parse (text : List Char) : List Event := ((lines text).foldl Reader.read {}).events

/-! ## Lines that are ended by a line feed -/

/-- A text within a line. -/
def Within (text : List Char) : Prop := ∀ c ∈ text, c ≠ '\r' ∧ c ≠ '\n'

instance : DecidablePred Within := fun text => List.decidableBAll _ text

theorem Within.append {text text' : List Char} (h : Within text) (h' : Within text') :
    Within (text ++ text') := List.forall_mem_append.mpr ⟨h, h'⟩

theorem linesFrom_append {line : List Char} (h : Within line) (front rest : List Char) :
    linesFrom front (line ++ '\n' :: rest) = (front ++ line) :: linesFrom [] rest := by
  induction line generalizing front with
  | nil => rw [List.nil_append, List.append_nil, linesFrom]
  | cons _ _ ih =>
    obtain ⟨⟨hreturn, hfeed⟩, hline⟩ := List.forall_mem_cons.mp h
    rw [List.cons_append, linesFrom, ih hline, List.append_assoc]
    · rfl
    all_goals simp [hreturn, hfeed]

/-! ## Fields in a line -/

/-- A line with the name of a field and its value. -/
def fieldLine (name value : List Char) : List Char := name ++ ':' :: ' ' :: value

variable {name : List Char}

theorem fieldOf_fieldLine (h : ':' ∉ name) (value : List Char) :
    fieldOf (fieldLine name value) = (name, value) := by
  have hname : ∀ c ∈ name, decide (c ≠ ':') = true := fun c hc =>
    decide_eq_true (ne_of_mem_of_not_mem hc h)
  have hbefore : (fieldLine name value).takeWhile (· ≠ ':') = name := by
    rw [fieldLine, List.takeWhile_append_of_pos hname]
    simp
  have hafter : (fieldLine name value).dropWhile (· ≠ ':') = ':' :: ' ' :: value := by
    rw [fieldLine, List.dropWhile_append_of_pos hname]
    simp
  simp only [fieldOf, hbefore, hafter]
  rfl

theorem Reader.read_fieldLine (reader : Reader) (hne : name ≠ []) (h : ':' ∉ name)
    (value : List Char) : reader.read (fieldLine name value) = reader.process name value := by
  cases name with
  | nil => exact absurd rfl hne
  | cons c name =>
    have hcolon : c ≠ ':' := fun heq => h (heq ▸ List.mem_cons_self)
    have hline : fieldLine (c :: name) value ≠ [] := List.cons_ne_nil _ _
    rw [Reader.read, fieldOf_fieldLine h, if_neg hline, if_neg]
    simpa [fieldLine] using hcolon

/-! ## A frame -/

/-- An identifier, a type and one line of data. -/
def frame (id type data : List Char) : List Char :=
  fieldLine ['i', 'd'] id ++ '\n' :: (fieldLine ['e', 'v', 'e', 'n', 't'] type ++
    '\n' :: (fieldLine ['d', 'a', 't', 'a'] data ++ ['\n', '\n']))

theorem Within.fieldLine {value : List Char} (hname : Within name) (hvalue : Within value) :
    Within (EventStream.fieldLine name value) :=
  hname.append (List.forall_mem_cons.mpr
    ⟨by decide, List.forall_mem_cons.mpr ⟨by decide, hvalue⟩⟩)

theorem lines_frame {id type data : List Char} (hid : Within id) (htype : Within type)
    (hdata : Within data) :
    lines (frame id type data) =
      [fieldLine ['i', 'd'] id, fieldLine ['e', 'v', 'e', 'n', 't'] type,
        fieldLine ['d', 'a', 't', 'a'] data, []] := by
  have hidName : Within ['i', 'd'] := by decide
  have htypeName : Within ['e', 'v', 'e', 'n', 't'] := by decide
  have hdataName : Within ['d', 'a', 't', 'a'] := by decide
  have hmark : dropByteOrderMark (frame id type data) = frame id type data := rfl
  rw [lines, hmark, frame, linesFrom_append (hidName.fieldLine hid),
    linesFrom_append (htypeName.fieldLine htype), linesFrom_append (hdataName.fieldLine hdata)]
  rfl

theorem parse_frame {id type data : List Char} (hid : Within id) (htype : Within type)
    (hdata : Within data) (hnul : ∀ c ∈ id, c.toNat ≠ 0) (hne : type ≠ []) :
    parse (frame id type data) = [⟨type, data, id⟩] := by
  have hvalue : id.any (fun c => c.toNat = 0) = false := by
    simpa using hnul
  have hread : ∀ (reader : Reader) (name value : List Char), name ≠ [] → ':' ∉ name →
      reader.read (fieldLine name value) = reader.process name value :=
    fun reader _ value hname hcolon => reader.read_fieldLine hname hcolon value
  rw [parse, lines_frame hid htype hdata, List.foldl_cons, List.foldl_cons, List.foldl_cons,
    List.foldl_cons, List.foldl_nil, hread _ _ _ (by decide) (by decide),
    hread _ _ _ (by decide) (by decide), hread _ _ _ (by decide) (by decide)]
  simp [Reader.read, Reader.process, Reader.dispatch, hvalue, hne]

end Fluxora.Lib.EventStream
