/-
# Replaying a dead-letter entry

The handler of a replay request reads the entry and the suspension of its topic, marks the entry
as replayed, and then records the outcome that the caller has reported: a failure is appended to
the history of the entry and counted for the topic, and everything else counts as a success. Each
of these is a statement of its own, and other requests run in between.
-/

import Fluxora.Dlq.Entries
import Fluxora.Dlq.Suspension
import Fluxora.Lib.Transition

namespace Fluxora.Dlq

open Lib.JsText Lib.Transition

/-! ## The request -/

def unreportedReplayFailure : String := "replay failed (reason not reported)"

def maxFailureErrorLength : ℕ := 2000

/-- The characters of a text that fit into a number of code units. -/
def sliceUnits : ℕ → List Char → List Char
  | _, [] => []
  | units, c :: rest =>
    let size := (codeUnits [c]).length
    if size ≤ units then c :: sliceUnits (units - size) rest else []

/-- The `error` of a body: missing or null, a string, or something else. -/
inductive ReportedError
  | absent
  | text (error : String)
  | other
  deriving DecidableEq

/-- `normalizeFailureError` -/
def normalizeFailureError : ReportedError → Option String
  | .text error =>
    let trimmed := trim error.toList
    if trimmed = [] then none
    else some (String.ofList (sliceUnits maxFailureErrorLength trimmed))
  | _ => none

/-- The characters that `encodeURIComponent` leaves alone. -/
def isUnreserved (c : Char) : Bool :=
  (c.isAlphanum && c.toNat < 128) || "-_.!~*'()".toList.contains c

def encodeURIComponent (text : String) : String :=
  String.ofList (text.toList.flatMap fun c =>
    if isUnreserved c then [c]
    else (String.utf8EncodeChar c).flatMap fun byte =>
      '%' :: [Nat.digitChar (byte.toNat / 16), Nat.digitChar (byte.toNat % 16)].map Char.toUpper)

inductive ReplayResponse
  | notFound (message : String)
  | consumerSuspended (message : String)
  | validationError (message : String)
  | entryAlreadyReplayed (message : String)
  | replayed (message id topic : String) (failureHistory : List DlqFailureAttempt)
  | internalError
  deriving DecidableEq

/-- The statement that a request is at, with what the handler has read before. -/
inductive Stage
  | finding
  | gating (entry : DlqRow)
  | replaying (entry : DlqRow)
  | recordingFailure (entry : DlqRow)
  | countingFailure (entry : DlqRow) (failureHistory : List DlqFailureAttempt)
  | countingSuccess (entry : DlqRow)
  | answered (response : ReplayResponse)

structure ReplayRequest where
  id : String
  failed : Bool
  error : ReportedError
  stage : Stage

structure DlqState where
  table : DlqTable
  suspensions : SuspensionTable
  requests : ℕ → Option ReplayRequest

inductive DlqLabel
  | replay (request : ℕ) (id : String) (failed : Bool) (error : ReportedError)
  /-- The next statement of a request. -/
  | advance (request : ℕ) (now : ℤ)
  /-- The next statement of a request fails. -/
  | fail (request : ℕ)
  | resume (topic : String) (now : ℤ)
  | deleteById (id : String)
  | deleteAll (topic tenantId : Option String)
  | purge (batchSize : ℕ) (cutoff : ℤ) (tenantId : Option String) (dryRun : Bool)

/-- The request that a label is about. -/
def DlqLabel.request : DlqLabel → Option ℕ
  | .replay request _ _ _ => some request
  | .advance request _ => some request
  | .fail request => some request
  | _ => none

namespace DlqState

variable (s : DlqState)

def setStage (request : ℕ) (q : ReplayRequest) (stage : Stage) : DlqState :=
  { s with requests := Function.update s.requests request (some { q with stage }) }

def respond (request : ℕ) (q : ReplayRequest) (response : ReplayResponse) : DlqState :=
  s.setStage request q (.answered response)

/-- A malformed cause is refused before anything changes. -/
def checkBody (request : ℕ) (q : ReplayRequest) (entry : DlqRow) : DlqState :=
  if q.error = .other then
    s.respond request q (.validationError "Field 'error' must be a string")
  else s.setStage request q (.replaying entry)

/-- The gate before the replay: the suspension of the topic, and then the body. -/
def gate (request : ℕ) (q : ReplayRequest) (entry : DlqRow) : DlqState :=
  match s.suspensions entry.topic with
  | some suspension =>
    if suspension.suspended then
      s.respond request q (.consumerSuspended
        (s!"Consumer for topic '{entry.topic}' is suspended after " ++
          s!"{suspension.consecutiveFailures} consecutive failures. " ++
          "Use POST /admin/dlq/consumers/" ++ encodeURIComponent entry.topic ++
          "/resume to re-enable."))
    else s.checkBody request q entry
  | none => s.checkBody request q entry

/-- The next statement of the handler. -/
def advance (threshold : ℕ) (request : ℕ) (now : ℤ) (q : ReplayRequest) : Option DlqState :=
  match q.stage with
  | .finding =>
    match s.table.findById q.id with
    | none => some (s.respond request q (.notFound s!"DLQ entry '{q.id}' not found"))
    | some entry => some (s.setStage request q (.gating entry))
  | .gating entry => some (s.gate request q entry)
  | .replaying entry =>
    let (replayed, table) := s.table.replayEntry entry.id (some 0) (some now)
    if replayed then
      some ({ s with table }.setStage request q
        (if q.failed then .recordingFailure entry else .countingSuccess entry))
    else
      some (s.respond request q (.entryAlreadyReplayed
        s!"DLQ entry '{entry.id}' has already been replayed or resolved."))
  | .recordingFailure entry =>
    let (updated, table) := s.table.recordFailure entry.id
      ((normalizeFailureError q.error).getD unreportedReplayFailure) "replay" now
    some ({ s with table }.setStage request q (.countingFailure entry
      (rowToFailureHistory (updated.getD entry))))
  | .countingFailure entry failureHistory =>
    some ({ s with
        suspensions := recordReplayFailure threshold entry.topic now s.suspensions }.respond
      request q (.replayed "DLQ entry replayed" entry.id entry.topic failureHistory))
  | .countingSuccess entry =>
    some ({ s with
        suspensions := recordReplaySuccess entry.topic now s.suspensions }.respond
      request q (.replayed "DLQ entry replayed" entry.id entry.topic
        (rowToFailureHistory entry)))
  | .answered _ => none

/-- The steps of all requests. -/
def step (threshold : ℕ) : DlqLabel → Option DlqState
  | .replay request id failed error =>
    if s.requests request = none then
      some { s with
        requests := Function.update s.requests request (some ⟨id, failed, error, .finding⟩) }
    else none
  | .advance request now =>
    (s.requests request).bind fun q => s.advance threshold request now q
  | .fail request =>
    (s.requests request).bind fun q =>
      match q.stage with
      | .answered _ => none
      | _ => some (s.respond request q .internalError)
  | .resume topic now => some { s with suspensions := resumeConsumer topic now s.suspensions }
  | .deleteById id => some { s with table := s.table.deleteById id }
  | .deleteAll topic tenantId => some { s with table := s.table.deleteAll topic tenantId }
  | .purge batchSize cutoff tenantId dryRun =>
    some { s with table := s.table.purgeTerminalEntries batchSize cutoff tenantId dryRun }

/-! ## What a step does -/

variable {s} {s' : DlqState} {threshold : ℕ} {label : DlqLabel}

/-- What a step may do to the entries. -/
inductive TableStep (s : DlqState) (label : DlqLabel) (table : DlqTable) : Prop
  | same (htable : table = s.table)
  | replays (request : ℕ) (now : ℤ) (q : ReplayRequest) (entry : DlqRow)
      (hlabel : label = .advance request now) (hrequest : s.requests request = some q)
      (hstage : q.stage = .replaying entry)
      (htable : table = (s.table.replayEntry entry.id (some 0) (some now)).2)
  | records (request : ℕ) (now : ℤ) (q : ReplayRequest) (entry : DlqRow)
      (hlabel : label = .advance request now) (hrequest : s.requests request = some q)
      (hstage : q.stage = .recordingFailure entry)
      (htable : table = (s.table.recordFailure entry.id
        ((normalizeFailureError q.error).getD unreportedReplayFailure) "replay" now).2)
  | deletesOne (id : String) (hlabel : label = .deleteById id)
      (htable : table = s.table.deleteById id)
  | deletesAll (topic tenantId : Option String) (hlabel : label = .deleteAll topic tenantId)
      (htable : table = s.table.deleteAll topic tenantId)
  | purges (batchSize : ℕ) (cutoff : ℤ) (tenantId : Option String) (dryRun : Bool)
      (hlabel : label = .purge batchSize cutoff tenantId dryRun)
      (htable : table = s.table.purgeTerminalEntries batchSize cutoff tenantId dryRun)

/-- What a step may do to one of the requests. -/
inductive RequestStep (s : DlqState) (label : DlqLabel) (request : ℕ) :
    Option ReplayRequest → Prop
  | same : RequestStep s label request (s.requests request)
  | accepts (now : ℤ) (q : ReplayRequest) (entry : DlqRow)
      (hlabel : label = .advance request now) (hrequest : s.requests request = some q)
      (hstage : q.stage = .replaying entry) (hfailed : q.failed = true)
      (haccepted : (s.table.replayEntry entry.id (some 0) (some now)).1 = true) :
      RequestStep s label request (some { q with stage := .recordingFailure entry })
  /-- The request does not come to the recording of a failure. -/
  | other (q : ReplayRequest) (hlabel : label.request = some request)
      (hstage : ∀ entry, q.stage ≠ .recordingFailure entry) :
      RequestStep s label request (some q)

theorem table_gate (request : ℕ) (q : ReplayRequest) (entry : DlqRow) :
    (s.gate request q entry).table = s.table := by
  rw [gate]
  split
  · split_ifs
    · rfl
    · rw [checkBody]
      split_ifs <;> rfl
  · rw [checkBody]
    split_ifs <;> rfl

theorem tableStep (hstep : s.step threshold label = some s') : TableStep s label s'.table := by
  cases label with
  | replay =>
    rw [step] at hstep
    split_ifs at hstep
    cases hstep
    exact .same rfl
  | advance request now =>
    rw [step, Option.bind_eq_some_iff] at hstep
    obtain ⟨q, hrequest, hadvance⟩ := hstep
    cases hstage : q.stage with
    | finding =>
      simp only [advance, hstage] at hadvance
      split at hadvance
      · cases hadvance
        exact .same rfl
      · cases hadvance
        exact .same rfl
    | gating entry =>
      simp only [advance, hstage, Option.some.injEq] at hadvance
      rw [← hadvance]
      exact .same (table_gate request q entry)
    | replaying entry =>
      simp only [advance, hstage] at hadvance
      split_ifs at hadvance
      · cases hadvance
        exact .replays request now q entry rfl hrequest hstage rfl
      · cases hadvance
        exact .replays request now q entry rfl hrequest hstage rfl
      · cases hadvance
        exact .same rfl
    | recordingFailure entry =>
      simp only [advance, hstage, Option.some.injEq] at hadvance
      rw [← hadvance]
      exact .records request now q entry rfl hrequest hstage rfl
    | countingFailure | countingSuccess =>
      simp only [advance, hstage, Option.some.injEq] at hadvance
      rw [← hadvance]
      exact .same rfl
    | answered =>
      simp only [advance, hstage] at hadvance
      cases hadvance
  | fail =>
    rw [step, Option.bind_eq_some_iff] at hstep
    obtain ⟨q, -, hrespond⟩ := hstep
    split at hrespond
    · cases hrespond
    · cases hrespond
      exact .same rfl
  | resume =>
    cases hstep
    exact .same rfl
  | deleteById id =>
    cases hstep
    exact .deletesOne id rfl rfl
  | deleteAll topic tenantId =>
    cases hstep
    exact .deletesAll topic tenantId rfl rfl
  | purge batchSize cutoff tenantId dryRun =>
    cases hstep
    exact .purges batchSize cutoff tenantId dryRun rfl rfl

variable {q : ReplayRequest}

theorem requestStep_setStage {table : DlqTable} {suspensions : SuspensionTable} {request other : ℕ}
    {stage : Stage}
    (hself : other = request → RequestStep s label request (some { q with stage })) :
    RequestStep s label other
      ((DlqState.setStage ⟨table, suspensions, s.requests⟩ request q stage).requests other) := by
  by_cases hother : other = request
  · subst hother
    have hset : (DlqState.setStage ⟨table, suspensions, s.requests⟩ other q stage).requests other =
        some { q with stage } := Function.update_self ..
    rw [hset]
    exact hself rfl
  · have hset :
        (DlqState.setStage ⟨table, suspensions, s.requests⟩ request q stage).requests other =
        s.requests other := Function.update_of_ne hother ..
    rw [hset]
    exact .same

theorem requestStep_gate {request other : ℕ} {entry : DlqRow}
    (hlabel : label.request = some request) :
    RequestStep s label other ((s.gate request q entry).requests other) := by
  have hanswered : ∀ response, RequestStep s label request (some { q with
      stage := .answered response }) := fun response => .other _ hlabel (fun _ h => nomatch h)
  rw [gate]
  split
  · split_ifs
    · exact requestStep_setStage fun _ => hanswered _
    · rw [checkBody]
      split_ifs
      · exact requestStep_setStage fun _ => hanswered _
      · exact requestStep_setStage fun _ => .other _ hlabel (fun _ h => nomatch h)
  · rw [checkBody]
    split_ifs
    · exact requestStep_setStage fun _ => hanswered _
    · exact requestStep_setStage fun _ => .other _ hlabel (fun _ h => nomatch h)

theorem requestStep (hstep : s.step threshold label = some s') (other : ℕ) :
    RequestStep s label other (s'.requests other) := by
  cases label with
  | replay request =>
    rw [step] at hstep
    split_ifs at hstep
    cases hstep
    by_cases hother : other = request
    · subst hother
      dsimp only
      rw [Function.update_self]
      exact .other _ rfl (fun _ h => nomatch h)
    · dsimp only
      rw [Function.update_of_ne hother]
      exact .same
  | advance _ now =>
    rw [step, Option.bind_eq_some_iff] at hstep
    obtain ⟨q, hrequest, hadvance⟩ := hstep
    cases hstage : q.stage with
    | finding =>
      simp only [advance, hstage] at hadvance
      split at hadvance
      · cases hadvance
        exact requestStep_setStage fun _ => .other _ rfl (fun _ h => nomatch h)
      · cases hadvance
        exact requestStep_setStage fun _ => .other _ rfl (fun _ h => nomatch h)
    | gating =>
      simp only [advance, hstage, Option.some.injEq] at hadvance
      rw [← hadvance]
      exact requestStep_gate rfl
    | replaying entry =>
      simp only [advance, hstage] at hadvance
      split_ifs at hadvance with haccepted hfailed
      · cases hadvance
        apply requestStep_setStage
        intro hsame
        subst hsame
        exact .accepts now q entry rfl hrequest hstage hfailed haccepted
      · cases hadvance
        exact requestStep_setStage fun _ => .other _ rfl (fun _ h => nomatch h)
      · cases hadvance
        exact requestStep_setStage fun _ => .other _ rfl (fun _ h => nomatch h)
    | recordingFailure | countingFailure | countingSuccess =>
      simp only [advance, hstage, Option.some.injEq] at hadvance
      rw [← hadvance]
      exact requestStep_setStage fun _ => .other _ rfl (fun _ h => nomatch h)
    | answered =>
      simp only [advance, hstage] at hadvance
      cases hadvance
  | fail =>
    rw [step, Option.bind_eq_some_iff] at hstep
    obtain ⟨q, -, hrespond⟩ := hstep
    split at hrespond
    · cases hrespond
    · cases hrespond
      exact requestStep_setStage fun _ => .other _ rfl (fun _ h => nomatch h)
  | resume | deleteById | deleteAll | purge =>
    cases hstep
    exact .same

end DlqState

end Fluxora.Dlq
