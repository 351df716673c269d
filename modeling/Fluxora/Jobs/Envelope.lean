/-
# The envelope of a job

A job that is sent within a request carries the request's correlation id: the data is put into
an envelope, an object with the data and the id. A job that is sent outside any request is
stored without one. The worker takes every object with a `__payload` property for an envelope,
whoever made it.

A job that fails for good is handed to the dead-letter queue with its data among the metadata.
The handler of that queue looks for an envelope in the data, but runs under the id of the
dead-letter job.
-/

import Fluxora.Lib.JsonStringify
import Fluxora.Lib.Utf8

namespace Fluxora.Jobs

open Lib

/-! ## Sending -/

/-- The correlation id of the current context, outside any request there is none. -/
def getCorrelationId (store : Option String) : String := store.getD "unknown"

/-- The id that goes into an envelope. -/
def envelopeId (store : Option String) : String :=
  if getCorrelationId store = "unknown" then "" else getCorrelationId store

/-- Data in an envelope as it is written to the database, where an undefined property is left
out. -/
def envelope (data : Option Json) (correlationId : String) : Json :=
  .object ([("__payload", data), ("__correlationId", some (.string correlationId))].filterMap
    fun entry => entry.2.map (entry.1, ·))

def wrappedData (store : Option String) (data : Option Json) : Option Json :=
  let correlationId := envelopeId store
  if correlationId ≠ "" then some (envelope data correlationId) else data

/-- The data of the job, `null` in the database where it is undefined. -/
def send (store : Option String) (data : Option Json) : Json := (wrappedData store data).getD .null

/-- A scheduled job has `null` for undefined data. -/
def schedule (store : Option String) (data : Option Json) : Json :=
  send store (some (data.getD .null))

/-! ## The worker -/

structure Job where
  id : String
  data : Json

structure JobHandlerContext where
  id : String
  name : String
  data : Json

/-- What the handler is called with, and the correlation id it runs under. -/
def work (name : String) (job : Job) : JobHandlerContext × String :=
  match job.data.property "__payload" with
  | some payload =>
    let correlationId :=
      match job.data.property "__correlationId" with
      | some (.string correlationId) => correlationId
      | _ => job.id
    (⟨job.id, name, payload⟩, correlationId)
  | none => (⟨job.id, name, job.data⟩, job.id)

/-! ## The handler of the dead-letter queue -/

def DEAD_LETTER_QUEUE : String := "job_dead_letter_queue"

def DLQ_MAX_ERROR_BYTES : ℕ := 2048

def DLQ_MAX_PAYLOAD_BYTES : ℕ := 65536

/-- The characters that fit, up to the first that does not. -/
def fitting : ℕ → List Char → List Char
  | _, [] => []
  | maxBytes, c :: rest =>
    if c.utf8Size ≤ maxBytes then c :: fitting (maxBytes - c.utf8Size) rest else []

def truncateUtf8 (text : List Char) (maxBytes : ℕ) : List Char :=
  if (Utf8.bytes text).length ≤ maxBytes then text else fitting maxBytes text

/-- A row of `job_dead_letter`. -/
structure JobDeadLetter where
  jobName : String
  jobId : String
  payload : Json
  errorMessage : List Char
  retryCount : ℚ

/-- A text that is not empty, or `unknown`. -/
def nonEmptyText : Option Json → String
  | some (.string text) => if text ≠ "" then text else "unknown"
  | _ => "unknown"

/-- A value, unless it is `null`. -/
def nonNull : Option Json → Option Json
  | some .null => none
  | value => value

/-- The data of the failed job, without its envelope. -/
def originalPayload (payload : Json) : Json :=
  let data := (nonNull (payload.property "data")).getD .null
  (data.property "__payload").getD data

def errorMessage (payload : Json) : List Char :=
  match nonNull (payload.property "output") with
  | none => "Unknown error".toList
  | some (.string text) => text.toList
  | some output =>
    match output.property "message" with
    | some (.string text) => text.toList
    | _ => JsonStringify.stringify output

def retryCount (payload : Json) : ℚ :=
  match (nonNull (payload.property "retrycount")).or (payload.property "retryCount") with
  | some (.number count) => count
  | _ => 0

/-- A payload that is too large is replaced. -/
def budgeted (payload : Json) : Json :=
  match payload with
  | .null => .null
  | payload =>
    if DLQ_MAX_PAYLOAD_BYTES < (Utf8.bytes (JsonStringify.stringify payload)).length then
      .object [("_truncated", .bool true)]
    else payload

/-- The row that is written for a dead-letter job. -/
def deadLetterHandler (ctx : JobHandlerContext) : JobDeadLetter where
  jobName := nonEmptyText (ctx.data.property "name")
  jobId := nonEmptyText (ctx.data.property "id")
  payload := budgeted (originalPayload ctx.data)
  errorMessage := truncateUtf8 (errorMessage ctx.data) DLQ_MAX_ERROR_BYTES
  retryCount := retryCount ctx.data

/-! ## Round trips -/

/-- The job that pg-boss puts into the dead-letter queue for a job of a queue. -/
structure PgBoss where
  deadLetter : String → Job → Job

/-- The data of a dead-letter job are the failed job's metadata, its data among them. -/
structure PgBoss.CarriesMetadata (boss : PgBoss) : Prop where
  data : ∀ name job, (boss.deadLetter name job).data.property "data" = some job.data
  no_payload : ∀ name job, (boss.deadLetter name job).data.property "__payload" = none

/-- How a job comes to a handler. -/
inductive JobPath
  | registered
  | deadLetter

/-- A job on its way, with the job that is fetched in the end. -/
def fetched (boss : PgBoss) (name : String) (job : Job) : JobPath → Job
  | .registered => job
  | .deadLetter => boss.deadLetter name job

/-- The data that the handler works on, and the correlation id it runs under. -/
def received (boss : PgBoss) (name : String) (job : Job) : JobPath → Json × String
  | .registered =>
    let (ctx, correlationId) := work name job
    (ctx.data, correlationId)
  | .deadLetter =>
    let (ctx, correlationId) := work DEAD_LETTER_QUEUE (boss.deadLetter name job)
    (originalPayload ctx.data, correlationId)

/-- The correlation id of the sender, if there is one. -/
def senderId (store : Option String) : Option String :=
  store.filter fun correlationId => correlationId ≠ "unknown" ∧ correlationId ≠ ""

/-- The handler gets the data that were sent and runs under the sender's correlation id; a job
without one runs under its own id. -/
def RoundTrip (boss : PgBoss) (name id : String) (store : Option String) (data : Option Json)
    (path : JobPath) : Prop :=
  let job : Job := ⟨id, send store data⟩
  data = some (received boss name job path).1 ∧
    (received boss name job path).2 = (senderId store).getD (fetched boss name job path).id

/-- There are data, and they do not look like an envelope if they are sent without one. A
correlation id does not go through the dead-letter queue. -/
def KeptApart (boss : PgBoss) (name id : String) (store : Option String) (data : Option Json)
    (path : JobPath) : Prop :=
  ∃ payload, data = some payload ∧
    match senderId store with
    | none => payload.property "__payload" = none
    | some correlationId =>
      match path with
      | .registered => True
      | .deadLetter => (boss.deadLetter name ⟨id, send store data⟩).id = correlationId

/-! ## Rows stay within their budgets -/

theorem bytes_fitting_le (maxBytes : ℕ) (text : List Char) :
    (Utf8.bytes (fitting maxBytes text)).length ≤ maxBytes := by
  induction text generalizing maxBytes with
  | nil => exact Nat.zero_le _
  | cons c _ ih =>
    rw [fitting]
    split_ifs with hfits
    · have hrest := ih (maxBytes - c.utf8Size)
      rw [Utf8.bytes, List.flatMap_cons, List.length_append, String.length_utf8EncodeChar]
      rw [Utf8.bytes] at hrest
      omega
    · exact Nat.zero_le _

theorem fitting_isPrefix (maxBytes : ℕ) (text : List Char) : fitting maxBytes text <+: text := by
  induction text generalizing maxBytes with
  | nil => exact List.prefix_rfl
  | cons c _ ih =>
    rw [fitting]
    split_ifs
    · exact List.prefix_cons_inj c |>.mpr (ih _)
    · exact List.nil_prefix

theorem truncateUtf8_spec (text : List Char) (maxBytes : ℕ) :
    (Utf8.bytes (truncateUtf8 text maxBytes)).length ≤ maxBytes ∧
      truncateUtf8 text maxBytes <+: text := by
  rw [truncateUtf8]
  split_ifs with hfits
  · exact ⟨hfits, List.prefix_rfl⟩
  · exact ⟨bytes_fitting_le maxBytes text, fitting_isPrefix maxBytes text⟩

theorem budgeted_bytes_le (payload : Json) :
    (Utf8.bytes (JsonStringify.stringify (budgeted payload))).length ≤ DLQ_MAX_PAYLOAD_BYTES := by
  have hmarker : (Utf8.bytes (JsonStringify.stringify
      (.object [("_truncated", .bool true)]))).length ≤ DLQ_MAX_PAYLOAD_BYTES := by decide
  cases payload with
  | null => decide
  | _ =>
    rw [budgeted]
    · split_ifs with hlarge
      · exact hmarker
      · exact not_lt.mp hlarge
    · nofun

theorem property_payload_envelope (data : Option Json) (correlationId : String) :
    (envelope data correlationId).property "__payload" = data := by
  cases data <;> rfl

theorem property_correlationId_envelope (data : Option Json) (correlationId : String) :
    (envelope data correlationId).property "__correlationId" = some (.string correlationId) := by
  cases data <;> rfl

theorem envelopeId_eq (store : Option String) : envelopeId store = (senderId store).getD "" := by
  rw [envelopeId, getCorrelationId, senderId]
  cases store with
  | none => rfl
  | some correlationId =>
    rw [Option.getD_some, Option.filter_some]
    by_cases hunknown : correlationId = "unknown"
    · simp [hunknown]
    · by_cases hempty : correlationId = ""
      · simp [hempty]
      · simp [hunknown, hempty]

variable {boss : PgBoss} {name id correlationId : String} {store : Option String}
  {data : Option Json} {job : Job} {path : JobPath}

theorem send_of_none (h : senderId store = none) : send store data = data.getD .null := by
  rw [send, wrappedData, envelopeId_eq, h]
  rfl

theorem send_of_some (h : senderId store = some correlationId) :
    send store data = envelope data correlationId := by
  have hempty : correlationId ≠ "" := (of_decide_eq_true (Option.filter_eq_some_iff.mp h).2).2
  rw [send, wrappedData, envelopeId_eq, h]
  rw [Option.getD_some, if_pos hempty, Option.getD_some]

/-! ## What a handler receives -/

theorem received_data (h : boss.CarriesMetadata) :
    (received boss name job path).1 = (job.data.property "__payload").getD job.data := by
  cases path with
  | registered =>
    rw [received, work]
    cases job.data.property "__payload" <;> rfl
  | deadLetter =>
    have hkept : (nonNull (some job.data)).getD .null = job.data := by
      cases job.data <;> rfl
    rw [received, work, h.no_payload]
    dsimp only
    rw [originalPayload, h.data, hkept]

theorem received_id_deadLetter (h : boss.CarriesMetadata) :
    (received boss name job .deadLetter).2 = (boss.deadLetter name job).id := by
  rw [received, work, h.no_payload]

theorem received_id_of_none (h : job.data.property "__payload" = none) :
    (received boss name job .registered).2 = job.id := by
  rw [received, work, h]

theorem received_id_envelope (payload : Json) :
    (received boss name ⟨id, envelope (some payload) correlationId⟩ .registered).2 =
      correlationId := by
  rw [received, work, property_payload_envelope, property_correlationId_envelope]

theorem roundTrip_of_none (h : boss.CarriesMetadata) (hstore : senderId store = none)
    (payload : Json) :
    RoundTrip boss name id store (some payload) path ↔ payload.property "__payload" = none := by
  rw [RoundTrip, received_data h, send_of_none hstore, hstore]
  dsimp only
  rw [Option.getD_some, Option.getD_none]
  apply Iff.intro
  · intro ⟨hdata, _⟩
    cases hpayload : payload.property "__payload" with
    | none => rfl
    | some =>
      rw [hpayload, Option.getD_some] at hdata
      exact absurd (Option.some.inj hdata).symm (Json.property_ne hpayload)
  · intro hpayload
    rw [hpayload, Option.getD_none]
    apply And.intro rfl
    cases path with
    | registered => exact received_id_of_none hpayload
    | deadLetter => exact received_id_deadLetter h

theorem roundTrip_of_some (h : boss.CarriesMetadata) (hstore : senderId store = some correlationId)
    (payload : Json) :
    RoundTrip boss name id store (some payload) path ↔
      match path with
      | .registered => True
      | .deadLetter =>
        (boss.deadLetter name ⟨id, send store (some payload)⟩).id = correlationId := by
  rw [RoundTrip, received_data h, send_of_some hstore, hstore]
  dsimp only
  rw [property_payload_envelope, Option.getD_some, Option.getD_some, and_iff_right rfl]
  cases path with
  | registered => exact iff_true_intro (received_id_envelope payload)
  | deadLetter => rw [received_id_deadLetter h]

/-- A handler gets back what was sent, and from whom, exactly when there are data that do not look
like an envelope or are in one, and no correlation id is lost in the dead-letter queue. -/
theorem roundTrip_iff_keptApart (boss : PgBoss) (h : boss.CarriesMetadata) (name id : String)
    (store : Option String) (data : Option Json) (path : JobPath) :
    RoundTrip boss name id store data path ↔ KeptApart boss name id store data path := by
  cases data with
  | none =>
    apply iff_of_false
    · exact fun hround => nomatch hround.1
    · exact fun ⟨_, hpayload, _⟩ => nomatch hpayload
  | some payload =>
    rw [KeptApart]
    simp only [Option.some.injEq, exists_eq_left']
    cases hstore : senderId store with
    | none => exact roundTrip_of_none h hstore payload
    | some => exact roundTrip_of_some h hstore payload

/-- The metadata of a failed job that the handler of the dead-letter queue reads. -/
def metadataBoss : PgBoss where
  deadLetter name job := ⟨job.id ++ "-dlq", .object [("name", .string name),
    ("id", .string job.id), ("data", job.data), ("output", .string "timeout"),
    ("retrycount", .number 3)]⟩

theorem metadataBoss_carriesMetadata : metadataBoss.CarriesMetadata where
  data _ _ := rfl
  no_payload _ _ := rfl

theorem partitionJob_roundTrip : RoundTrip metadataBoss "partition-maintenance" "job-1"
    (some "request-1") (some (.object [("streamId", .string "stream-1")])) .registered :=
  (roundTrip_iff_keptApart metadataBoss metadataBoss_carriesMetadata _ _ _ _ _).mpr
    ⟨_, rfl, trivial⟩

/-- Data that are sent outside any request and have a `__payload` property lose the rest. -/
theorem lookalike_not_roundTrip : ¬ ∀ (boss : PgBoss), boss.CarriesMetadata →
    ∀ (name id : String) (store : Option String) (data : Option Json) (path : JobPath),
      RoundTrip boss name id store data path := by
  intro hround
  obtain ⟨hdata, -⟩ := hround metadataBoss metadataBoss_carriesMetadata "partition-maintenance"
    "job-1" none (some (.object [("__payload", .null), ("streamId", .string "stream-1")]))
    .registered
  cases hdata

end Fluxora.Jobs
