/-
# The status that each surface shows

A stream is shown by the routes that read, by the linked-data export and by the GraphQL
gateway. The routes show the status of the row; the other two derive it from the schedule and
the clock. The cache policy of an answer is chosen from the status of the row.
-/

import Fluxora.Streams.ReadRoutes

namespace Fluxora.Streams

open Auth Lib Lib.Fallible Serialization

/-- A row with the times at which it was written. -/
structure StoredRow extends StreamRecord where
  createdAt : String
  updatedAt : String

/-- A stream as the gateway shows it. -/
structure GatewayStream where
  id : String
  senderAddress : String
  recipientAddress : String
  amount : String
  streamedAmount : String
  remainingAmount : String
  ratePerSecond : String
  startTime : ℤ
  endTime : ℤ
  status : StreamStatus
  contractId : String
  transactionHash : String
  eventIndex : ℕ
  createdAt : String
  updatedAt : String

def mapStream (now : ℤ) (record : StoredRow) : GatewayStream :=
  { record with
    status := deriveStreamStatusFromSchedule record.startTime record.endTime record.status now }

/-- The statuses that an answer shows, with its cache policy. -/
def ReadAnswer.cached : ReadAnswer → Option (List StreamStatus × String)
  | .listed page cacheControl => some (page.streams.map Stream.status, cacheControl)
  | .found stream cacheControl => some ([stream.status], cacheControl)
  | .linkedData document cacheControl => some ([document.status], cacheControl)
  | _ => none

/-- An answer is publicly cacheable only if the statuses shown in it are terminal. -/
def ReadAnswer.CachedIfTerminal (answer : ReadAnswer) : Prop :=
  ∀ shown, answer.cached = some (shown, cacheableStreamHeaders) →
    ∀ status ∈ shown, isTerminalStatus status = true

/-- The surfaces show one status of a row, and no read is cached too early. -/
structure OneStatus (now : ℤ) (row : StoredRow) : Prop where
  linkedData : ∀ document, toStreamJsonLd now row.toStreamRecord = .ok document →
    document.status = (toApiStream row.toStreamRecord).status
  gateway : (mapStream now row).status = (toApiStream row.toStreamRecord).status
  cached : ∀ env req, (streamsReadRouter env req).CachedIfTerminal

theorem deriveStreamStatusFromSchedule_eq_self_iff {startTime endTime now : ℤ}
    {status : StreamStatus} :
    deriveStreamStatusFromSchedule startTime endTime status now = status ↔
      ¬ (status = .active ∧ startTime ≤ now ∧ endTime ≠ 0 ∧ endTime ≤ now) := by
  cases status with
  | active =>
    rw [deriveStreamStatusFromSchedule, and_iff_right rfl, not_and]
    split_ifs with hstarted hended
    · exact iff_of_false (by decide) fun hrunning => hrunning hstarted hended
    · exact iff_of_true rfl fun _ => hended
    · exact iff_of_true rfl fun hbegun => absurd hbegun hstarted
  | paused | completed | cancelled => simp [deriveStreamStatusFromSchedule]

theorem derive_of_terminal {startTime endTime now : ℤ} {status : StreamStatus}
    (hterminal : isTerminalStatus status = true) :
    deriveStreamStatusFromSchedule startTime endTime status now = status := by
  apply deriveStreamStatusFromSchedule_eq_self_iff.mpr
  rintro ⟨rfl, -⟩
  cases hterminal

/-! ## The cache policy -/

section

variable {env : ReadEnv} {req : ReadRequest} {answer : ReadAnswer}

theorem cachedIfTerminal_of_not_cached (h : answer.cached = none) : answer.CachedIfTerminal := by
  intro shown hshown
  cases h.symm.trans hshown

variable {context : Context}

theorem cachedIfTerminal_list (h : listStreamsHandler env req context = .ok answer) :
    answer.CachedIfTerminal := by
  unfold listStreamsHandler at h
  split at h
  · cases h
  · obtain ⟨_, _, h⟩ := bind_eq_ok.mp h
    dsimp only at h
    split_ifs at h
    obtain ⟨_, _, h⟩ := bind_eq_ok.mp h
    split at h
    · cases h
    · cases h
      intro shown hshown status hstatus
      obtain ⟨hstatuses, hpublic⟩ := Prod.ext_iff.mp (Option.some.inj hshown)
      rw [← show _ = shown from hstatuses] at hstatus
      obtain ⟨_, hstream, rfl⟩ := List.mem_map.mp hstatus
      obtain ⟨row, hrow, rfl⟩ := List.mem_map.mp hstream
      exact streamCacheControl_eq_cacheable_iff.mp hpublic _ (List.mem_map_of_mem hrow)

theorem cachedIfTerminal_get {id : String} (h : getStreamHandler env req id = .ok answer) :
    answer.CachedIfTerminal := by
  obtain ⟨row, -, h⟩ := bind_eq_ok.mp h
  split_ifs at h
  · cases h
    exact cachedIfTerminal_of_not_cached rfl
  · cases h
    intro shown hshown status hstatus
    obtain ⟨hstatuses, hpublic⟩ := Prod.ext_iff.mp (Option.some.inj hshown)
    rw [← show _ = shown from hstatuses] at hstatus
    exact streamCacheControl_eq_cacheable_iff.mp hpublic status hstatus

theorem cachedIfTerminal_linkedData {id : String}
    (h : exportStreamJsonLdHandler env req id = .ok answer) : answer.CachedIfTerminal := by
  obtain ⟨row, -, h⟩ := bind_eq_ok.mp h
  split_ifs at h
  · cases h
    exact cachedIfTerminal_of_not_cached rfl
  · split at h
    · cases h
    · rename_i document hdocument
      cases h
      intro shown hshown status hstatus
      obtain ⟨hstatuses, hpublic⟩ := Prod.ext_iff.mp (Option.some.inj hshown)
      have hterminal : isTerminalStatus row.status = true :=
        streamCacheControl_eq_cacheable_iff.mp hpublic row.status List.mem_cons_self
      rw [← show _ = shown from hstatuses] at hstatus
      rw [List.mem_singleton.mp hstatus, (fields_toStreamJsonLd hdocument).2.2,
        derive_of_terminal hterminal, hterminal]

theorem cachedIfTerminal_export (h : exportStreamsHandler env req context = .ok answer) :
    answer.CachedIfTerminal := by
  obtain ⟨_, -, h⟩ := bind_eq_ok.mp h
  split_ifs at h
  cases h
  exact cachedIfTerminal_of_not_cached rfl

theorem cachedIfTerminal_head {id : String} (h : headStreamHandler env id = .ok answer) :
    answer.CachedIfTerminal := by
  unfold headStreamHandler at h
  split_ifs at h
  · cases h
    exact cachedIfTerminal_of_not_cached rfl
  · split at h
    · cases h
      exact cachedIfTerminal_of_not_cached rfl
    · cases h
    · cases h
      exact cachedIfTerminal_of_not_cached rfl

theorem cachedIfTerminal_events {id : String} (h : streamEventsHandler env req id = .ok answer) :
    answer.CachedIfTerminal := by
  unfold streamEventsHandler at h
  split_ifs at h
  obtain ⟨_, -, h⟩ := bind_eq_ok.mp h
  split at h
  · cases h
  · obtain ⟨_, -, h⟩ := bind_eq_ok.mp h
    obtain ⟨_, -, h⟩ := bind_eq_ok.mp h
    cases h
    exact cachedIfTerminal_of_not_cached rfl

theorem cachedIfTerminal_readRoute {links : List Middleware}
    {handler : Context → Except ApiError ReadAnswer} (context : Context)
    (h : ∀ context answer, handler context = .ok answer → answer.CachedIfTerminal) :
    (readRoute links handler context).CachedIfTerminal := by
  rw [readRoute]
  split
  · exact cachedIfTerminal_of_not_cached rfl
  · rename_i hanswer
    obtain ⟨context, -, hhandled⟩ := bind_eq_ok.mp hanswer
    exact h context _ hhandled

end

theorem cachedIfTerminal_router (env : ReadEnv) (req : ReadRequest) :
    (streamsReadRouter env req).CachedIfTerminal := by
  rw [streamsReadRouter]
  split
  · exact cachedIfTerminal_of_not_cached rfl
  · unfold readRoutes
    split
    · exact cachedIfTerminal_readRoute _ fun _ _ => cachedIfTerminal_list
    · exact cachedIfTerminal_readRoute _ fun _ _ => cachedIfTerminal_export
    · exact cachedIfTerminal_readRoute _ fun _ _ => cachedIfTerminal_head
    · exact cachedIfTerminal_readRoute _ fun _ _ => cachedIfTerminal_get
    · exact cachedIfTerminal_readRoute _ fun _ _ => cachedIfTerminal_linkedData
    · exact cachedIfTerminal_readRoute _ fun _ _ => cachedIfTerminal_events
    · exact cachedIfTerminal_of_not_cached rfl

/-! ## When there is one status -/

/-- The surfaces agree on a row except when it is stored as active and has ended. -/
theorem oneStatus_iff (now : ℤ) (row : StoredRow) :
    OneStatus now row ↔
      ¬ (row.status = .active ∧ row.startTime ≤ now ∧ row.endTime ≠ 0 ∧ row.endTime ≤ now) := by
  rw [← deriveStreamStatusFromSchedule_eq_self_iff]
  apply Iff.intro
  · intro hone
    exact hone.gateway
  · intro hsame
    exact
      { linkedData := fun document hdocument =>
          (fields_toStreamJsonLd hdocument).2.2.trans hsame
        gateway := hsame
        cached := cachedIfTerminal_router }

/-- A stream that ended at ten is completed for the gateway and active for the routes. -/
theorem oneStatus_fails_ended :
    let row : StoredRow := ⟨streamSample, "2026-01-01", "2026-01-01"⟩
    (toApiStream row.toStreamRecord).status = .active ∧
      (mapStream 10 row).status = .completed ∧ ¬ OneStatus 10 row := by
  intro row
  refine ⟨rfl, by decide, fun hone => ?_⟩
  exact absurd hone.gateway (by decide)

end Fluxora.Streams
