/-
# Hashing a batch of addresses

A short list of addresses is hashed in line. A longer one is given to the pool of workers, one
task for each address, and the promises are awaited together.
-/

import Fluxora.Lib.JsonStringify
import Fluxora.Pii.Erasure
import Fluxora.Pii.PoolCapacity

namespace Fluxora.Pii

open Lib Lib.JsonStringify Lib.Transition

/-! ## Messages -/

structure HashTaskMessage where
  taskId : ℕ
  address : String
  keys : PgcryptoKeySet

structure HashResultMessage where
  taskId : ℕ
  current : String
  previous : Option String
  deriving DecidableEq

def PgcryptoKeySet.toJson (keys : PgcryptoKeySet) : Json :=
  .object (("current", .string keys.current) ::
    (keys.previous.map fun key => ("previous", Json.string key)).toList)

def HashTaskMessage.toJson (message : HashTaskMessage) : Json :=
  .object [("type", .string "hash"), ("taskId", .number message.taskId),
    ("address", .string message.address), ("keys", message.keys.toJson)]

/-- `Buffer.byteLength` -/
def byteLength (text : List Char) : ℕ := (text.map Char.utf8Size).sum

/-- `undefined` is no value. A value that cannot be serialized does not occur. -/
def validateTaskMessage (maxSizeBytes : ℕ) : Option Json → Except String Unit
  | none => .error "message must not be null or undefined"
  | some .null => .error "message must not be null or undefined"
  | some (.string "") => .error "message must not be an empty string"
  | some (.array []) => .error "message must not be an empty array"
  | some (.object []) => .error "message must not be an empty object"
  | some message =>
    let sizeBytes := byteLength (stringify message)
    if maxSizeBytes < sizeBytes then
      .error (s!"message size ({sizeBytes} bytes) exceeds " ++
        s!"the maximum allowed size of {maxSizeBytes} bytes")
    else .ok ()

def defaultMaxMessageSizeBytes : ℕ := 1024 * 1024

def batchHashThreshold : ℕ := 50

/-! ## Hashing -/

structure AddressHashes where
  current : String
  previous : Option String
  deriving DecidableEq

namespace Pgcrypto

variable (crypto : Pgcrypto)

/-- `computeAddressHashes` with its field names. -/
def computeAddressHashPair (address : String) (keys : PgcryptoKeySet) : AddressHashes where
  current := crypto.computeAddressHash address keys.current
  previous := (keys.previous.filter (· ≠ "")).map (crypto.computeAddressHash address)

theorem computeAddressHashes_eq (address : String) (keys : PgcryptoKeySet) :
    crypto.computeAddressHashes address keys =
      (crypto.computeAddressHashPair address keys).current ::
        (crypto.computeAddressHashPair address keys).previous.toList := rfl

/-- The function of the worker script. -/
def computeAddressHashLocal (address key : String) : String := crypto.hmacSha256 key address

/-- What the worker script answers. -/
def workerResult (message : HashTaskMessage) : HashResultMessage where
  taskId := message.taskId
  current := crypto.computeAddressHashLocal message.address message.keys.current
  previous := (message.keys.previous.filter (· ≠ "")).map
    (crypto.computeAddressHashLocal message.address)

/-- The fallback of the pool. -/
def fallbackResult (message : HashTaskMessage) : HashResultMessage where
  taskId := message.taskId
  current := crypto.computeAddressHash message.address message.keys.current
  previous := (message.keys.previous.filter (· ≠ "")).map
    (crypto.computeAddressHash message.address)

/-- The pool, on a machine with the given parallelism. -/
def getPool (available : ℕ) : PoolConfig HashTaskMessage HashResultMessage where
  maxWorkers := resolveWorkerCount available
  maxQueueSize := 1000
  validateTaskMessage := fun message =>
    validateTaskMessage defaultMaxMessageSizeBytes (some message.toJson)
  fallbackFn := some fun message => .ok (crypto.fallbackResult message)
  answers := fun message reply => reply = .result (crypto.workerResult message)
  maxWorkers_pos := resolveWorkerCount_pos ..

theorem getPool_computes (available : ℕ) :
    (crypto.getPool available).Computes crypto.workerResult where
  fallback := by
    intro fallback hfallback message
    cases hfallback
    rfl
  answers := fun _ _ => decide_eq_true_iff

/-! ## The batch -/

/-- The tasks of a batch, each with the outcome of the construction of a worker for it. -/
def batchTasks (addresses : List String) (keys : PgcryptoKeySet) (constructs : ℕ → Bool) :
    List (HashTaskMessage × Bool) :=
  addresses.zipIdx.map fun (address, taskId) => (⟨taskId, address, keys⟩, constructs taskId)

end Pgcrypto

/-- A call that has returned, or awaits the promises of its tasks. -/
inductive BatchCall
  | returned (hashes : List AddressHashes)
  | awaiting (promises : List (PoolPromise HashResultMessage))

def BatchOutcome.map {α β : Type} (f : List α → List β) : BatchOutcome α → BatchOutcome β
  | .pending => .pending
  | .rejected => .rejected
  | .resolved values => .resolved (f values)

/-- The results of a batch, in the order of its addresses. -/
def restoreOrder (results : List HashResultMessage) : List AddressHashes :=
  results.map fun r => ⟨r.current, r.previous⟩

/-- What a call has come to in a later state of the pool. -/
def BatchCall.outcome (s : PoolState HashTaskMessage HashResultMessage) :
    BatchCall → BatchOutcome AddressHashes
  | .returned hashes => .resolved hashes
  | .awaiting promises =>
    (promiseAll (promises.map (PoolPromise.outcome s))).map restoreOrder

namespace Pgcrypto

variable (crypto : Pgcrypto) (available : ℕ)

def batchComputeAddressHashes (addresses : List String) (keys : PgcryptoKeySet)
    (threshold : Option ℕ) (constructs : ℕ → Bool)
    (s : PoolState HashTaskMessage HashResultMessage) :
    PoolState HashTaskMessage HashResultMessage × BatchCall :=
  if addresses.length < threshold.getD batchHashThreshold then
    (s, .returned (addresses.map fun address => crypto.computeAddressHashPair address keys))
  else
    let (s', promises) := s.execAll (crypto.getPool available)
      (batchTasks addresses keys constructs)
    (s', .awaiting promises)

variable {crypto available} (addresses : List String)

theorem restoreOrder_workerResult (keys : PgcryptoKeySet) (constructs : ℕ → Bool) :
    restoreOrder (((batchTasks addresses keys constructs).map Prod.fst).map crypto.workerResult) =
      addresses.map fun address => crypto.computeAddressHashPair address keys := by
  rw [restoreOrder, batchTasks, List.map_map, List.map_map, List.map_map]
  conv_rhs => rw [← List.zipIdx_map_fst 0 addresses, List.map_map]
  rfl

variable {s : PoolState HashTaskMessage HashResultMessage} {constructs : ℕ → Bool}

theorem awaiting_outcome_iff {promises : List (PoolPromise HashResultMessage)}
    {addresses : List String} {keys : PgcryptoKeySet}
    (hvalues : ∀ values, promiseAll (promises.map (PoolPromise.outcome s)) = .resolved values →
      values = ((batchTasks addresses keys constructs).map Prod.fst).map crypto.workerResult) :
    (∀ hashes, (BatchCall.awaiting promises).outcome s = .resolved hashes →
      hashes = addresses.map fun address => crypto.computeAddressHashPair address keys) ∧
    ((BatchCall.awaiting promises).outcome s =
        .resolved (addresses.map fun address => crypto.computeAddressHashPair address keys) ↔
      promiseAll (promises.map (PoolPromise.outcome s)) =
        .resolved (((batchTasks addresses keys constructs).map Prod.fst).map
          crypto.workerResult)) := by
  rw [BatchCall.outcome]
  cases hall : promiseAll (promises.map (PoolPromise.outcome s)) with
  | pending | rejected => exact ⟨nofun, iff_of_false nofun nofun⟩
  | resolved values =>
    rw [hvalues values hall, BatchOutcome.map, restoreOrder_workerResult]
    exact ⟨fun hashes h => (BatchOutcome.resolved.inj h).symm, iff_of_true rfl rfl⟩

/-- The pool is at rest, or a live worker can go on; and without new tasks its workers only
have so many events left. -/
def ComesToRest (crypto : Pgcrypto) (available : ℕ)
    (s : PoolState HashTaskMessage HashResultMessage) : Prop :=
  (s.Resting ∨ ∃ label, label.isWork = true ∧
    (s.step (crypto.getPool available) label).isSome = true) ∧
  ∀ events t, (∀ label ∈ events, label.isEvent = true) →
    run (PoolState.step (crypto.getPool available)) s events = some t →
      events.length ≤ s.weight

/-- **Batch hashing.** In every state after the call, of a pool with any past, a batch that is
resolved has the hashes of its addresses, in order. The pool comes to rest, and the batch is
resolved then exactly when the list is short, or every task was admitted and no step gave one
up. -/
theorem batch_iff (crypto : Pgcrypto) (available : ℕ)
    (past labels : List (PoolLabel HashTaskMessage HashResultMessage))
    {s t : PoolState HashTaskMessage HashResultMessage} (addresses : List String)
    (keys : PgcryptoKeySet) (threshold : Option ℕ) (constructs : ℕ → Bool)
    (hpast : run (PoolState.step (crypto.getPool available)) {} past = some s)
    (hrun : run (PoolState.step (crypto.getPool available))
      (crypto.batchComputeAddressHashes available addresses keys threshold constructs s).1
        labels = some t) :
    (∀ hashes,
      (crypto.batchComputeAddressHashes available addresses keys threshold constructs s).2.outcome
          t = .resolved hashes →
        hashes = addresses.map fun address => crypto.computeAddressHashPair address keys) ∧
    ComesToRest crypto available t ∧
    (t.Resting →
      ((crypto.batchComputeAddressHashes available addresses keys threshold constructs
          s).2.outcome t =
          .resolved (addresses.map fun address => crypto.computeAddressHashPair address keys) ↔
        addresses.length < threshold.getD batchHashThreshold ∨
          s.BatchKept (crypto.getPool available) (batchTasks addresses keys constructs)
            labels)) := by
  have hcomputes := crypto.getPool_computes available
  have hinv : s.Inv (crypto.getPool available) :=
    invariant_of_run (fun _ _ _ hinv hstep => hinv.step hstep) PoolState.inv_start hpast
  have hrests : ∀ {u : PoolState HashTaskMessage HashResultMessage},
      u.Inv (crypto.getPool available) → ComesToRest crypto available u := fun hu =>
    ⟨or_iff_not_imp_left.mpr (PoolState.exists_work hcomputes hu),
      fun events t hevents hrun => PoolState.length_le_weight hu hevents hrun⟩
  rw [batchComputeAddressHashes] at hrun ⊢
  split_ifs at hrun ⊢ with hshort
  · have hinv' := invariant_of_run (fun _ _ _ hinv hstep => hinv.step hstep) hinv hrun
    exact ⟨fun hashes h => (BatchOutcome.resolved.inj h).symm, hrests hinv',
      fun _ => iff_of_true rfl (Or.inl hshort)⟩
  · obtain ⟨hinv', hvalues, hrest⟩ := PoolState.batch_outcome hcomputes hinv hrun
    obtain ⟨hhashes, hiff⟩ := awaiting_outcome_iff hvalues
    refine ⟨hhashes, hrests hinv', fun hresting => ?_⟩
    rw [or_iff_right hshort]
    exact hiff.trans (hrest hresting)

/-- A new pool whose workers can be constructed admits a batch of valid messages just if it is
no longer than the workers and the queue together. -/
theorem admitsAll_batchTasks_iff (keys : PgcryptoKeySet) :
    PoolState.AdmitsAll (crypto.getPool available) {}
        (batchTasks addresses keys fun _ => true) ↔
      (∀ call ∈ batchTasks addresses keys fun _ => true,
        (crypto.getPool available).validateTaskMessage call.1 = .ok ()) ∧
        addresses.length ≤ resolveWorkerCount available + 1000 := by
  have htasks : batchTasks addresses keys (fun _ => true) =
      ((batchTasks addresses keys fun _ => true).map Prod.fst).map fun message =>
        (message, true) := by
    rw [batchTasks, List.map_map, List.map_map]
    rfl
  have hlength : ((batchTasks addresses keys fun _ => true).map Prod.fst).length =
      addresses.length := by
    rw [batchTasks, List.length_map, List.length_map, List.length_zipIdx]
  have hiff := PoolState.admitsAll_start_iff (c := crypto.getPool available)
    ((batchTasks addresses keys fun _ => true).map Prod.fst)
  have hcapacity : (crypto.getPool available).maxWorkers +
      (crypto.getPool available).maxQueueSize = resolveWorkerCount available + 1000 := rfl
  rw [← htasks, hlength, List.forall_mem_map, hcapacity] at hiff
  exact hiff

theorem batch_of_long {addresses : List String} {keys : PgcryptoKeySet} {threshold : Option ℕ}
    (hlong : ¬ addresses.length < threshold.getD batchHashThreshold) :
    crypto.batchComputeAddressHashes available addresses keys threshold constructs s =
      ((s.execAll (crypto.getPool available) (batchTasks addresses keys constructs)).1,
        .awaiting (s.execAll (crypto.getPool available)
          (batchTasks addresses keys constructs)).2) := by
  rw [batchComputeAddressHashes, if_neg hlong]

theorem not_resolved_of_long (crypto : Pgcrypto) (available : ℕ) (addresses : List String)
    (keys : PgcryptoKeySet) (hlong : batchHashThreshold ≤ addresses.length)
    (hcapacity : resolveWorkerCount available + 1000 < addresses.length) :
    ∃ labels t, (∀ label ∈ labels, label.isWork = true) ∧
      run (PoolState.step (crypto.getPool available))
        (crypto.batchComputeAddressHashes available addresses keys none (fun _ => true) {}).1
          labels = some t ∧ t.Resting ∧
      (crypto.batchComputeAddressHashes available addresses keys none (fun _ => true)
          {}).2.outcome t ≠
        .resolved (addresses.map fun address => crypto.computeAddressHashPair address keys) := by
  have hcomputes := crypto.getPool_computes available
  have hstart : (PoolState.execAll (crypto.getPool available) {}
      (batchTasks addresses keys fun _ => true)).1.Inv (crypto.getPool available) :=
    invariant_of_run (fun _ _ _ hinv hstep => hinv.step hstep) PoolState.inv_start
      (PoolState.run_execAll _ {})
  obtain ⟨events, t, hwork, hrun, hrest⟩ := PoolState.exists_rest hcomputes hstart
  have hthreshold : ¬ addresses.length < (none : Option ℕ).getD batchHashThreshold :=
    not_lt.mpr hlong
  rw [batch_of_long hthreshold]
  refine ⟨events, t, hwork, hrun, hrest, fun hresolved => ?_⟩
  obtain ⟨-, hvalues, hkept⟩ := PoolState.batch_outcome hcomputes PoolState.inv_start hrun
  have hadmits := ((hkept hrest).mp ((awaiting_outcome_iff hvalues).2.mp hresolved)).1
  exact absurd ((admitsAll_batchTasks_iff _ _).mp hadmits).2 (not_le.mpr hcapacity)

/-- Functions for the examples: the hash is the text itself. -/
def samplePgcrypto : Pgcrypto := ⟨fun _ _ => none, fun _ text => text⟩

/-- One address goes through the pool. -/
theorem batch_sample : ∃ t,
    run (PoolState.step (samplePgcrypto.getPool 1))
      (samplePgcrypto.batchComputeAddressHashes 1 ["G"] ⟨"k", none⟩ (some 1) (fun _ => true) {}).1
      [.online 0, .message 0 (.result ⟨0, "G", none⟩)] = some t ∧
    (t.Resting →
      ((samplePgcrypto.batchComputeAddressHashes 1 ["G"] ⟨"k", none⟩ (some 1) (fun _ => true)
          {}).2.outcome t =
          .resolved (["G"].map fun address =>
            samplePgcrypto.computeAddressHashPair address ⟨"k", none⟩) ↔
        ["G"].length < (some 1).getD batchHashThreshold ∨
          PoolState.BatchKept (samplePgcrypto.getPool 1) {}
            (batchTasks ["G"] ⟨"k", none⟩ fun _ => true)
            [.online 0, .message 0 (.result ⟨0, "G", none⟩)])) := by
  obtain ⟨t, hrun⟩ := Option.isSome_iff_exists.mp
    (show (run (PoolState.step (samplePgcrypto.getPool 1))
      (samplePgcrypto.batchComputeAddressHashes 1 ["G"] ⟨"k", none⟩ (some 1) (fun _ => true) {}).1
      [.online 0, .message 0 (.result ⟨0, "G", none⟩)]).isSome = true by decide +kernel)
  exact ⟨t, hrun, (batch_iff samplePgcrypto 1 [] _ _ _ _ _ rfl hrun).2.2⟩

/-- On eight workers a batch of 1009 addresses is not hashed, though no worker fails. -/
theorem batch_fails :
    ¬ ∀ (addresses : List String) (labels : List (PoolLabel HashTaskMessage HashResultMessage))
      (t : PoolState HashTaskMessage HashResultMessage),
      (∀ label ∈ labels, label.isWork = true) →
      run (PoolState.step (samplePgcrypto.getPool 8))
        (samplePgcrypto.batchComputeAddressHashes 8 addresses ⟨"k", none⟩ none (fun _ => true)
          {}).1 labels = some t → t.Resting →
      (samplePgcrypto.batchComputeAddressHashes 8 addresses ⟨"k", none⟩ none (fun _ => true)
          {}).2.outcome t =
        .resolved (addresses.map fun address =>
          samplePgcrypto.computeAddressHashPair address ⟨"k", none⟩) := by
  intro h
  have hlength : (List.replicate 1009 "G").length = 1009 := List.length_replicate
  have hworkers : resolveWorkerCount 8 = 8 := rfl
  have hthreshold : batchHashThreshold = 50 := rfl
  obtain ⟨labels, t, hwork, hrun, hrest, hfails⟩ := not_resolved_of_long samplePgcrypto 8
    (List.replicate 1009 "G") ⟨"k", none⟩ (by omega) (by omega)
  exact hfails (h _ labels t hwork hrun hrest)

end Pgcrypto

end Fluxora.Pii
