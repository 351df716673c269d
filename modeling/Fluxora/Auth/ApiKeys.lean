/-
# The life of API keys

Keys are created, rotated, revoked and looked up by calls that run side by side. Every
statement on the table is atomic, but a call has more than one: a rotation reads the row
before it updates it, and a lookup that has matched a digest under the previous pepper
writes the digest under the current one later, to the row with the id it has read,
whatever is in that row by then.
-/

import Fluxora.Auth.Middleware
import Fluxora.Lib.Transition

namespace Fluxora.Auth

open Lib Lib.JsText Lib.Transition

/-! ## Raw keys -/

/-- A raw key with its random part. -/
def generateRawKey (random : String) : String := "flx_" ++ random

def prefixLength : ℕ := 8

/-- The part of a raw key that rows are looked up by. -/
def lookupPrefix (rawKey : String) : String := String.ofList (rawKey.toList.take prefixLength)

def defaultScopes : List String := ["streams:read", "streams:write"]

/-! ## The table and the calls -/

/-- What has happened to keys, by their ids. -/
inductive KeyEvent
  | created (id rawKey : String)
  | rotated (id rawKey : String)
  | revoked (id : String)
  deriving DecidableEq

def KeyEvent.id : KeyEvent → String
  | .created id _ => id
  | .rotated id _ => id
  | .revoked id => id

/-- The raw key that an event has issued. -/
def KeyEvent.issued : KeyEvent → Option String
  | .created _ rawKey => some rawKey
  | .rotated _ rawKey => some rawKey
  | .revoked _ => none

/-- A rotation that has found its row and will update it. -/
structure PendingRotation where
  id : String
  scopes : List String
  deriving DecidableEq

/-- A digest on its way to a row, and how much had happened when the row was read. -/
structure PendingWrite where
  id : String
  keyHash : String
  readAt : ℕ
  deriving DecidableEq

/-- The table with the calls in flight, and all that has happened so far. -/
structure KeyState where
  rows : List ApiKeyRecord
  rotations : List PendingRotation
  writes : List PendingWrite
  log : List KeyEvent

def KeyState.empty : KeyState := ⟨[], [], [], []⟩

section

variable (env : AuthEnv)

/-- The pepper of a call: the current one, or the one of the time before the migration to
it. -/
def pepperOf (beforeMigration : Bool) : Option String :=
  (configured env.apiKeyPepper).bind fun pepper =>
    if beforeMigration then configured env.apiKeyPepperPrevious else some pepper

def hashKey (beforeMigration : Bool) (rawKey salt : String) : Option String :=
  (pepperOf env beforeMigration).map (hashWithPepper env rawKey salt)

namespace KeyState

variable (s : KeyState)

/-- `createApiKey`. Without a name or a pepper, or with an id that is taken, it fails. -/
def createApiKey (beforeMigration : Bool) (name : String) (scopes : List String)
    (id random salt : String) : KeyState :=
  let raw := generateRawKey random
  match hashKey env beforeMigration raw salt with
  | none => s
  | some keyHash =>
    if trim name.toList = [] ∨ id ∈ s.rows.map ApiKeyRecord.id then s
    else
      { s with
        rows := s.rows ++
          [{ id, keyHash, salt, keyPrefix := lookupPrefix raw, active := true
             scopes := if scopes = [] then defaultScopes else scopes }]
        log := s.log ++ [.created id raw] }

/-- `rotateApiKey` up to its update. -/
def readForRotation (id : String) : KeyState :=
  match s.rows.find? (·.id = id) with
  | none => s
  | some record =>
    if record.active then { s with rotations := s.rotations ++ [⟨id, record.scopes⟩] } else s

/-- The update of a rotation. -/
def rotate (beforeMigration : Bool) (i : ℕ) (random salt : String) : KeyState :=
  match s.rotations[i]? with
  | none => s
  | some rotation =>
    let raw := generateRawKey random
    match hashKey env beforeMigration raw salt with
    | none => { s with rotations := s.rotations.eraseIdx i }
    | some keyHash =>
      { s with
        rows := s.rows.map fun row =>
          if row.id = rotation.id then
            { row with keyHash, salt, keyPrefix := lookupPrefix raw, scopes := rotation.scopes }
          else row
        rotations := s.rotations.eraseIdx i
        log :=
          if rotation.id ∈ s.rows.map ApiKeyRecord.id then s.log ++ [.rotated rotation.id raw]
          else s.log }

/-- `revokeApiKey`. -/
def revoke (id : String) : KeyState :=
  { s with
    rows := s.rows.map fun row => if row.id = id then { row with active := false } else row
    log := if id ∈ s.rows.map ApiKeyRecord.id then s.log ++ [.revoked id] else s.log }

/-- `findRecordByRawKey` on the table. -/
def lookUp (rawKey : String) : Except String (Option ApiKeyRecord) :=
  findRecordByRawKey { env with apiKeys := .ok s.rows } rawKey

/-- `findActiveByPrefix`. -/
def candidates (rawKey : String) : List ApiKeyRecord :=
  if trim (lookupPrefix rawKey).toList = [] then []
  else s.rows.filter fun row => row.keyPrefix = lookupPrefix rawKey ∧ row.active

/-- The rows that a lookup matches under the previous pepper only, with their new
digests. -/
def rehashes (rawKey : String) : List (String × String) :=
  match pepperOf env false, pepperOf env true with
  | some pepper, some previous =>
    ((s.candidates rawKey).filter fun row =>
      !hashesMatch (hashWithPepper env rawKey row.salt pepper) row.keyHash &&
        hashesMatch (hashWithPepper env rawKey row.salt previous) row.keyHash).map fun row =>
      (row.id, hashWithPepper env rawKey row.salt pepper)
  | _, _ => []

/-- The part of a lookup that others can see: the writes it leaves behind. -/
def present (rawKey : String) : KeyState :=
  { s with
    writes := s.writes ++ (s.rehashes env rawKey).map fun (id, keyHash) =>
      ⟨id, keyHash, s.log.length⟩ }

/-- A digest reaches its row. -/
def updateKeyHash (i : ℕ) : KeyState :=
  match s.writes[i]? with
  | none => s
  | some write =>
    { s with
      rows := s.rows.map fun row =>
        if row.id = write.id then { row with keyHash := write.keyHash } else row
      writes := s.writes.eraseIdx i }

end KeyState

/-- The statements of the calls. -/
inductive KeyLabel
  | createApiKey (beforeMigration : Bool) (name : String) (scopes : List String)
      (id random salt : String)
  | readForRotation (id : String)
  | rotate (beforeMigration : Bool) (i : ℕ) (random salt : String)
  | revoke (id : String)
  | present (rawKey : String)
  | updateKeyHash (i : ℕ)

def keyStep (s : KeyState) : KeyLabel → Option KeyState
  | .createApiKey beforeMigration name scopes id random salt =>
    some (s.createApiKey env beforeMigration name scopes id random salt)
  | .readForRotation id => some (s.readForRotation id)
  | .rotate beforeMigration i random salt => some (s.rotate env beforeMigration i random salt)
  | .revoke id => some (s.revoke id)
  | .present rawKey => some (s.present env rawKey)
  | .updateKeyHash i => some (s.updateKeyHash i)

end

/-! ## What holders of keys expect -/

/-- The last that has happened to a key. -/
def lastEvent (log : List KeyEvent) (id : String) : Option KeyEvent :=
  (log.filter (·.id = id)).getLast?

/-- The raw key was issued for the key before its last rotation, or an earlier one. -/
def Superseded (log : List KeyEvent) (id rawKey : String) : Prop :=
  ∃ before later issue next, log = before ++ .rotated id next :: later ∧ issue ∈ before ∧
    issue.id = id ∧ issue.issued = some rawKey

structure RotationAtomic (env : AuthEnv) (s : KeyState) : Prop where
  /-- The raw key of the last rotation is good until a rotation or a revocation. -/
  current : ∀ id rawKey, lastEvent s.log id = some (.rotated id rawKey) →
    ∃ record, s.lookUp env rawKey = .ok (some record) ∧ record.id = id
  /-- The raw keys from before a rotation are good for nothing. -/
  superseded : ∀ id rawKey, Superseded s.log id rawKey →
    ∀ record, s.lookUp env rawKey ≠ .ok (some record)
  /-- A revoked key is never found. -/
  revoked : ∀ id, .revoked id ∈ s.log →
    ∀ rawKey record, s.lookUp env rawKey = .ok (some record) → record.id ≠ id

/-! ## Random values and digests -/

/-- No two digests of raw keys and salts in use are the same, under the peppers in use, and
a digest has 32 bytes. -/
structure CollisionFree (env : AuthEnv) (rawKeys salts : Set String) : Prop where
  digest : ∀ key text, (hexBytes (env.hmacSha256 key text).toList).length = digestBytes
  injective : ∀ before before' pepper pepper' salt salt' rawKey rawKey',
    pepperOf env before = some pepper → pepperOf env before' = some pepper' →
    salt ∈ salts → salt' ∈ salts → rawKey ∈ rawKeys → rawKey' ∈ rawKeys →
    hexBytes (env.hmacSha256 pepper (salt ++ rawKey)).toList =
      hexBytes (env.hmacSha256 pepper' (salt' ++ rawKey')).toList →
    pepper = pepper' ∧ salt ++ rawKey = salt' ++ rawKey'

/-- Raw keys and salts are among those in use, and a new raw key is a new one. -/
def Drawn (rawKeys salts : Set String) (s : KeyState) : KeyLabel → Prop
  | .createApiKey _ _ _ _ random salt =>
    generateRawKey random ∈ rawKeys ∧ salt ∈ salts ∧
      some (generateRawKey random) ∉ s.log.map KeyEvent.issued
  | .rotate _ _ random salt =>
    generateRawKey random ∈ rawKeys ∧ salt ∈ salts ∧
      some (generateRawKey random) ∉ s.log.map KeyEvent.issued
  | .present rawKey => rawKey ∈ rawKeys
  | _ => True

/-- No digest is written to an active row that has been rotated since the row was read,
and no row is rotated that has been revoked since. -/
def Undisturbed (env : AuthEnv) (s : KeyState) : KeyLabel → Prop
  | .rotate beforeMigration i _ _ =>
    ∀ rotation, s.rotations[i]? = some rotation → (pepperOf env beforeMigration).isSome →
      ∀ row ∈ s.rows, row.id = rotation.id → row.active = true
  | .updateKeyHash i =>
    ∀ write, s.writes[i]? = some write →
      (∃ row ∈ s.rows, row.id = write.id ∧ row.active = true) →
        ∀ rawKey, .rotated write.id rawKey ∉ s.log.drop write.readAt
  | _ => True

end Fluxora.Auth
