/-
# The ban store

Every process keeps the bans it knows in a local cache, and all of them write to one Redis.
A check looks into the cache first and asks Redis when it finds nothing there; what Redis
has is copied to the cache for the time that is left. When Redis fails, checks refuse.

A command to Redis is sent, carried out and answered at three moments, and in between other
calls go on. It can fail at any time, carried out or not.
-/

import Mathlib.Data.Rat.Floor
import Fluxora.Lib.Transition
import Fluxora.Lib.TtlTable

namespace Fluxora.Redis.Bans

open Lib.Transition

/-! ## Keys -/

def banKeyPrefix : String := "fluxora:ws:ban:"

/-- SHA-256 in hexadecimal digits. No collision of it is known. -/
structure Digest where
  hex : String → String
  injective : Function.Injective hex
  ne_unknown : ∀ ip, hex ip ≠ "unknown"

variable (digest : Digest)

def sanitiseIp (ip : String) : String := if ip = "" then "unknown" else digest.hex ip

def buildKey (ip : String) : String := banKeyPrefix ++ sanitiseIp digest ip

/-! ## The local store -/

structure BanCheckResult where
  banned : Bool
  /-- When the ban ends. -/
  expiry : Option ℤ := none
  deriving DecidableEq

structure InMemoryBanStore where
  bans : String → Option ℤ := fun _ => none

namespace InMemoryBanStore

variable (store : InMemoryBanStore) (now : ℤ) (ip : String)

def delete : InMemoryBanStore := ⟨Function.update store.bans ip none⟩

def isBanned : BanCheckResult × InMemoryBanStore :=
  match store.bans ip with
  | none => (⟨false, none⟩, store)
  | some expiry =>
    if expiry = 0 then (⟨false, none⟩, store)
    else if now < expiry then (⟨true, some expiry⟩, store)
    else (⟨false, none⟩, store.delete ip)

def ban (ttlSeconds : ℤ) : Except String InMemoryBanStore :=
  if ttlSeconds ≤ 0 then
    .error s!"Invalid ttlSeconds: {ttlSeconds}. Must be a positive integer."
  else .ok ⟨Function.update store.bans ip (some (now + ttlSeconds * 1000))⟩

def unban : InMemoryBanStore := store.delete ip

end InMemoryBanStore

/-! ## The store in Redis -/

/-- The values are the times at which the bans end. -/
abbrev RedisTable : Type := Lib.TtlTable.Table String ℤ

inductive RedisCommand
  | get (key : String)
  | set (key : String) (value ex : ℤ)
  | del (key : String)

/-- A command is carried out. Only `GET` has a result. -/
def RedisCommand.execute (redis : RedisTable) (now : ℤ) : RedisCommand → RedisTable × Option ℤ
  | .get key => (redis, Lib.TtlTable.get redis now key)
  | .set key value ex => (Lib.TtlTable.set redis now key value (ex * 1000), none)
  | .del key => (Lib.TtlTable.del redis key, none)

/-- `RedisBanStore.isBanned` at the answer to its `GET`: the result, or `none` if the entry is
to be deleted first. -/
def RedisBanStore.checked (now : ℤ) : Option ℤ → Option BanCheckResult
  | none => some ⟨false, none⟩
  | some expiry => if expiry ≤ now then none else some ⟨true, some expiry⟩

/-! ## The store of a process -/

structure HybridBanStore where
  usingFallback : Bool := false
  fallbackModeCount : ℕ := 0
  localCache : InMemoryBanStore := {}
  fallback : InMemoryBanStore := {}

namespace HybridBanStore

variable (store : HybridBanStore) (now : ℤ) (ip : String)

/-- A Redis operation has failed. -/
def failed : HybridBanStore :=
  { store with usingFallback := true, fallbackModeCount := store.fallbackModeCount + 1 }

def recovered : HybridBanStore := { store with usingFallback := false }

/-- `isBanned` after the answer of the primary store: a ban is copied to the local cache. -/
def accept (result : BanCheckResult) : BanCheckResult × HybridBanStore :=
  match result.expiry with
  | none => (result, store.recovered)
  | some expiry =>
    match store.localCache.ban now ip ⌈((expiry - now : ℤ) : ℚ) / 1000⌉ with
    | .ok cache => (result, { store with localCache := cache }.recovered)
    | .error _ => (⟨true, none⟩, store.failed)

/-- `ban` when the primary store has failed. -/
def banFallback (ttlSeconds : ℤ) : HybridBanStore :=
  match store.fallback.ban now ip ttlSeconds with
  | .ok fallback => { store.failed with fallback := fallback }
  | .error _ => store.failed

end HybridBanStore

/-! ## What is ordered -/

abbrev Process : Type := ℕ

/-- The bans and unbans that have been ordered. -/
structure BanLedger where
  /-- When the bans of an address end, as they were recorded by any process. -/
  recorded : String → List ℤ := fun _ => []
  /-- When the last ban of an address by a process ends, unless the process has undone it. -/
  ordered : Process → String → Option ℤ := fun _ _ => none
  /-- How many bans of an address there were when an unban of it by a process started that
  has fully succeeded. -/
  lifted : Process → String → Option ℕ := fun _ _ => none

namespace BanLedger

variable (ledger : BanLedger) (p : Process) (ip : String)

def record (expiry : ℤ) : BanLedger :=
  { ledger with
    recorded := Function.update ledger.recorded ip (ledger.recorded ip ++ [expiry])
    ordered := Function.update ledger.ordered p
      (Function.update (ledger.ordered p) ip (some expiry)) }

def undo : BanLedger :=
  { ledger with
    ordered := Function.update ledger.ordered p (Function.update (ledger.ordered p) ip none) }

def lift (bans : Option ℕ) : BanLedger :=
  if bans = none then ledger
  else { ledger with
    lifted := Function.update ledger.lifted p (Function.update (ledger.lifted p) ip bans) }

/-- The process has lifted the last ban of the address. -/
def Lifted : Prop := ledger.lifted p ip = some (ledger.recorded ip).length

end BanLedger

/-! ## Runs -/

inductive BanOp
  /-- `isBanned`, with its `GET`. -/
  | check
  /-- `isBanned`, with the `DEL` of an entry that is over. -/
  | cleanUp
  | ban (ttlSeconds expiry : ℤ)
  /-- With the number of bans before the call, if none of them was still going on. -/
  | unban (bans : Option ℕ)
  deriving DecidableEq

def BanOp.isBan : BanOp → Bool
  | .ban _ _ => true
  | _ => false

/-- A call that waits for Redis. -/
structure BanCall where
  process : Process
  ip : String
  op : BanOp
  /-- What Redis has answered, once the command has been carried out. -/
  reply : Option (Option ℤ) := none
  deriving DecidableEq

def BanCall.command (call : BanCall) : RedisCommand :=
  match call.op with
  | .check => .get (buildKey digest call.ip)
  | .cleanUp => .del (buildKey digest call.ip)
  | .ban ttlSeconds expiry => .set (buildKey digest call.ip) expiry ttlSeconds
  | .unban _ => .del (buildKey digest call.ip)

structure BanAnswer where
  process : Process
  ip : String
  result : BanCheckResult
  deriving DecidableEq

structure BanState where
  clock : ℤ := 0
  redis : RedisTable := fun _ => none
  stores : Process → HybridBanStore := fun _ => {}
  calls : List BanCall := []
  ledger : BanLedger := {}
  /-- What the last step has answered to the caller of `isBanned`. -/
  answer : Option BanAnswer := none

inductive BanLabel
  | isBanned (p : Process) (ip : String) (now : ℤ)
  | ban (p : Process) (ip : String) (ttlSeconds : ℤ) (now : ℤ)
  | unban (p : Process) (ip : String) (now : ℤ)
  /-- Redis carries out the command of a call. -/
  | execute (i : ℕ) (now : ℤ)
  /-- The answer of Redis comes to a call. -/
  | reply (i : ℕ) (now : ℤ)
  /-- The command of a call fails. -/
  | fail (i : ℕ) (now : ℤ)

def BanLabel.now : BanLabel → ℤ
  | .isBanned _ _ now => now
  | .ban _ _ _ now => now
  | .unban _ _ now => now
  | .execute _ now => now
  | .reply _ now => now
  | .fail _ now => now

namespace BanState

variable (s : BanState) (p : Process) (ip : String) (now : ℤ)

def setStore (store : HybridBanStore) : BanState :=
  { s with stores := Function.update s.stores p store }

def setCache (cache : InMemoryBanStore) : BanState :=
  s.setStore p { s.stores p with localCache := cache }

def send (op : BanOp) : BanState := { s with calls := s.calls ++ [{ process := p, ip, op }] }

def finish (i : ℕ) : BanState := { s with calls := s.calls.eraseIdx i }

def tell (result : BanCheckResult) : BanState := { s with answer := some ⟨p, ip, result⟩ }

/-- A ban of the address is going on. -/
def banning : Bool := s.calls.any fun call => call.ip = ip && call.op.isBan

def isBanned : BanState :=
  let (result, cache) := (s.stores p).localCache.isBanned now ip
  let s := s.setCache p cache
  if result.banned then s.tell p ip result else s.send p ip .check

def ban (ttlSeconds : ℤ) : BanState :=
  match (s.stores p).localCache.ban now ip ttlSeconds with
  | .error _ => s
  | .ok cache =>
    let expiry := now + ttlSeconds * 1000
    { (s.setCache p cache).send p ip (.ban ttlSeconds expiry) with
      ledger := s.ledger.record p ip expiry }

def unban : BanState :=
  let bans := if s.banning ip then none else some (s.ledger.recorded ip).length
  { (s.setCache p ((s.stores p).localCache.unban ip)).send p ip (.unban bans) with
    ledger := s.ledger.undo p ip }

def execute (i : ℕ) (call : BanCall) : BanState :=
  let (redis, result) := (call.command digest).execute s.redis now
  { s with
    redis := redis
    calls := s.calls.modify i fun call => { call with reply := some result } }

/-- The answer of Redis comes to a call. -/
def reply (i : ℕ) (call : BanCall) (result : Option ℤ) : BanState :=
  let store := s.stores call.process
  match call.op with
  | .check =>
    match RedisBanStore.checked now result with
    | none =>
      { s with calls := s.calls.modify i fun call =>
          { call with op := .cleanUp, reply := none } }
    | some result =>
      let (result, store) := store.accept now call.ip result
      ((s.finish i).setStore call.process store).tell call.process call.ip result
  | .cleanUp =>
    ((s.finish i).setStore call.process store.recovered).tell call.process call.ip ⟨false, none⟩
  | .ban _ _ => (s.finish i).setStore call.process store.recovered
  | .unban bans => { s.finish i with ledger := s.ledger.lift call.process call.ip bans }

/-- The command of a call fails. A check refuses; a ban or an unban turns to the fallback. -/
def fail (i : ℕ) (call : BanCall) : BanState :=
  let store := s.stores call.process
  match call.op with
  | .check | .cleanUp =>
    ((s.finish i).setStore call.process store.failed).tell call.process call.ip ⟨true, none⟩
  | .ban ttlSeconds _ =>
    (s.finish i).setStore call.process (store.banFallback now call.ip ttlSeconds)
  | .unban _ =>
    (s.finish i).setStore call.process
      { store with fallback := store.fallback.unban call.ip }

def step (label : BanLabel) : Option BanState :=
  let s' := { s with clock := label.now, answer := none }
  if label.now < s.clock then none
  else
    match label with
    | .isBanned p ip now => some (s'.isBanned p ip now)
    | .ban p ip ttlSeconds now => some (s'.ban p ip now ttlSeconds)
    | .unban p ip _ => some (s'.unban p ip)
    | .execute i now => (s.calls[i]?).bind fun call =>
      if call.reply = none then some (s'.execute digest now i call) else none
    | .reply i now => (s.calls[i]?).bind fun call =>
      call.reply.map fun result => s'.reply now i call result
    | .fail i now => (s.calls[i]?).map fun call => s'.fail now i call

end BanState

end Fluxora.Redis.Bans
