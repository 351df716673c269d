/-
# The lock of the admin state

Processes take the lock by setting a key in Redis, with a lease as its time to live. A process
whose Redis fails takes a lock file instead, which others may remove once it is as old as the
lease. The two ways know nothing of each other.

The lock value of an acquisition is its number. Redis and the processes measure time alike.
-/

import Fluxora.Lib.Transition
import Fluxora.Lib.TtlTable

namespace Fluxora.State

open Lib Lib.TtlTable Lib.Transition

/-! ## Acquisitions -/

inductive LockBackend
  | redis
  | file
  /-- A process without Redis, whose client answers that every key is set. -/
  | noOp
  deriving DecidableEq

inductive LockProgress
  /-- `SET … NX PX` is sent. -/
  | requesting
  /-- The reply is on its way, with the time at which the key was set. -/
  | answered (since : Option ℤ)
  /-- The lock file is to be created. -/
  | creating
  /-- There is a lock file. -/
  | statting
  /-- The lock file is as old as the lease, it was last written at that time. -/
  | restatting (mtimeMs : ℤ)
  /-- It still was, and is to be removed. -/
  | stealing
  | held (backend : LockBackend) (since : ℤ)
  /-- The key is to be deleted if it holds the value. -/
  | releasing
  /-- The lock file was read and held the value, and is to be removed. -/
  | unlinking
  | ended

structure LockSession where
  process : ℕ
  /-- The process runs without Redis. -/
  noOp : Bool
  progress : LockProgress

structure LockFile where
  value : ℕ
  mtimeMs : ℤ

structure LockWorld where
  clock : ℤ := 0
  redis : Table Unit ℕ := fun _ => none
  file : Option LockFile := none
  sessions : List LockSession := []
  /-- Acquisitions whose request failed, and may be carried out all the same. -/
  strays : List ℕ := []

/-- What the processes and Redis do. -/
inductive LockStep
  | acquire (process : ℕ) (noOp : Bool)
  | setNx (i : ℕ)
  | resume (i : ℕ)
  | redisFails (i : ℕ)
  | stray (i : ℕ)
  | create (i : ℕ)
  | stat (i : ℕ)
  | restat (i : ℕ)
  | steal (i : ℕ)
  /-- The acquisition takes too long. -/
  | giveUp (i : ℕ)
  | release (i : ℕ)
  | delIfValue (i : ℕ)
  | unlink (i : ℕ)
  /-- `release` of the lock itself, not of an acquisition. -/
  | releaseNamespace (process : ℕ)
  | tick (ms : ℕ)

namespace LockWorld

variable (leaseMs : ℕ) (w : LockWorld)

/-- The value of the key. -/
def lockKey : Option ℕ := get w.redis w.clock ()

def move (i : ℕ) (s : LockSession) (progress : LockProgress) : LockWorld :=
  { w with sessions := w.sessions.set i { s with progress := progress } }

def setNx (i : ℕ) (s : LockSession) : Option LockWorld :=
  match s.progress with
  | .requesting =>
    if s.noOp then some (w.move i s (.answered (some w.clock)))
    else
      match w.lockKey with
      | some _ => some (w.move i s (.answered none))
      | none => some { w.move i s (.answered (some w.clock)) with
          redis := set w.redis w.clock () i leaseMs }
  | _ => none

/-- An acquisition goes on with the reply: it has the lock, or asks again. -/
def resume (i : ℕ) (s : LockSession) : Option LockWorld :=
  match s.progress with
  | .answered (some since) =>
    some (w.move i s (.held (if s.noOp then .noOp else .redis) since))
  | .answered none => some (w.move i s .requesting)
  | _ => none

/-- An error instead of the reply, before the request is carried out or after it. -/
def redisFails (i : ℕ) (s : LockSession) : Option LockWorld :=
  if s.noOp then none
  else
    match s.progress with
    | .requesting => some { w.move i s .creating with strays := i :: w.strays }
    | .answered _ => some (w.move i s .creating)
    | _ => none

/-- A request that nobody waits for is carried out. -/
def stray (i : ℕ) : Option LockWorld :=
  if i ∈ w.strays then
    some { w with
      strays := w.strays.erase i
      redis := match w.lockKey with
        | some _ => w.redis
        | none => set w.redis w.clock () i leaseMs }
  else none

def create (i : ℕ) (s : LockSession) : Option LockWorld :=
  match s.progress with
  | .creating =>
    match w.file with
    | some _ => some (w.move i s .statting)
    | none => some { w.move i s (.held .file w.clock) with file := some ⟨i, w.clock⟩ }
  | _ => none

def stat (i : ℕ) (s : LockSession) : Option LockWorld :=
  match s.progress with
  | .statting =>
    match w.file with
    | some file =>
      if w.clock - file.mtimeMs < leaseMs then some (w.move i s .creating)
      else some (w.move i s (.restatting file.mtimeMs))
    | none => some (w.move i s .creating)
  | _ => none

def restat (i : ℕ) (s : LockSession) : Option LockWorld :=
  match s.progress with
  | .restatting mtimeMs =>
    match w.file with
    | some file =>
      if file.mtimeMs ≠ mtimeMs ∨ w.clock - file.mtimeMs < leaseMs then
        some (w.move i s .creating)
      else some (w.move i s .stealing)
    | none => some (w.move i s .creating)
  | _ => none

/-- The lock file is removed, whosever it is by now. -/
def steal (i : ℕ) (s : LockSession) : Option LockWorld :=
  match s.progress with
  | .stealing => some { w.move i s .creating with file := none }
  | _ => none

def giveUp (i : ℕ) (s : LockSession) : Option LockWorld :=
  match s.progress with
  | .requesting => some (w.move i s .ended)
  | .creating => some (w.move i s .ended)
  | _ => none

/-- The lock is given back. A lock file is read first. -/
def release (i : ℕ) (s : LockSession) : Option LockWorld :=
  match s.progress with
  | .held .redis _ => some (w.move i s .releasing)
  | .held .noOp _ => some (w.move i s .ended)
  | .held .file _ =>
    if w.file.any (·.value = i) then some (w.move i s .unlinking) else some (w.move i s .ended)
  | _ => none

def delIfValue (i : ℕ) (s : LockSession) : Option LockWorld :=
  match s.progress with
  | .releasing => some { w.move i s .ended with
      redis := if w.lockKey = some i then del w.redis () else w.redis }
  | _ => none

/-- The lock file that was read is removed, or one that has taken its place. -/
def unlink (i : ℕ) (s : LockSession) : Option LockWorld :=
  match s.progress with
  | .unlinking => some { w.move i s .ended with file := none }
  | _ => none

/-- The key is deleted, and no acquisition of the process holds it any more. -/
def releaseNamespace (process : ℕ) : LockWorld :=
  { w with
    redis := del w.redis ()
    sessions := w.sessions.map fun s =>
      match s.progress with
      | .held .redis _ => if s.process = process then { s with progress := .ended } else s
      | _ => s }

def step (w : LockWorld) : LockStep → Option LockWorld
  | .acquire process noOp =>
    some { w with sessions := w.sessions ++ [⟨process, noOp, .requesting⟩] }
  | .setNx i => w.sessions[i]?.bind (w.setNx leaseMs i)
  | .resume i => w.sessions[i]?.bind (w.resume i)
  | .redisFails i => w.sessions[i]?.bind (w.redisFails i)
  | .stray i => w.stray leaseMs i
  | .create i => w.sessions[i]?.bind (w.create i)
  | .stat i => w.sessions[i]?.bind (w.stat leaseMs i)
  | .restat i => w.sessions[i]?.bind (w.restat leaseMs i)
  | .steal i => w.sessions[i]?.bind (w.steal i)
  | .giveUp i => w.sessions[i]?.bind (w.giveUp i)
  | .release i => w.sessions[i]?.bind (w.release i)
  | .delIfValue i => w.sessions[i]?.bind (w.delIfValue i)
  | .unlink i => w.sessions[i]?.bind (w.unlink i)
  | .releaseNamespace process => some (w.releaseNamespace process)
  | .tick ms => some { w with clock := w.clock + ms }

/-! ## The rule and its condition -/

/-- An acquisition has the lock, its lease lasts, and it is not given back. -/
def HoldsBy (backend : LockBackend) (s : LockSession) : Prop :=
  ∃ since, s.progress = .held backend since ∧ w.clock < since + leaseMs

/-- The lock is with one process. -/
def MutualExclusion : Prop :=
  ∀ s ∈ w.sessions, ∀ t ∈ w.sessions, ∀ backend backend',
    w.HoldsBy leaseMs backend s → w.HoldsBy leaseMs backend' t → s.process = t.process

/-- A release removes a key or a lock file only if it is the releaser's. -/
def ReleasesOwn (w' : LockWorld) : LockStep → Prop
  | .delIfValue i => ∀ value ∈ w.lockKey, w'.lockKey = some value ∨ value = i
  | .unlink i => ∀ file ∈ w.file, w'.file = some file ∨ file.value = i
  | .releaseNamespace process => ∀ value ∈ w.lockKey, w'.lockKey = some value ∨
      ∃ s ∈ w.sessions[value]?, s.process = process
  | _ => True

/-- A lock is had one way while no other process has it another way, a lock file that is removed
is the one that was looked at, and a lock that is released itself is held through Redis. -/
def Undisturbed : LockStep → Prop
  | .resume i => ∀ s ∈ w.sessions[i]?, ∀ since, s.progress = .answered (some since) →
      w.clock < since + leaseMs → ∀ t ∈ w.sessions, ∀ backend, w.HoldsBy leaseMs backend t →
        (backend = .redis → s.noOp = true) → t.process = s.process
  | .create i => ∀ s ∈ w.sessions[i]?, s.progress = .creating → w.file = none →
      ∀ t ∈ w.sessions, ∀ backend, w.HoldsBy leaseMs backend t → backend ≠ .file →
        t.process = s.process
  | .steal _ => ∀ file ∈ w.file, leaseMs ≤ w.clock - file.mtimeMs
  | .unlink i => ∀ file ∈ w.file, file.value = i
  | .releaseNamespace process => ∀ value ∈ w.lockKey, ∃ s ∈ w.sessions[value]?,
      s.process = process ∧ ∃ since, s.progress = .held .redis since
  | _ => True

end LockWorld

/-! ## Locks are where they were put -/

/-- The lock that an acquisition has or is about to have. -/
def LockSession.claim (s : LockSession) : Option (LockBackend × ℤ) :=
  match s.progress with
  | .held backend since => some (backend, since)
  | .answered (some since) => some (if s.noOp then .noOp else .redis, since)
  | _ => none

namespace LockWorld

/-- The key or the lock file of an acquisition is there. -/
def InPlace (leaseMs : ℕ) (w : LockWorld) (i : ℕ) : LockBackend × ℤ → Prop
  | (.redis, since) => w.redis () = some ⟨i, since + leaseMs⟩
  | (.file, since) => w.file = some ⟨i, since⟩
  | (.noOp, _) => True

/-- What an acquisition has is there for the lease. -/
def Backed (leaseMs : ℕ) (w : LockWorld) : Prop :=
  ∀ (i : ℕ) (s : LockSession), w.sessions[i]? = some s → ∀ claim ∈ s.claim,
    w.clock < claim.2 + leaseMs → w.InPlace leaseMs i claim

variable {leaseMs : ℕ} {w w' : LockWorld} {i : ℕ} {s : LockSession} {progress : LockProgress}
  {label : LockStep}

theorem lockKey_eq_some_iff {value : ℕ} :
    w.lockKey = some value ↔ ∃ time, w.redis () = some ⟨value, time⟩ ∧ w.clock ≤ time :=
  get_eq_some_iff

theorem lockKey_of_inPlace {since : ℤ} (h : w.InPlace leaseMs i (.redis, since))
    (hlasts : w.clock < since + leaseMs) : w.lockKey = some i :=
  lockKey_eq_some_iff.mpr ⟨_, h, le_of_lt hlasts⟩

variable {new : LockSession}

theorem Backed.set (h : w.Backed leaseMs) (hsessions : w'.sessions = w.sessions.set i new)
    (hclock : w'.clock = w.clock)
    (hothers : ∀ j claim, j ≠ i → w.clock < claim.2 + leaseMs → w.InPlace leaseMs j claim →
      w'.InPlace leaseMs j claim)
    (hown : ∀ claim ∈ new.claim, w.clock < claim.2 + leaseMs → w'.InPlace leaseMs i claim) :
    w'.Backed leaseMs := by
  intro j t ht claim hclaim hlasts
  rw [hclock] at hlasts
  rw [hsessions, List.getElem?_set] at ht
  split_ifs at ht with hij hlt
  · cases ht
    exact hij ▸ hown claim hclaim hlasts
  · exact hothers j claim (Ne.symm hij) hlasts (h j t ht claim hclaim hlasts)

theorem Backed.move (h : w.Backed leaseMs) (hs : w.sessions[i]? = some s)
    (hsessions : w'.sessions = w.sessions.set i { s with progress := progress })
    (hclock : w'.clock = w.clock) (hredis : w'.redis = w.redis) (hfile : w'.file = w.file)
    (hclaim : ∀ claim ∈ LockSession.claim { s with progress := progress }, claim ∈ s.claim) :
    w'.Backed leaseMs := by
  have hsame : ∀ j claim, w.InPlace leaseMs j claim → w'.InPlace leaseMs j claim := by
    intro j ⟨backend, since⟩ hplace
    cases backend with
    | redis => exact (congrFun hredis ()).trans hplace
    | file => exact hfile.trans hplace
    | noOp => trivial
  apply h.set hsessions hclock
  · exact fun j claim _ _ hplace => hsame j claim hplace
  · exact fun claim hmem hlasts => hsame i claim (h i s hs claim (hclaim claim hmem) hlasts)

theorem inPlace_of_set (hfree : w.lockKey = none) {j : ℕ} {claim : LockBackend × ℤ}
    (hlasts : w.clock < claim.2 + leaseMs) (hplace : w.InPlace leaseMs j claim)
    (hfile : w'.file = w.file) : w'.InPlace leaseMs j claim := by
  obtain ⟨backend, since⟩ := claim
  cases backend with
  | redis =>
    rw [lockKey_of_inPlace hplace hlasts] at hfree
    cases hfree
  | file => exact hfile.trans hplace
  | noOp => trivial

theorem Backed.setNx (h : w.Backed leaseMs) (hs : w.sessions[i]? = some s)
    (hstep : w.setNx leaseMs i s = some w') : w'.Backed leaseMs := by
  rw [LockWorld.setNx] at hstep
  split at hstep
  · split_ifs at hstep with hnoOp
    · cases hstep
      refine h.set rfl rfl (fun j claim _ _ hplace => hplace) ?_
      intro claim hclaim _
      rw [LockSession.claim, hnoOp] at hclaim
      cases hclaim
      trivial
    · cases hkey : w.lockKey with
      | some =>
        rw [hkey] at hstep
        cases hstep
        exact h.move hs rfl rfl rfl rfl nofun
      | none =>
        rw [hkey] at hstep
        cases hstep
        refine h.set rfl rfl ?_ ?_
        · intro j claim _ hlasts hplace
          apply inPlace_of_set hkey hlasts hplace
          rfl
        · intro claim hclaim _
          rw [LockSession.claim] at hclaim
          dsimp only at hclaim
          rw [if_neg hnoOp] at hclaim
          cases hclaim
          change TtlTable.set w.redis w.clock () i leaseMs () = _
          exact set_self
  · cases hstep

theorem eq_of_resume (hstep : w.resume i s = some w') :
    (∃ since, s.progress = .answered (some since) ∧
      w' = w.move i s (.held (if s.noOp then .noOp else .redis) since)) ∨
    s.progress = .answered none ∧ w' = w.move i s .requesting := by
  rw [LockWorld.resume] at hstep
  split at hstep
  · exact .inl ⟨_, ‹_›, (Option.some.inj hstep).symm⟩
  · exact .inr ⟨‹_›, (Option.some.inj hstep).symm⟩
  · cases hstep

theorem Backed.resume (h : w.Backed leaseMs) (hs : w.sessions[i]? = some s)
    (hstep : w.resume i s = some w') : w'.Backed leaseMs := by
  rcases eq_of_resume hstep with ⟨since, hanswered, rfl⟩ | ⟨-, rfl⟩
  · refine h.move hs rfl rfl rfl rfl ?_
    intro claim hclaim
    cases hclaim
    rw [LockSession.claim, hanswered]
    rfl
  · exact h.move hs rfl rfl rfl rfl nofun

theorem eq_of_create (hstep : w.create i s = some w') :
    s.progress = .creating ∧ (w.file ≠ none ∧ w' = w.move i s .statting ∨
      w.file = none ∧
        w' = { w.move i s (.held .file w.clock) with file := some ⟨i, w.clock⟩ }) := by
  rw [LockWorld.create] at hstep
  split at hstep
  · apply And.intro ‹_›
    cases hfile : w.file with
    | some =>
      rw [hfile] at hstep
      exact .inl ⟨nofun, (Option.some.inj hstep).symm⟩
    | none =>
      rw [hfile] at hstep
      exact .inr ⟨rfl, (Option.some.inj hstep).symm⟩
  · cases hstep

theorem Backed.create (h : w.Backed leaseMs) (hs : w.sessions[i]? = some s)
    (hstep : w.create i s = some w') : w'.Backed leaseMs := by
  obtain ⟨-, ⟨-, rfl⟩ | ⟨hfile, rfl⟩⟩ := eq_of_create hstep
  · exact h.move hs rfl rfl rfl rfl nofun
  · refine h.set rfl rfl ?_ ?_
    · intro j ⟨backend, since⟩ _ _ hplace
      cases backend with
      | redis => exact hplace
      | file =>
        rw [InPlace, hfile] at hplace
        cases hplace
      | noOp => trivial
    · intro claim hclaim _
      cases hclaim
      rfl

theorem Backed.remove (h : w.Backed leaseMs)
    (hsessions : w'.sessions = w.sessions.set i { s with progress := progress })
    (hclock : w'.clock = w.clock) (hredis : w'.redis = w.redis)
    (hclaim : LockSession.claim { s with progress := progress } = none)
    (hfile : ∀ j since, j ≠ i → w.clock < since + leaseMs → w.file ≠ some ⟨j, since⟩) :
    w'.Backed leaseMs := by
  apply h.set hsessions hclock
  · intro j ⟨backend, since⟩ hne hlasts hplace
    cases backend with
    | redis => exact (congrFun hredis ()).trans hplace
    | file => exact absurd hplace (hfile j since hne hlasts)
    | noOp => trivial
  · intro claim hmem
    rw [hclaim] at hmem
    cases hmem

/-- An acquisition goes on and has nothing then, Redis and the file stay. -/
structure Quiet (w w' : LockWorld) (i : ℕ) (s : LockSession) : Prop where
  clock : w'.clock = w.clock
  redis : w'.redis = w.redis
  file : w'.file = w.file
  sessions : ∃ progress, w'.sessions = w.sessions.set i { s with progress := progress } ∧
    LockSession.claim { s with progress := progress } = none

theorem quiet_move (hclaim : LockSession.claim { s with progress := progress } = none) :
    Quiet w (w.move i s progress) i s := ⟨rfl, rfl, rfl, progress, rfl, hclaim⟩

theorem quiet_of_redisFails (hstep : w.redisFails i s = some w') : Quiet w w' i s := by
  rw [LockWorld.redisFails] at hstep
  split_ifs at hstep
  split at hstep
  · cases hstep
    exact ⟨rfl, rfl, rfl, .creating, rfl, rfl⟩
  · cases hstep
    exact quiet_move rfl
  · cases hstep

theorem quiet_of_stat (hstep : w.stat leaseMs i s = some w') : Quiet w w' i s := by
  rw [LockWorld.stat] at hstep
  split at hstep
  · split at hstep
    · split_ifs at hstep
      · cases hstep
        exact quiet_move rfl
      · cases hstep
        exact quiet_move rfl
    · cases hstep
      exact quiet_move rfl
  · cases hstep

theorem quiet_of_restat (hstep : w.restat leaseMs i s = some w') : Quiet w w' i s := by
  rw [LockWorld.restat] at hstep
  split at hstep
  · split at hstep
    · split_ifs at hstep
      · cases hstep
        exact quiet_move rfl
      · cases hstep
        exact quiet_move rfl
    · cases hstep
      exact quiet_move rfl
  · cases hstep

theorem quiet_of_giveUp (hstep : w.giveUp i s = some w') : Quiet w w' i s := by
  rw [LockWorld.giveUp] at hstep
  split at hstep
  · cases hstep
    exact quiet_move rfl
  · cases hstep
    exact quiet_move rfl
  · cases hstep

theorem quiet_of_release (hstep : w.release i s = some w') : Quiet w w' i s := by
  rw [LockWorld.release] at hstep
  split at hstep
  · cases hstep
    exact quiet_move rfl
  · cases hstep
    exact quiet_move rfl
  · split_ifs at hstep
    · cases hstep
      exact quiet_move rfl
    · cases hstep
      exact quiet_move rfl
  · cases hstep

theorem Backed.quiet (h : w.Backed leaseMs) (hs : w.sessions[i]? = some s)
    (hquiet : Quiet w w' i s) : w'.Backed leaseMs := by
  obtain ⟨progress, hsessions, hclaim⟩ := hquiet.sessions
  apply h.move hs hsessions hquiet.clock hquiet.redis hquiet.file
  intro claim hmem
  rw [hclaim] at hmem
  cases hmem

theorem eq_of_steal (hstep : w.steal i s = some w') :
    w' = { w.move i s .creating with file := none } := by
  rw [LockWorld.steal] at hstep
  split at hstep
  · exact (Option.some.inj hstep).symm
  · cases hstep

theorem eq_of_unlink (hstep : w.unlink i s = some w') :
    w' = { w.move i s .ended with file := none } := by
  rw [LockWorld.unlink] at hstep
  split at hstep
  · exact (Option.some.inj hstep).symm
  · cases hstep

theorem eq_of_delIfValue (hstep : w.delIfValue i s = some w') :
    w' = { w.move i s .ended with
      redis := if w.lockKey = some i then del w.redis () else w.redis } := by
  rw [LockWorld.delIfValue] at hstep
  split at hstep
  · exact (Option.some.inj hstep).symm
  · cases hstep

theorem Backed.delIfValue (h : w.Backed leaseMs) (hstep : w.delIfValue i s = some w') :
    w'.Backed leaseMs := by
  obtain rfl := eq_of_delIfValue hstep
  refine h.set rfl rfl ?_ nofun
  intro j ⟨backend, since⟩ hne hlasts hplace
  cases backend with
  | redis =>
    have hother : w.lockKey ≠ some i := by
      rw [lockKey_of_inPlace hplace hlasts]
      exact fun hsame => hne (Option.some.inj hsame)
    rw [if_neg hother]
    exact hplace
  | file => exact hplace
  | noOp => trivial

theorem getElem?_releaseNamespace {process : ℕ}
    (hs : (w.releaseNamespace process).sessions[i]? = some s) :
    w.sessions[i]? = some s ∧ (∀ since, s.progress = .held .redis since → s.process ≠ process) ∨
      s.progress = .ended := by
  rw [LockWorld.releaseNamespace] at hs
  dsimp only at hs
  rw [List.getElem?_map, Option.map_eq_some_iff] at hs
  obtain ⟨old, hold, rfl⟩ := hs
  split
  · split_ifs with hprocess
    · exact .inr rfl
    · exact .inl ⟨hold, fun _ _ => hprocess⟩
  · next hother => exact .inl ⟨hold, fun since hheld => absurd hheld (hother since)⟩

theorem Backed.releaseNamespace (h : w.Backed leaseMs) {process : ℕ}
    (hheld : w.Undisturbed leaseMs (.releaseNamespace process)) :
    (w.releaseNamespace process).Backed leaseMs := by
  intro i s hs claim hclaim hlasts
  rcases getElem?_releaseNamespace hs with ⟨hold, hother⟩ | hended
  · obtain ⟨backend, since⟩ := claim
    have hplace := h i s hold _ hclaim hlasts
    cases backend with
    | redis =>
      -- the key is the acquisition's own, and the process would hold it no more
      obtain ⟨t, ht, hprocess, since', hredis⟩ := hheld i (lockKey_of_inPlace hplace hlasts)
      cases hold.symm.trans ht
      exact absurd hprocess (hother since' hredis)
    | file => exact hplace
    | noOp => trivial
  · rw [LockSession.claim, hended] at hclaim
    cases hclaim

theorem Backed.stray (h : w.Backed leaseMs) (hstep : w.stray leaseMs i = some w') :
    w'.Backed leaseMs := by
  rw [LockWorld.stray] at hstep
  split_ifs at hstep
  cases hstep
  intro j s hs claim hclaim hlasts
  have hplace := h j s hs claim hclaim hlasts
  cases hkey : w.lockKey with
  | some =>
    obtain ⟨backend, since⟩ := claim
    cases backend with
    | redis | file => exact hplace
    | noOp => trivial
  | none =>
    apply inPlace_of_set hkey hlasts hplace
    rfl

theorem Backed.acquire (h : w.Backed leaseMs) {process : ℕ} {noOp : Bool} :
    Backed leaseMs { w with sessions := w.sessions ++ [⟨process, noOp, .requesting⟩] } := by
  intro j s hs claim hclaim hlasts
  dsimp only at hs
  rw [List.getElem?_append] at hs
  have hplace : w.InPlace leaseMs j claim := by
    split_ifs at hs with hlt
    · exact h j s hs claim hclaim hlasts
    · obtain rfl := List.mem_singleton.mp (List.mem_of_getElem? hs)
      cases hclaim
  obtain ⟨backend, since⟩ := claim
  cases backend with
  | redis | file => exact hplace
  | noOp => trivial

theorem Backed.tick (h : w.Backed leaseMs) (ms : ℕ) :
    Backed leaseMs { w with clock := w.clock + ms } := by
  intro j s hs claim hclaim hlasts
  dsimp only at hlasts
  have hplace := h j s hs claim hclaim (by omega)
  obtain ⟨backend, since⟩ := claim
  cases backend with
  | redis | file => exact hplace
  | noOp => trivial

theorem Backed.step (h : w.Backed leaseMs) (hundisturbed : w.Undisturbed leaseMs label)
    (hstep : w.step leaseMs label = some w') : w'.Backed leaseMs := by
  cases label with
  | acquire =>
    cases hstep
    exact h.acquire
  | setNx =>
    obtain ⟨s, hs, hset⟩ := Option.bind_eq_some_iff.mp hstep
    exact h.setNx hs hset
  | resume =>
    obtain ⟨s, hs, hresume⟩ := Option.bind_eq_some_iff.mp hstep
    exact h.resume hs hresume
  | redisFails =>
    obtain ⟨s, hs, hfails⟩ := Option.bind_eq_some_iff.mp hstep
    exact h.quiet hs (quiet_of_redisFails hfails)
  | stray => exact h.stray hstep
  | create =>
    obtain ⟨s, hs, hcreate⟩ := Option.bind_eq_some_iff.mp hstep
    exact h.create hs hcreate
  | stat =>
    obtain ⟨s, hs, hstat⟩ := Option.bind_eq_some_iff.mp hstep
    exact h.quiet hs (quiet_of_stat hstat)
  | restat =>
    obtain ⟨s, hs, hrestat⟩ := Option.bind_eq_some_iff.mp hstep
    exact h.quiet hs (quiet_of_restat hrestat)
  | steal =>
    obtain ⟨s, hs, hsteal⟩ := Option.bind_eq_some_iff.mp hstep
    obtain rfl := eq_of_steal hsteal
    refine h.remove rfl rfl rfl rfl fun j since _ hlasts hfile => ?_
    have hstale := hundisturbed _ hfile
    dsimp only at hstale
    omega
  | giveUp =>
    obtain ⟨s, hs, hgiveUp⟩ := Option.bind_eq_some_iff.mp hstep
    exact h.quiet hs (quiet_of_giveUp hgiveUp)
  | release =>
    obtain ⟨s, hs, hrelease⟩ := Option.bind_eq_some_iff.mp hstep
    exact h.quiet hs (quiet_of_release hrelease)
  | delIfValue =>
    obtain ⟨s, hs, hdel⟩ := Option.bind_eq_some_iff.mp hstep
    exact h.delIfValue hdel
  | unlink =>
    obtain ⟨s, hs, hunlink⟩ := Option.bind_eq_some_iff.mp hstep
    obtain rfl := eq_of_unlink hunlink
    refine h.remove rfl rfl rfl rfl fun j since hne _ hfile => ?_
    exact hne (hundisturbed _ hfile)
  | releaseNamespace =>
    cases hstep
    exact h.releaseNamespace hundisturbed
  | tick ms =>
    cases hstep
    exact h.tick ms

/-! ## One process has the lock -/

theorem MutualExclusion.mono (h : w.MutualExclusion leaseMs)
    (hholds : ∀ s ∈ w'.sessions, ∀ backend, w'.HoldsBy leaseMs backend s →
      s ∈ w.sessions ∧ w.HoldsBy leaseMs backend s) : w'.MutualExclusion leaseMs := by
  intro s hs t ht backend backend' hsHolds htHolds
  obtain ⟨hsOld, hsHeld⟩ := hholds s hs backend hsHolds
  obtain ⟨htOld, htHeld⟩ := hholds t ht backend' htHolds
  exact h s hsOld t htOld backend backend' hsHeld htHeld

theorem MutualExclusion.set (h : w.MutualExclusion leaseMs)
    (hsessions : w'.sessions = w.sessions.set i new) (hclock : w'.clock = w.clock)
    (hnew : ∀ backend, w'.HoldsBy leaseMs backend new → ∀ t ∈ w.sessions, ∀ backend', w.HoldsBy
      leaseMs backend' t → t.process = new.process) : w'.MutualExclusion leaseMs := by
  have hold : ∀ t backend, w'.HoldsBy leaseMs backend t → w.HoldsBy leaseMs backend t := by
    intro t backend ⟨since, hheld, hlasts⟩
    exact ⟨since, hheld, hclock ▸ hlasts⟩
  intro s hs t ht backend backend' hsHolds htHolds
  rw [hsessions] at hs ht
  rcases List.mem_or_eq_of_mem_set hs with hsOld | rfl
  · rcases List.mem_or_eq_of_mem_set ht with htOld | rfl
    · exact h s hsOld t htOld backend backend' (hold s backend hsHolds) (hold t backend' htHolds)
    · exact hnew backend' htHolds s hsOld backend (hold s backend hsHolds)
  · rcases List.mem_or_eq_of_mem_set ht with htOld | rfl
    · exact (hnew backend hsHolds t htOld backend' (hold t backend' htHolds)).symm
    · rfl

theorem not_holdsBy_of_claim {backend : LockBackend} (hclaim : s.claim = none) :
    ¬ w.HoldsBy leaseMs backend s := by
  intro ⟨since, hheld, _⟩
  rw [LockSession.claim, hheld] at hclaim
  cases hclaim

theorem MutualExclusion.idle (h : w.MutualExclusion leaseMs)
    (hsessions : w'.sessions = w.sessions.set i { s with progress := progress })
    (hclock : w'.clock = w.clock)
    (hclaim : LockSession.claim { s with progress := progress } = none) :
    w'.MutualExclusion leaseMs := by
  apply h.set hsessions hclock
  exact fun backend hholds => absurd hholds (not_holdsBy_of_claim hclaim)

theorem MutualExclusion.quiet (h : w.MutualExclusion leaseMs) (hquiet : Quiet w w' i s) :
    w'.MutualExclusion leaseMs := by
  obtain ⟨progress, hsessions, hclaim⟩ := hquiet.sessions
  exact h.idle hsessions hquiet.clock hclaim

theorem eq_of_claim_redis (h : w.Backed leaseMs) {t : LockSession} {since since' : ℤ}
    (hs : w.sessions[i]? = some s) (ht : t ∈ w.sessions) (hsClaim : s.claim = some (.redis, since))
    (htClaim : t.claim = some (.redis, since')) (hsLasts : w.clock < since + leaseMs)
    (htLasts : w.clock < since' + leaseMs) : s = t := by
  obtain ⟨j, hj⟩ := List.getElem?_of_mem ht
  have hsKey := lockKey_of_inPlace (h i s hs _ hsClaim hsLasts) hsLasts
  have htKey := lockKey_of_inPlace (h j t hj _ htClaim htLasts) htLasts
  obtain rfl := Option.some.inj (hsKey.symm.trans htKey)
  exact Option.some.inj (hs.symm.trans hj)

theorem MutualExclusion.resume (h : w.MutualExclusion leaseMs) (hbacked : w.Backed leaseMs)
    (hs : w.sessions[i]? = some s) (hundisturbed : w.Undisturbed leaseMs (.resume i))
    (hstep : w.resume i s = some w') : w'.MutualExclusion leaseMs := by
  rcases eq_of_resume hstep with ⟨since, hanswered, rfl⟩ | ⟨-, rfl⟩
  · refine h.set rfl rfl ?_
    intro backend ⟨since', hheld, hlasts⟩ t ht backend' htHolds
    cases hheld
    apply hundisturbed s hs since hanswered hlasts t ht backend' htHolds
    rintro rfl
    by_contra hnoOp
    obtain ⟨since', htHeld, htLasts⟩ := htHolds
    have hsClaim : s.claim = some (.redis, since) := by
      rw [LockSession.claim, hanswered]
      dsimp only
      rw [if_neg hnoOp]
    have htClaim : t.claim = some (.redis, since') := by rw [LockSession.claim, htHeld]
    obtain rfl := eq_of_claim_redis hbacked hs ht hsClaim htClaim hlasts htLasts
    rw [htHeld] at hanswered
    cases hanswered
  · exact h.idle rfl rfl rfl

theorem MutualExclusion.create (h : w.MutualExclusion leaseMs) (hbacked : w.Backed leaseMs)
    (hs : w.sessions[i]? = some s) (hundisturbed : w.Undisturbed leaseMs (.create i))
    (hstep : w.create i s = some w') : w'.MutualExclusion leaseMs := by
  obtain ⟨hcreating, ⟨-, rfl⟩ | ⟨hfile, rfl⟩⟩ := eq_of_create hstep
  · exact h.idle rfl rfl rfl
  · refine h.set rfl rfl ?_
    intro backend _ t ht backend' htHolds
    apply hundisturbed s hs hcreating hfile t ht backend' htHolds
    rintro rfl
    obtain ⟨since, htHeld, htLasts⟩ := htHolds
    obtain ⟨j, hj⟩ := List.getElem?_of_mem ht
    have htClaim : t.claim = some (.file, since) := by rw [LockSession.claim, htHeld]
    have hplace : w.file = some ⟨j, since⟩ := hbacked j t hj _ htClaim htLasts
    rw [hfile] at hplace
    cases hplace

theorem MutualExclusion.setNx (h : w.MutualExclusion leaseMs)
    (hstep : w.setNx leaseMs i s = some w') : w'.MutualExclusion leaseMs := by
  have hanswered : ∀ (w' : LockWorld) (since : Option ℤ), w'.clock = w.clock →
      w'.sessions = w.sessions.set i { s with progress := .answered since } →
        w'.MutualExclusion leaseMs := by
    intro w' since hclock hsessions
    exact h.set hsessions hclock fun backend ⟨_, hheld, _⟩ => nomatch hheld
  rw [LockWorld.setNx] at hstep
  split at hstep
  · split_ifs at hstep
    · cases hstep
      exact hanswered _ _ rfl rfl
    · split at hstep
      · cases hstep
        exact hanswered _ _ rfl rfl
      · cases hstep
        exact hanswered _ _ rfl rfl
  · cases hstep

theorem MutualExclusion.step (h : w.MutualExclusion leaseMs) (hbacked : w.Backed leaseMs)
    (hundisturbed : w.Undisturbed leaseMs label)
    (hstep : w.step leaseMs label = some w') : w'.MutualExclusion leaseMs := by
  cases label with
  | acquire =>
    cases hstep
    refine h.mono fun s hs backend ⟨since, hheld, hlasts⟩ => ?_
    rcases List.mem_append.mp hs with hold | hnew
    · exact ⟨hold, since, hheld, hlasts⟩
    · obtain rfl := List.mem_singleton.mp hnew
      cases hheld
  | setNx =>
    obtain ⟨s, -, hset⟩ := Option.bind_eq_some_iff.mp hstep
    exact h.setNx hset
  | resume =>
    obtain ⟨s, hs, hresume⟩ := Option.bind_eq_some_iff.mp hstep
    exact h.resume hbacked hs hundisturbed hresume
  | redisFails =>
    obtain ⟨s, -, hfails⟩ := Option.bind_eq_some_iff.mp hstep
    exact h.quiet (quiet_of_redisFails hfails)
  | stray =>
    rw [LockWorld.step, LockWorld.stray] at hstep
    split_ifs at hstep
    cases hstep
    exact h.mono fun s hs backend hholds => ⟨hs, hholds⟩
  | create =>
    obtain ⟨s, hs, hcreate⟩ := Option.bind_eq_some_iff.mp hstep
    exact h.create hbacked hs hundisturbed hcreate
  | stat =>
    obtain ⟨s, -, hstat⟩ := Option.bind_eq_some_iff.mp hstep
    exact h.quiet (quiet_of_stat hstat)
  | restat =>
    obtain ⟨s, -, hrestat⟩ := Option.bind_eq_some_iff.mp hstep
    exact h.quiet (quiet_of_restat hrestat)
  | steal =>
    obtain ⟨s, -, hsteal⟩ := Option.bind_eq_some_iff.mp hstep
    obtain rfl := eq_of_steal hsteal
    exact h.idle rfl rfl rfl
  | giveUp =>
    obtain ⟨s, -, hgiveUp⟩ := Option.bind_eq_some_iff.mp hstep
    exact h.quiet (quiet_of_giveUp hgiveUp)
  | release =>
    obtain ⟨s, -, hrelease⟩ := Option.bind_eq_some_iff.mp hstep
    exact h.quiet (quiet_of_release hrelease)
  | delIfValue =>
    obtain ⟨s, -, hdel⟩ := Option.bind_eq_some_iff.mp hstep
    obtain rfl := eq_of_delIfValue hdel
    exact h.idle rfl rfl rfl
  | unlink =>
    obtain ⟨s, -, hunlink⟩ := Option.bind_eq_some_iff.mp hstep
    obtain rfl := eq_of_unlink hunlink
    exact h.idle rfl rfl rfl
  | releaseNamespace =>
    cases hstep
    refine h.mono fun s hs backend ⟨since, hheld, hlasts⟩ => ?_
    obtain ⟨i, hi⟩ := List.getElem?_of_mem hs
    rcases getElem?_releaseNamespace hi with ⟨hold, -⟩ | hended
    · exact ⟨List.mem_of_getElem? hold, since, hheld, hlasts⟩
    · rw [hended] at hheld
      cases hheld
  | tick =>
    cases hstep
    refine h.mono fun s hs backend ⟨since, hheld, hlasts⟩ => ⟨hs, since, hheld, ?_⟩
    dsimp only at hlasts
    omega

theorem releasesOwn_of_undisturbed (hundisturbed : w.Undisturbed leaseMs label)
    (hstep : w.step leaseMs label = some w') : w.ReleasesOwn w' label := by
  cases label with
  | delIfValue i =>
    obtain ⟨s, -, hdel⟩ := Option.bind_eq_some_iff.mp hstep
    obtain rfl := eq_of_delIfValue hdel
    intro value hvalue
    by_cases hown : value = i
    · exact .inr hown
    · have hother : w.lockKey ≠ some i := by
        rw [hvalue]
        exact fun hsame => hown (Option.some.inj hsame)
      rw [if_neg hother]
      exact .inl hvalue
  | unlink => exact fun file hfile => .inr (hundisturbed file hfile)
  | releaseNamespace =>
    intro value hvalue
    obtain ⟨s, hs, hprocess, -⟩ := hundisturbed value hvalue
    exact .inr ⟨s, hs, hprocess⟩
  | _ => trivial

end LockWorld

/-- A process takes the lock through Redis and gives it back. -/
def takeAndRelease : List LockStep :=
  [.acquire 0 false, .setNx 0, .resume 0, .release 0, .delIfValue 0]

theorem not_mutualExclusion {leaseMs : ℕ} {w : LockWorld} {i j : ℕ} {s t : LockSession}
    {backend backend' : LockBackend} {since since' : ℤ} (hs : w.sessions[i]? = some s)
    (ht : w.sessions[j]? = some t) (hsHeld : s.progress = .held backend since)
    (htHeld : t.progress = .held backend' since') (hsLasts : w.clock < since + leaseMs)
    (htLasts : w.clock < since' + leaseMs) (hne : s.process ≠ t.process) :
    ¬ w.MutualExclusion leaseMs := by
  intro hmutual
  exact hne (hmutual s (List.mem_of_getElem? hs) t (List.mem_of_getElem? ht) backend backend'
    ⟨since, hsHeld, hsLasts⟩ ⟨since', htHeld, htLasts⟩)

/-- A process has the lock through Redis when Redis fails for another one. -/
def fallback : List LockStep :=
  [.acquire 0 false, .setNx 0, .resume 0, .acquire 1 false, .redisFails 1]

end Fluxora.State
