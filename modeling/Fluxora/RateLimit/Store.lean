/-
# Limits and the store of requests

A tier has a number of requests for each window, and some routes have budgets of their own
in the place of that number. The store has a sliding log of requests for each key, with
the window of the last access; every request is recorded, those that are refused too.
-/

import Fluxora.Lib.Fallible
import Fluxora.Lib.JsText
import Fluxora.Lib.SlidingWindow

namespace Fluxora.RateLimit

open Lib.JsText Lib.SlidingWindow

/-! ## Limits -/

structure RateLimitConfig where
  windowMs : ℕ
  max : ℕ
  enabled : Bool
  deriving DecidableEq

structure RouteRateLimitConfig where
  baseLimit : ℕ
  writeLimit : ℕ
  exempt : Bool
  deriving DecidableEq

structure RouteBudget where
  path : List Char
  config : RouteRateLimitConfig

/-- 24 hours. -/
def maxWindowMs : ℕ := 24 * 60 * 60 * 1000

def routeBudgets : List RouteBudget :=
  [⟨"/api/streams".toList, ⟨100, 20, false⟩⟩,
   ⟨"/api/auth".toList, ⟨50, 10, false⟩⟩,
   ⟨"/api/streams/:id".toList, ⟨30, 5, false⟩⟩,
   ⟨"/api/privacy/consent".toList, ⟨10, 10, false⟩⟩,
   ⟨"/api/privacy/erasure/:recipientAddress".toList, ⟨5, 5, false⟩⟩,
   ⟨"/api/admin".toList, ⟨50, 10, false⟩⟩,
   ⟨"/internal/indexer".toList, ⟨1000, 100, false⟩⟩,
   ⟨"/metrics".toList, ⟨0, 0, true⟩⟩,
   ⟨"/health".toList, ⟨0, 0, true⟩⟩]

/-- A part of a pattern that begins with a colon matches every part of a path. -/
def partsMatch (patternParts pathParts : List (List Char)) : Bool :=
  patternParts.length = pathParts.length &&
    (patternParts.zip pathParts).all fun parts =>
      parts.1.head? = some ':' || parts.1 = parts.2

/-- The budget of a path: an exact match first, then the patterns in their order. -/
def getRouteRateLimitConfig (path : List Char) : Option RouteRateLimitConfig :=
  match routeBudgets.find? fun budget => budget.path = path with
  | some budget => some budget.config
  | none =>
    (routeBudgets.find? fun budget =>
      budget.path.contains ':' && partsMatch (budget.path.splitOn '/') (path.splitOn '/')).map
        (·.config)

/-! ## The store -/

def maxRateLimitKeyLength : ℕ := 1024

def minRateLimitWindowMs : ℕ := 1000

structure RateLimitInputError where
  field : String
  rule : String
  deriving DecidableEq

def assertKey (key : List Char) : Except RateLimitInputError Unit :=
  if trim key = [] then .error ⟨"key", "must be a non-empty string"⟩
  else if (codeUnits key).length > maxRateLimitKeyLength then
    .error ⟨"key", s!"must not exceed {maxRateLimitKeyLength} characters (got " ++
      s!"{(codeUnits key).length})"⟩
  else .ok ()

def assertWindowMs (windowMs : ℕ) : Except RateLimitInputError Unit :=
  if windowMs < minRateLimitWindowMs then
    .error ⟨"windowMs", s!"must be at least {minRateLimitWindowMs}ms (got {windowMs})"⟩
  else if windowMs > maxWindowMs then
    .error ⟨"windowMs", s!"must not exceed {maxWindowMs}ms (got {windowMs})"⟩
  else .ok ()

def assertOperationInputs (key : List Char) (windowMs : ℕ) :
    Except RateLimitInputError Unit := do
  assertKey key
  assertWindowMs windowMs

structure SlidingBucket where
  timestamps : List ℤ
  windowMs : ℕ
  deriving DecidableEq

structure InMemoryStore where
  buckets : List Char → Option SlidingBucket
  operationsSinceSweep : ℕ

def sweepInterval : ℕ := 256

/-- Drop the timestamps that have left the bucket's window. -/
def SlidingBucket.prune (bucket : SlidingBucket) (now : ℤ) : SlidingBucket :=
  ⟨Lib.SlidingWindow.prune bucket.windowMs now bucket.timestamps, bucket.windowMs⟩

/-- What a sweep leaves of a bucket. -/
def SlidingBucket.swept (bucket : SlidingBucket) (now : ℤ) : Option SlidingBucket :=
  if (bucket.prune now).timestamps = [] then none else some (bucket.prune now)

namespace InMemoryStore

variable (s : InMemoryStore)

/-- Evict every bucket whose window has elapsed, at most once in an interval. -/
def maybeSweep (now : ℤ) : InMemoryStore :=
  if s.operationsSinceSweep + 1 < sweepInterval then
    { s with operationsSinceSweep := s.operationsSinceSweep + 1 }
  else ⟨fun key => (s.buckets key).bind fun bucket => bucket.swept now, 0⟩

def setBucket (key : List Char) (bucket : Option SlidingBucket) : InMemoryStore :=
  { s with buckets := Function.update s.buckets key bucket }

/-- Record a request: the requests in the window, and when it ends. -/
def increment (key : List Char) (windowMs : ℕ) (now : ℤ) :
    Except RateLimitInputError ((ℕ × ℤ) × InMemoryStore) := do
  assertOperationInputs key windowMs
  let s := s.maybeSweep now
  let alive :=
    match s.buckets key with
    | some bucket => (SlidingBucket.prune ⟨bucket.timestamps, windowMs⟩ now).timestamps
    | none => []
  let timestamps := alive ++ [now]
  let s := s.setBucket key (some ⟨timestamps, windowMs⟩)
  .ok ((timestamps.length, timestamps.headD now + windowMs), s)

/-- Read the requests in the window, and when it ends. -/
def getCount (key : List Char) (windowMs : ℕ) (now : ℤ) :
    Except RateLimitInputError ((ℕ × ℤ) × InMemoryStore) := do
  assertOperationInputs key windowMs
  let s := s.maybeSweep now
  match s.buckets key with
  | none => .ok ((0, now + windowMs), s)
  | some bucket =>
    let bucket := SlidingBucket.prune ⟨bucket.timestamps, windowMs⟩ now
    match bucket.timestamps with
    | [] => .ok ((0, now + windowMs), s.setBucket key none)
    | first :: rest =>
      .ok (((first :: rest).length, first + windowMs), s.setBucket key (some bucket))

end InMemoryStore

theorem assertWindowMs_eq_ok {windowMs : ℕ} (hmin : minRateLimitWindowMs ≤ windowMs)
    (hmax : windowMs ≤ maxWindowMs) : assertWindowMs windowMs = .ok () := by
  rw [assertWindowMs, if_neg (Nat.not_lt.mpr hmin), if_neg (Nat.not_lt.mpr hmax)]

theorem pos_of_assertOperationInputs {key : List Char} {windowMs : ℕ}
    (hinputs : assertOperationInputs key windowMs = .ok ()) : 0 < windowMs := by
  obtain ⟨⟨⟩, -, hwindow⟩ := Lib.Fallible.bind_eq_ok.mp hinputs
  rw [assertWindowMs] at hwindow
  split_ifs at hwindow with hshort
  rw [minRateLimitWindowMs] at hshort
  omega

/-! ## What a bucket keeps -/

/-- The bucket of a key still has those of some recorded requests that are live for a
window, and its own window is not shorter. -/
def Retains (window : ℕ) (now : ℤ) (times : List ℤ) (bucket : Option SlidingBucket) : Prop :=
  live window now times = [] ∨
    ∃ b, bucket = some b ∧ window ≤ b.windowMs ∧ (live window now times).Sublist b.timestamps

/-- A bucket with a window has a number of requests that have not left it. -/
def Occupied (window : ℕ) (now : ℤ) (count : ℕ) : Option SlidingBucket → Prop
  | none => count = 0
  | some b =>
    b.windowMs = window ∧ (∀ t ∈ b.timestamps, t ≤ now) ∧
      (prune window now b.timestamps).length = count

variable {bucket : Option SlidingBucket} {now : ℤ}

theorem Retains.later {window : ℕ} {later : ℤ} {times : List ℤ}
    (h : Retains window now times bucket) (hle : now ≤ later) :
    Retains window later times bucket := by
  have hsub := live_sublist_live window hle times
  rcases h with hnone | ⟨b, hb, hwindow, hkept⟩
  · rw [hnone] at hsub
    exact Or.inl (List.sublist_nil.mp hsub)
  · exact Or.inr ⟨b, hb, hwindow, hsub.trans hkept⟩

theorem Retains.of_append {window : ℕ} {first second : List ℤ}
    (h : Retains window now (first ++ second) bucket) : Retains window now first bucket := by
  have hsub : (live window now first).Sublist (live window now (first ++ second)) := by
    rw [live_append]
    exact List.sublist_append_left _ _
  rcases h with hnone | ⟨b, hb, hwindow, hkept⟩
  · rw [hnone] at hsub
    exact Or.inl (List.sublist_nil.mp hsub)
  · exact Or.inr ⟨b, hb, hwindow, hsub.trans hkept⟩

theorem Retains.pruned {window longer : ℕ} {times : List ℤ} {b : SlidingBucket}
    (h : Retains window now times (some b)) (hle : window ≤ longer) :
    (live window now times).Sublist (prune longer now b.timestamps) := by
  rcases h with hnone | ⟨b', hb, -, hkept⟩
  · rw [hnone]
    exact List.nil_sublist _
  · cases hb
    exact live_sublist_prune hle hkept

theorem Retains.swept {window : ℕ} {times : List ℤ} (h : Retains window now times bucket) :
    Retains window now times (bucket.bind fun b => b.swept now) := by
  rcases h with hnone | ⟨b, rfl, hwindow, hkept⟩
  · exact Or.inl hnone
  · have hpruned := live_sublist_prune hwindow hkept
    change Retains window now times (b.swept now)
    rw [SlidingBucket.swept]
    split_ifs with hempty
    · have hempty' : prune b.windowMs now b.timestamps = [] := hempty
      rw [hempty'] at hpruned
      exact Or.inl (List.sublist_nil.mp hpruned)
    · exact Or.inr ⟨_, rfl, hwindow, hpruned⟩

theorem Occupied.swept {window count : ℕ} (h : Occupied window now count bucket) :
    Occupied window now count (bucket.bind fun b => b.swept now) := by
  cases bucket with
  | none => exact h
  | some b =>
    obtain ⟨hwindow, hpast, hcount⟩ := h
    change Occupied window now count (b.swept now)
    rw [SlidingBucket.swept]
    split_ifs with hempty
    · have hempty' : prune b.windowMs now b.timestamps = [] := hempty
      rw [hwindow] at hempty'
      rw [hempty'] at hcount
      exact hcount.symm
    · refine ⟨hwindow, ?_, ?_⟩
      · intro t ht
        exact hpast t ((List.dropWhile_subset _) ht)
      · change (prune window now (prune b.windowMs now b.timestamps)).length = count
        rw [hwindow, prune_prune]
        exact hcount

theorem Occupied.after {window count : ℕ} (h : Occupied window now count bucket) :
    Occupied window (now + window) 0 bucket := by
  cases bucket with
  | none => rfl
  | some =>
    obtain ⟨hwindow, hpast, -⟩ := h
    refine ⟨hwindow, ?_, ?_⟩
    · intro t ht
      have := hpast t ht
      omega
    · rw [prune_eq_nil, List.length_nil]
      intro t ht
      have := hpast t ht
      omega

namespace InMemoryStore

variable {s : InMemoryStore} {window count windowMs : ℕ} {times : List ℤ} {other : List Char}
  {r : (ℕ × ℤ) × InMemoryStore}

theorem buckets_maybeSweep (s : InMemoryStore) (now : ℤ) (key : List Char) :
    (s.maybeSweep now).buckets key = s.buckets key ∨
      (s.maybeSweep now).buckets key = (s.buckets key).bind fun b => b.swept now := by
  rw [maybeSweep]
  split_ifs
  · exact Or.inl rfl
  · exact Or.inr rfl

theorem retains_maybeSweep {key : List Char} (h : Retains window now times (s.buckets key)) :
    Retains window now times ((s.maybeSweep now).buckets key) := by
  rcases buckets_maybeSweep s now key with hsame | hswept
  · rw [hsame]
    exact h
  · rw [hswept]
    exact h.swept

theorem occupied_maybeSweep {key : List Char} (h : Occupied window now count (s.buckets key)) :
    Occupied window now count ((s.maybeSweep now).buckets key) := by
  rcases buckets_maybeSweep s now key with hsame | hswept
  · rw [hsame]
    exact h
  · rw [hswept]
    exact h.swept

@[simp]
theorem buckets_setBucket_self (key : List Char) (bucket : Option SlidingBucket) :
    (s.setBucket key bucket).buckets key = bucket := Function.update_self ..

theorem buckets_setBucket_of_ne {key : List Char} (hne : other ≠ key)
    (bucket : Option SlidingBucket) :
    (s.setBucket key bucket).buckets other = s.buckets other := Function.update_of_ne hne ..

/-- What is left of the timestamps of a bucket for a window. -/
def alive (bucket : Option SlidingBucket) (windowMs : ℕ) (now : ℤ) : List ℤ :=
  (bucket.map fun b => prune windowMs now b.timestamps).getD []

theorem sublist_alive {longer : ℕ} {bucket : Option SlidingBucket}
    (h : Retains window now times bucket) (hle : window ≤ longer) :
    (live window now times).Sublist (alive bucket longer now) := by
  cases bucket with
  | none =>
    rcases h with hnone | ⟨b, hb, -⟩
    · rw [hnone]
      exact List.nil_sublist _
    · cases hb
  | some => exact h.pruned hle

theorem increment_eq_ok {key : List Char} (h : s.increment key windowMs now = .ok r) :
    r.1.1 = (alive ((s.maybeSweep now).buckets key) windowMs now).length + 1 ∧
      r.2 = (s.maybeSweep now).setBucket key
        (some ⟨alive ((s.maybeSweep now).buckets key) windowMs now ++ [now], windowMs⟩) := by
  rw [increment] at h
  obtain ⟨_, _, h⟩ := Lib.Fallible.bind_eq_ok.mp h
  rw [Except.ok.injEq] at h
  subst h
  cases (s.maybeSweep now).buckets key with
  | none => exact ⟨rfl, rfl⟩
  | some => exact ⟨List.length_append, rfl⟩

theorem increment_isOk {key : List Char} (hinputs : assertOperationInputs key windowMs = .ok ())
    (s : InMemoryStore) (now : ℤ) : ∃ r, s.increment key windowMs now = .ok r := by
  rw [increment, hinputs]
  exact ⟨_, rfl⟩

theorem buckets_increment_of_ne {key : List Char} (h : s.increment key windowMs now = .ok r)
    (hne : other ≠ key) : r.2.buckets other = (s.maybeSweep now).buckets other := by
  rw [(increment_eq_ok h).2, buckets_setBucket_of_ne hne]

theorem retains_increment {key : List Char} (hretains : Retains window now times (s.buckets key))
    (hpos : 0 < window) (hle : window ≤ windowMs) (h : s.increment key windowMs now = .ok r) :
    Retains window now (times ++ [now]) (r.2.buckets key) ∧
      (live window now (times ++ [now])).length ≤ r.1.1 := by
  obtain ⟨hcount, hstore⟩ := increment_eq_ok h
  have hkept := sublist_alive (retains_maybeSweep hretains) hle
  have hlive : (live window now (times ++ [now])).Sublist
      (alive ((s.maybeSweep now).buckets key) windowMs now ++ [now]) := by
    rw [live_append, live_singleton hpos]
    exact hkept.append_right [now]
  apply And.intro
  · rw [hstore, buckets_setBucket_self]
    exact Or.inr ⟨_, rfl, hle, hlive⟩
  · rw [hcount, ← List.length_singleton (a := now), ← List.length_append]
    exact hlive.length_le

theorem retains_increment_any {key : List Char}
    (hretains : Retains window now times (s.buckets other)) (hpos : 0 < window)
    (hle : key = other → window ≤ windowMs) (h : s.increment key windowMs now = .ok r) :
    Retains window now times (r.2.buckets other) := by
  by_cases hkey : other = key
  · subst hkey
    exact (retains_increment hretains hpos (hle rfl) h).1.of_append
  · rw [buckets_increment_of_ne h hkey]
    exact retains_maybeSweep hretains

theorem occupied_increment_of_ne {key : List Char}
    (hoccupied : Occupied window now count (s.buckets other)) (hne : other ≠ key)
    (h : s.increment key windowMs now = .ok r) : Occupied window now count (r.2.buckets other) := by
  rw [buckets_increment_of_ne h hne]
  exact occupied_maybeSweep hoccupied

theorem getCount_eq_ok {key : List Char} (h : s.getCount key windowMs now = .ok r) :
    r.1.1 = (alive ((s.maybeSweep now).buckets key) windowMs now).length ∧
      r.2 = (s.maybeSweep now).setBucket key
        (if alive ((s.maybeSweep now).buckets key) windowMs now = [] then none
          else some ⟨alive ((s.maybeSweep now).buckets key) windowMs now, windowMs⟩) := by
  rw [getCount] at h
  obtain ⟨_, _, h⟩ := Lib.Fallible.bind_eq_ok.mp h
  dsimp only at h
  cases hbucket : (s.maybeSweep now).buckets key with
  | none =>
    rw [hbucket, Except.ok.injEq] at h
    subst h
    have hnothing : alive none windowMs now = [] := rfl
    have hself : (s.maybeSweep now).setBucket key none = s.maybeSweep now := by
      rw [setBucket, ← hbucket, Function.update_eq_self]
    rw [hnothing, if_pos rfl, hself]
    exact ⟨rfl, rfl⟩
  | some b =>
    rw [hbucket] at h
    have halive : alive (some b) windowMs now = prune windowMs now b.timestamps := rfl
    rw [halive]
    cases hpruned : prune windowMs now b.timestamps with
    | nil | cons =>
      simp only [SlidingBucket.prune, hpruned, Except.ok.injEq] at h
      subst h
      exact ⟨rfl, rfl⟩

theorem getCount_isOk {key : List Char} (hinputs : assertOperationInputs key windowMs = .ok ())
    (s : InMemoryStore) (now : ℤ) : ∃ r, s.getCount key windowMs now = .ok r := by
  rw [getCount, hinputs]
  change ∃ r, (match (s.maybeSweep now).buckets key with
    | none => _
    | some bucket => _) = Except.ok r
  split
  · exact ⟨_, rfl⟩
  · dsimp only
    split
    · exact ⟨_, rfl⟩
    · exact ⟨_, rfl⟩

theorem occupied_increment {key : List Char} (hoccupied : Occupied window now count (s.buckets key))
    (hpos : 0 < window) (h : s.increment key window now = .ok r) :
    r.1.1 = count + 1 ∧ Occupied window now (count + 1) (r.2.buckets key) := by
  obtain ⟨hcount, hstore⟩ := increment_eq_ok h
  have hswept := occupied_maybeSweep hoccupied
  rw [hstore, buckets_setBucket_self]
  cases hbucket : (s.maybeSweep now).buckets key with
  | none =>
    rw [hbucket] at hswept hcount
    have hzero : count = 0 := hswept
    subst hzero
    refine ⟨hcount, rfl, ?_, ?_⟩
    · intro t ht
      exact le_of_eq (List.mem_singleton.mp ht)
    · change (prune window now ([] ++ [now])).length = 1
      rw [prune_append_now hpos]
      rfl
  | some b =>
    rw [hbucket] at hswept hcount
    obtain ⟨-, hpast, hlength⟩ := hswept
    have halive : (alive (some b) window now).length = count := hlength
    rw [halive] at hcount
    refine ⟨hcount, rfl, ?_, ?_⟩
    · intro t ht
      rcases List.mem_append.mp ht with hold | hnew
      · exact hpast t (List.dropWhile_subset _ hold)
      · exact le_of_eq (List.mem_singleton.mp hnew)
    · change (prune window now (prune window now b.timestamps ++ [now])).length = count + 1
      rw [prune_append_now hpos, prune_prune, List.length_append, List.length_singleton,
        hlength]

theorem retains_getCount {key : List Char} (hretains : Retains window now times (s.buckets other))
    (hle : key = other → window ≤ windowMs) (h : s.getCount key windowMs now = .ok r) :
    Retains window now times (r.2.buckets other) := by
  have hswept := retains_maybeSweep hretains
  rw [(getCount_eq_ok h).2]
  by_cases hkey : other = key
  · subst hkey
    have hkept := sublist_alive hswept (hle rfl)
    rw [buckets_setBucket_self]
    split_ifs with hempty
    · rw [hempty] at hkept
      exact Or.inl (List.sublist_nil.mp hkept)
    · exact Or.inr ⟨_, rfl, hle rfl, hkept⟩
  · rw [buckets_setBucket_of_ne hkey]
    exact hswept

end InMemoryStore

end Fluxora.RateLimit
