/-
# What an override lets through

Under an override the requests of a tenant on a path are few in every interval that is as
long as the override's window. In an interval as long as the window of the tier there is
room for several of these, and as many bursts come through.
-/

import Fluxora.RateLimit.Limiter

namespace Fluxora.RateLimit

open Auth (Method)
open Lib.JsText Lib.SlidingWindow

/-! ## Runs under an override -/

/-- A request finds the override, and a question for the status finds no other one. -/
def UnderOverride (override : RateLimitOverride) : Event → Prop
  | .request r => r.keyId.any (· ≠ "") = true ∧ r.override = .ok (some override)
  | .status q => ∀ other, q.override = .ok (some other) → other = override

namespace Limiter

variable (l : Limiter) (override : RateLimitOverride)

/-- The events of a run in the order of their times, those of the tenant under the
override. -/
structure OverriddenRun (tenant : Digest) (events : List Event) : Prop where
  chronological : events.Pairwise fun first second => first.now ≤ second.now
  overridden : ∀ e ∈ events, l.isTenant tenant e.client → UnderOverride override e

/-- The times of the requests of a tenant on a path that have been let through. -/
def admissions (tenant : Digest) (path : List Char) (answers : List (Request × Outcome)) :
    List ℤ :=
  answers.filterMap fun answer =>
    if l.isTenant tenant answer.1.client ∧ answer.1.path = path ∧ answer.2.isNext = true then
      some answer.1.now
    else none

/-- The limiter applies to a path. -/
def IsLimited (path : List Char) : Prop :=
  path ∉ exemptPaths ∧ ∀ route ∈ getRouteRateLimitConfig path, route.exempt = false

/-- The largest limit of a path, over all methods. -/
def largestLimit (config : RateLimitConfig) (path : List Char) : ℕ :=
  max (resolveEffectiveLimit config (getRouteRateLimitConfig path) .get).1
    (resolveEffectiveLimit config (getRouteRateLimitConfig path) .post).1

/-- The API-key tier with the limit and the window of the override. -/
def overriddenTier : RateLimitConfig :=
  { l.apiKey with max := override.maxRequests, windowMs := override.windowMs }

/-- In every run and every interval of a length, at most so many requests of a tenant on the
path come through under the override. -/
def AdmitsAtMost (path : List Char) (length bound : ℕ) : Prop :=
  ∀ tenant s events, l.OverriddenRun override tenant events →
    ∀ start, within start length (l.admissions tenant path (l.serve s events)) ≤ bound

variable {l override} {r : Request} {q : StatusQuery}

theorem resolveEffectiveLimit_le_largestLimit (config : RateLimitConfig) (path : List Char)
    (method : Method) :
    (resolveEffectiveLimit config (getRouteRateLimitConfig path) method).1 ≤
      largestLimit config path := by
  have hsame : ∀ method', isWriteMethod method = isWriteMethod method' →
      resolveEffectiveLimit config (getRouteRateLimitConfig path) method =
        resolveEffectiveLimit config (getRouteRateLimitConfig path) method' := by
    intro method' hwrite
    simp only [resolveEffectiveLimit, hwrite]
  cases hwrite : isWriteMethod method with
  | true =>
    rw [hsame .post hwrite]
    exact Nat.le_max_right _ _
  | false =>
    rw [hsame .get hwrite]
    exact Nat.le_max_left _ _

theorem resolveEffectiveLimit_snd {path : List Char} (hlimited : IsLimited path)
    (config : RateLimitConfig) (method : Method) :
    (resolveEffectiveLimit config (getRouteRateLimitConfig path) method).2 = false := by
  cases hroute : getRouteRateLimitConfig path with
  | none => rfl
  | some route =>
    have hexempt := hlimited.2 route hroute
    rw [resolveEffectiveLimit, if_neg (by simp [hexempt])]
    dsimp only
    split_ifs <;> rfl

theorem largestLimit_mono {config config' : RateLimitConfig} (hmax : config.max ≤ config'.max)
    (path : List Char) : largestLimit config path ≤ largestLimit config' path := by
  have hle : ∀ method,
      (resolveEffectiveLimit config (getRouteRateLimitConfig path) method).1 ≤
        (resolveEffectiveLimit config' (getRouteRateLimitConfig path) method).1 := by
    intro method
    cases getRouteRateLimitConfig path with
    | none => exact hmax
    | some =>
      simp only [resolveEffectiveLimit]
      split_ifs
      · exact hmax
      · exact le_rfl
      · exact le_rfl
      · exact hmax
  exact max_le_max (hle .get) (hle .post)

theorem largestLimit_of_noBudget {path : List Char} (hnone : getRouteRateLimitConfig path = none)
    (config : RateLimitConfig) : largestLimit config path = config.max := by
  rw [largestLimit, hnone]
  exact max_self _

/-! ## Single events -/

theorem configFor_of_underOverride {tenant : Digest} (htenant : l.isTenant tenant r.client)
    (hunder : UnderOverride override (.request r)) :
    l.configFor r.client r.keyId r.override = l.overriddenTier override := by
  simp only [configFor, tierFor, principalTypeFor_of_isTenant htenant, hunder.2]
  exact if_pos ⟨trivial, hunder.1⟩

theorem windowMs_configFor_status {tenant : Digest} (htenant : l.isTenant tenant q.client)
    (hunder : UnderOverride override (.status q)) :
    min override.windowMs l.apiKey.windowMs ≤
      (l.configFor q.client q.keyId q.override).windowMs := by
  simp only [configFor, tierFor, principalTypeFor_of_isTenant htenant]
  split_ifs
  · split
    · rename_i other hfound
      rw [hunder other hfound]
      exact min_le_left _ _
    · exact min_le_right _ _
  · exact min_le_right _ _

/-- The requests under an override that come to the store. -/
structure Governed (l : Limiter) (override : RateLimitOverride) (tenant : Digest)
    (r : Request) : Prop where
  enabled : l.apiKey.enabled = true
  window : minWindowMs ≤ override.windowMs ∧ override.windowMs ≤ maxWindowMs
  limited : IsLimited r.path
  tenant : l.isTenant tenant r.client
  overridden : UnderOverride override (.request r)

theorem count_eq (s : InMemoryStore) (r : Request) (windowMs effectiveLimit : ℕ) :
    (∃ number resetAt s₁,
      s.increment (l.buildStoreKey r.client (l.routeKeyFromPath (some r.path))) windowMs r.now =
          .ok ((number, resetAt), s₁) ∧
        ((l.count s r windowMs effectiveLimit).2.isNext = true ↔ number ≤ effectiveLimit) ∧
        ((l.count s r windowMs effectiveLimit).1 = s₁ ∨
          ∃ result, s₁.increment (l.buildStoreKey r.client aggregateRoute) windowMs r.now =
              .ok result ∧ (l.count s r windowMs effectiveLimit).1 = result.2)) ∨
      ((∃ error, s.increment (l.buildStoreKey r.client (l.routeKeyFromPath (some r.path)))
          windowMs r.now = .error error) ∧
        (l.count s r windowMs effectiveLimit).1 = s) := by
  rw [count]
  cases hstore : s.increment (l.buildStoreKey r.client (l.routeKeyFromPath (some r.path)))
      windowMs r.now with
  | error error => exact Or.inr ⟨⟨error, rfl⟩, rfl⟩
  | ok result =>
    obtain ⟨⟨number, resetAt⟩, s₁⟩ := result
    refine Or.inl ⟨number, resetAt, s₁, rfl, ?_⟩
    dsimp only
    cases haggregate : s₁.increment (l.buildStoreKey r.client aggregateRoute) windowMs r.now with
    | error =>
      split_ifs with hmany
      · exact ⟨by simpa [Outcome.isNext] using hmany, Or.inl rfl⟩
      · exact ⟨by simpa [Outcome.isNext] using hmany, Or.inl rfl⟩
    | ok result =>
      split_ifs with hmany
      · exact ⟨by simpa [Outcome.isNext] using hmany, Or.inr ⟨result, rfl, rfl⟩⟩
      · exact ⟨by simpa [Outcome.isNext] using hmany, Or.inr ⟨result, rfl, rfl⟩⟩

/-- The routes under which a request is counted. -/
def writtenRoutes (l : Limiter) (r : Request) : List (List Char) :=
  [l.routeKeyFromPath (some r.path), aggregateRoute]

theorem retains_count {window windowMs effectiveLimit : ℕ} {s : InMemoryStore} {times : List ℤ}
    {key : List Char} (hretains : Retains window r.now times (s.buckets key)) (hpos : 0 < window)
    (hle : ∀ routeKey ∈ writtenRoutes l r, l.buildStoreKey r.client routeKey = key →
      window ≤ windowMs) :
    Retains window r.now times ((l.count s r windowMs effectiveLimit).1.buckets key) := by
  have hroute := hle (l.routeKeyFromPath (some r.path)) List.mem_cons_self
  have haggregateRoute := hle aggregateRoute (List.mem_cons_of_mem _ List.mem_cons_self)
  rcases count_eq (l := l) s r windowMs effectiveLimit with
    ⟨number, resetAt, s₁, hfirst, -, hsecond⟩ | ⟨-, hsame⟩
  · have hcounted : Retains window r.now times (s₁.buckets key) :=
      InMemoryStore.retains_increment_any hretains hpos hroute hfirst
    rcases hsecond with hstore | ⟨result, haggregate, hstore⟩
    · rw [hstore]
      exact hcounted
    · rw [hstore]
      exact InMemoryStore.retains_increment_any hcounted hpos haggregateRoute haggregate
  · rw [hsame]
    exact hretains

theorem retains_count_of_isNext {window windowMs effectiveLimit : ℕ} {s : InMemoryStore}
    {times : List ℤ} {key : List Char} (hretains : Retains window r.now times (s.buckets key))
    (hpos : 0 < window) (hle : window ≤ windowMs)
    (hkey : l.buildStoreKey r.client (l.routeKeyFromPath (some r.path)) = key)
    (haccepted : ∃ result, s.increment key windowMs r.now = .ok result)
    (hnext : (l.count s r windowMs effectiveLimit).2.isNext = true) :
    Retains window r.now (times ++ [r.now])
        ((l.count s r windowMs effectiveLimit).1.buckets key) ∧
      (live window r.now (times ++ [r.now])).length ≤ effectiveLimit := by
  rcases count_eq (l := l) s r windowMs effectiveLimit with
    ⟨number, resetAt, s₁, hfirst, hwithin, hsecond⟩ | ⟨⟨error, herror⟩, -⟩
  · rw [hkey] at hfirst
    obtain ⟨hcounted, hlive⟩ := InMemoryStore.retains_increment hretains hpos hle hfirst
    refine ⟨?_, le_trans hlive (hwithin.mp hnext)⟩
    rcases hsecond with hstore | ⟨result, haggregate, hstore⟩
    · rw [hstore]
      exact hcounted
    · rw [hstore]
      exact InMemoryStore.retains_increment_any hcounted hpos (fun _ => hle) haggregate
  · obtain ⟨result, hresult⟩ := haccepted
    rw [hkey, hresult] at herror
    cases herror

theorem handle_governed {tenant : Digest} (h : Governed l override tenant r) (s : InMemoryStore) :
    l.handle s r = l.count s r override.windowMs
      (resolveEffectiveLimit (l.overriddenTier override)
        (getRouteRateLimitConfig r.path) r.method).1 := by
  have hallowed : l.isAllowlisted r.client = false := by
    have htenant := h.tenant
    cases hclient : r.client with
    | ip =>
      rw [hclient] at htenant
      cases htenant
    | apiKey => rfl
  have hexempt := resolveEffectiveLimit_snd h.limited (l.overriddenTier override) r.method
  rw [handle, configFor_of_underOverride h.tenant h.overridden,
    if_neg (by simp [h.enabled]), if_neg h.limited.1, if_neg (by simp [hallowed])]
  dsimp only
  rw [if_neg (by simp [overriddenTier, h.enabled]), if_neg (by simp [hexempt])]
  rfl

theorem increment_governed {tenant : Digest} (h : Governed l override tenant r) (s : InMemoryStore)
    (path : List Char) :
    ∃ result, s.increment (l.buildStoreKey r.client (l.routeKeyFromPath (some path)))
      override.windowMs r.now = .ok result := by
  apply InMemoryStore.increment_isOk
  rw [assertOperationInputs, buildStoreKey_of_isTenant h.tenant, assertKey_tenantStoreKey]
  exact assertWindowMs_eq_ok h.window.1 h.window.2

theorem handle_eq_or (s : InMemoryStore) (r : Request) :
    (l.handle s r).1 = s ∨ ∃ effectiveLimit, l.handle s r =
      l.count s r (l.configFor r.client r.keyId r.override).windowMs effectiveLimit := by
  rw [handle]
  dsimp only
  split_ifs
  · exact Or.inl rfl
  · exact Or.inl rfl
  · exact Or.inl rfl
  · exact Or.inl rfl
  · exact Or.inl rfl
  · exact Or.inr ⟨_, rfl⟩

theorem retains_handle {window : ℕ} {s : InMemoryStore} {times : List ℤ} {key : List Char}
    (hretains : Retains window r.now times (s.buckets key)) (hpos : 0 < window)
    (hle : ∀ routeKey ∈ writtenRoutes l r, l.buildStoreKey r.client routeKey = key →
      window ≤ (l.configFor r.client r.keyId r.override).windowMs) :
    Retains window r.now times ((l.handle s r).1.buckets key) := by
  rcases handle_eq_or (l := l) s r with hsame | ⟨effectiveLimit, hcount⟩
  · rw [hsame]
    exact hretains
  · rw [hcount]
    exact retains_count hretains hpos hle

theorem retains_getStatus {window : ℕ} {s : InMemoryStore} {times : List ℤ} {key : List Char}
    (hretains : Retains window q.now times (s.buckets key))
    (hle : l.buildStoreKey q.client (l.routeKeyFromPath q.path) = key →
      window ≤ (l.configFor q.client q.keyId q.override).windowMs) :
    Retains window q.now times ((l.getStatus s q).1.buckets key) := by
  simp only [getStatus]
  cases hread : s.getCount (l.buildStoreKey q.client (l.routeKeyFromPath q.path))
      (l.configFor q.client q.keyId q.override).windowMs q.now with
  | error => exact hretains
  | ok => exact InMemoryStore.retains_getCount hretains hle hread

/-! ## Whole runs -/

/-- The bucket of a tenant's path at a time, after some requests have been let through:
the live ones are in it, and there are few of them in every window. -/
structure Tracks (l : Limiter) (tenant : Digest) (path : List Char) (window bound : ℕ) (now : ℤ)
    (times : List ℤ) (s : InMemoryStore) : Prop where
  kept : Retains window now times
    (s.buckets (tenantStoreKey tenant (l.routeKeyFromPath (some path))))
  few : ∀ start, within start window times ≤ bound

/-- The assumptions that the results on runs share. -/
structure Setting (l : Limiter) (override : RateLimitOverride) (path : List Char) : Prop where
  enabled : l.apiKey.enabled = true
  window : minWindowMs ≤ override.windowMs ∧ override.windowMs ≤ maxWindowMs
  limited : IsLimited path

variable {tenant : Digest} {path : List Char} {window bound : ℕ} {now : ℤ} {times : List ℤ}
  {s : InMemoryStore}

theorem Tracks.request (htracks : Tracks l tenant path window bound now times s)
    (hsetting : Setting l override path) (hpos : 0 < window) (hwindow : window ≤ override.windowMs)
    (hbound : largestLimit (l.overriddenTier override) path ≤ bound) (hlater : now ≤ r.now)
    (hunder : l.isTenant tenant r.client → UnderOverride override (.request r)) :
    Tracks l tenant path window bound r.now
      (times ++ l.admissions tenant path [(r, (l.handle s r).2)]) (l.handle s r).1 := by
  have hkept := htracks.kept.later hlater
  by_cases hours : l.isTenant tenant r.client ∧ r.path = path ∧ (l.handle s r).2.isNext = true
  · obtain ⟨htenant, rfl, hnext⟩ := hours
    have hgoverned : Governed l override tenant r :=
      ⟨hsetting.enabled, hsetting.window, hsetting.limited, htenant, hunder htenant⟩
    have htimes : l.admissions tenant r.path [(r, (l.handle s r).2)] = [r.now] := by
      simp [admissions, htenant, hnext]
    have hkey := buildStoreKey_of_isTenant htenant (l.routeKeyFromPath (some r.path))
    have haccepted := increment_governed hgoverned s r.path
    rw [hkey] at haccepted
    rw [htimes]
    rw [handle_governed hgoverned] at hnext ⊢
    obtain ⟨hadded, hlive⟩ :=
      retains_count_of_isNext hkept hpos hwindow hkey haccepted hnext
    have hfew : (live window r.now (times ++ [r.now])).length ≤ bound :=
      hlive.trans ((resolveEffectiveLimit_le_largestLimit _ _ _).trans hbound)
    exact ⟨hadded, within_concat_le htracks.few hfew⟩
  · have htimes : l.admissions tenant path [(r, (l.handle s r).2)] = [] := by
      simp only [admissions, List.filterMap_cons, if_neg hours, List.filterMap_nil]
    rw [htimes, List.append_nil]
    refine ⟨retains_handle hkept hpos ?_, htracks.few⟩
    intro routeKey _ hkey
    have htenant := isTenant_of_buildStoreKey_eq hkey
    rw [configFor_of_underOverride htenant (hunder htenant)]
    exact hwindow

theorem Tracks.status (htracks : Tracks l tenant path window bound now times s)
    (hwindow : window ≤ min override.windowMs l.apiKey.windowMs) (hlater : now ≤ q.now)
    (hunder : l.isTenant tenant q.client → UnderOverride override (.status q)) :
    Tracks l tenant path window bound q.now times (l.getStatus s q).1 := by
  refine ⟨retains_getStatus (htracks.kept.later hlater) ?_, htracks.few⟩
  intro hkey
  have htenant := isTenant_of_buildStoreKey_eq hkey
  exact hwindow.trans (windowMs_configFor_status htenant (hunder htenant))

theorem Tracks.serve (htracks : Tracks l tenant path window bound now times s)
    (hsetting : Setting l override path) (hpos : 0 < window)
    (hwindow : window ≤ min override.windowMs l.apiKey.windowMs)
    (hbound : largestLimit (l.overriddenTier override) path ≤ bound)
    {events : List Event} (hlater : ∀ e ∈ events, now ≤ e.now)
    (hrun : l.OverriddenRun override tenant events) (start : ℤ) :
    within start window (times ++ l.admissions tenant path (l.serve s events)) ≤ bound := by
  induction events generalizing s times now with
  | nil =>
    rw [Limiter.serve, admissions, List.filterMap_nil, List.append_nil]
    exact htracks.few start
  | cons e rest ih =>
    have hnow := hlater e List.mem_cons_self
    have hunder := hrun.overridden e List.mem_cons_self
    obtain ⟨hfirst, hchronological⟩ := List.pairwise_cons.mp hrun.chronological
    have hrest : l.OverriddenRun override tenant rest :=
      ⟨hchronological, fun e' he' => hrun.overridden e' (List.mem_cons_of_mem _ he')⟩
    cases e with
    | request r =>
      have hnext := htracks.request hsetting hpos (hwindow.trans (min_le_left _ _)) hbound
        hnow hunder
      have hsplit : l.admissions tenant path (l.serve s (.request r :: rest)) =
          l.admissions tenant path [(r, (l.handle s r).2)] ++
            l.admissions tenant path (l.serve (l.handle s r).1 rest) := by
        rw [Limiter.serve, ← List.singleton_append, admissions, List.filterMap_append]
        rfl
      rw [hsplit, ← List.append_assoc]
      exact ih hnext hfirst hrest
    | status => exact ih (htracks.status hwindow hnow hunder) hfirst hrest

/-- In an interval as long as the window of the tier there is room for as many windows of
the override as it takes to cover it. -/
theorem admitsAtMost (hsetting : Setting l override path) :
    l.AdmitsAtMost override path l.apiKey.windowMs
      (largestLimit (l.overriddenTier override) path *
        (l.apiKey.windowMs ⌈/⌉ override.windowMs)) := by
  intro tenant s events hrun start
  rcases Nat.eq_zero_or_pos l.apiKey.windowMs with hzero | hpos
  · rw [hzero, within_zero]
    exact Nat.zero_le _
  · have hoverride : 0 < override.windowMs := lt_of_lt_of_le (by decide) hsetting.window.1
    obtain ⟨now, hlater⟩ : ∃ now, ∀ e ∈ events, now ≤ e.now := by
      cases events with
      | nil => exact ⟨0, fun e he => absurd he List.not_mem_nil⟩
      | cons first =>
        refine ⟨first.now, fun e he => ?_⟩
        rcases List.mem_cons.mp he with rfl | hrest
        · exact le_rfl
        · exact (List.pairwise_cons.mp hrun.chronological).1 e hrest
    have hstart : Tracks l tenant path (min override.windowMs l.apiKey.windowMs)
        (largestLimit (l.overriddenTier override) path) now [] s :=
      ⟨Or.inl rfl, fun _ => Nat.zero_le _⟩
    have hfew := hstart.serve hsetting (lt_min hoverride hpos) le_rfl le_rfl hlater hrun
    refine (within_le_mul_ceilDiv (lt_min hoverride hpos) hfew start _).trans ?_
    apply Nat.mul_le_mul_left
    rcases Nat.le_total override.windowMs l.apiKey.windowMs with hshort | hlong
    · rw [min_eq_left hshort]
    · rw [min_eq_right hlong]
      have hself : l.apiKey.windowMs ⌈/⌉ l.apiKey.windowMs ≤ 1 := by
        rw [ceilDiv_le_iff_le_smul hpos, smul_eq_mul, Nat.mul_one]
      refine hself.trans (Nat.pos_of_ne_zero fun hzero => ?_)
      have hcover := (ceilDiv_le_iff_le_smul hoverride).mp hzero.le
      rw [smul_zero] at hcover
      omega

/-! ## Bursts -/

/-- A request of a tenant under the override. -/
def burstRequest (override : RateLimitOverride) (key path : List Char) (now : ℤ) : Request where
  now := now
  client := .apiKey key
  keyId := some "key"
  path := path
  method := .get
  override := .ok (some override)

/-- Bursts of requests that are a window of the override apart. -/
def bursts (override : RateLimitOverride) (key path : List Char) (size : ℕ) :
    ℕ → ℤ → List Event
  | 0, _ => []
  | count + 1, now =>
    List.replicate size (.request (burstRequest override key path now)) ++
      bursts override key path size count (now + override.windowMs)

theorem mem_bursts {key : List Char} {size count : ℕ} {e : Event}
    (he : e ∈ bursts override key path size count now) :
    ∃ at', now ≤ at' ∧ e = .request (burstRequest override key path at') := by
  induction count generalizing now with
  | zero => cases he
  | succ _ ih =>
    rcases List.mem_append.mp he with hfirst | hrest
    · exact ⟨now, le_rfl, List.eq_of_mem_replicate hfirst⟩
    · obtain ⟨at', hlater, hat⟩ := ih hrest
      exact ⟨at', by omega, hat⟩

theorem overriddenRun_bursts (key : List Char) (size count : ℕ) :
    l.OverriddenRun override tenant (bursts override key path size count now) where
  chronological := by
    induction count generalizing now with
    | zero => exact List.Pairwise.nil
    | succ _ ih =>
      refine List.pairwise_append.mpr ⟨?_, ih, ?_⟩
      · exact List.pairwise_replicate.mpr (Or.inr le_rfl)
      · intro first hfirst second hsecond
        obtain ⟨at', hlater, rfl⟩ := mem_bursts hsecond
        rw [List.eq_of_mem_replicate hfirst]
        change now ≤ at'
        omega
  overridden := by
    intro e he _
    obtain ⟨at', -, rfl⟩ := mem_bursts he
    exact ⟨rfl, rfl⟩

section

variable {key : List Char} (hsetting : Setting l override path) (hkey : key ∉ l.adminKeys)
  (hroute : l.routeKeyFromPath (some path) ≠ aggregateRoute)
include hsetting hkey hroute

theorem handle_burstRequest {count : ℕ}
    (hoccupied : Occupied override.windowMs now count
      (s.buckets (tenantStoreKey (l.sha256Hex key) (l.routeKeyFromPath (some path)))))
    (hroom : count < (resolveEffectiveLimit (l.overriddenTier override)
      (getRouteRateLimitConfig path) .get).1) :
    (l.handle s (burstRequest override key path now)).2.isNext = true ∧
      Occupied override.windowMs now (count + 1)
        ((l.handle s (burstRequest override key path now)).1.buckets
          (tenantStoreKey (l.sha256Hex key) (l.routeKeyFromPath (some path)))) := by
  have htenant : l.isTenant (l.sha256Hex key) (burstRequest override key path now).client :=
    ⟨hkey, rfl⟩
  have hgoverned : Governed l override (l.sha256Hex key) (burstRequest override key path now) :=
    ⟨hsetting.enabled, hsetting.window, hsetting.limited, htenant, rfl, rfl⟩
  have hpos : 0 < override.windowMs := lt_of_lt_of_le (by decide) hsetting.window.1
  have hhandle : l.handle s (burstRequest override key path now) =
      l.count s (burstRequest override key path now) override.windowMs
        (resolveEffectiveLimit (l.overriddenTier override)
          (getRouteRateLimitConfig path) .get).1 := handle_governed hgoverned s
  rw [hhandle]
  rcases count_eq (l := l) s (burstRequest override key path now) override.windowMs
      (resolveEffectiveLimit (l.overriddenTier override) (getRouteRateLimitConfig path) .get).1
    with ⟨number, resetAt, s₁, hfirst, hwithin, hsecond⟩ | ⟨⟨error, herror⟩, -⟩
  · rw [buildStoreKey_of_isTenant htenant] at hfirst hsecond
    obtain ⟨hnumber, hcounted⟩ := InMemoryStore.occupied_increment hoccupied hpos hfirst
    have hnumber' : number = count + 1 := hnumber
    refine ⟨hwithin.mpr (hnumber' ▸ hroom), ?_⟩
    rcases hsecond with hstore | ⟨result, haggregate, hstore⟩
    · rw [hstore]
      exact hcounted
    · have hne : tenantStoreKey (l.sha256Hex key) (l.routeKeyFromPath (some path)) ≠
          tenantStoreKey (l.sha256Hex key) aggregateRoute := by
        intro hsame
        have hrest := List.append_cancel_left (List.append_cancel_left hsame)
        exact hroute ((List.cons_inj_right ':').mp
          (List.append_cancel_left ((List.cons_inj_right ':').mp hrest)))
      rw [hstore]
      exact InMemoryStore.occupied_increment_of_ne hcounted hne haggregate
  · obtain ⟨result, hresult⟩ := increment_governed hgoverned s path
    rw [show (burstRequest override key path now).path = path from rfl, hresult] at herror
    cases herror

theorem exists_admissions_replicate {count : ℕ} (size : ℕ) (rest : List Event)
    (hoccupied : Occupied override.windowMs now count
      (s.buckets (tenantStoreKey (l.sha256Hex key) (l.routeKeyFromPath (some path)))))
    (hroom : count + size ≤ (resolveEffectiveLimit (l.overriddenTier override)
      (getRouteRateLimitConfig path) .get).1) :
    ∃ s', Occupied override.windowMs now (count + size)
        (s'.buckets (tenantStoreKey (l.sha256Hex key) (l.routeKeyFromPath (some path)))) ∧
      l.admissions (l.sha256Hex key) path (l.serve s
          (List.replicate size (.request (burstRequest override key path now)) ++ rest)) =
        List.replicate size now ++ l.admissions (l.sha256Hex key) path (l.serve s' rest) := by
  induction size generalizing s count with
  | zero => exact ⟨s, hoccupied, rfl⟩
  | succ _ ih =>
    obtain ⟨hnext, hoccupied'⟩ :=
      handle_burstRequest hsetting hkey hroute hoccupied (by omega)
    obtain ⟨s', hend, hadmissions⟩ := ih hoccupied' (by omega)
    refine ⟨s', by rwa [Nat.add_right_comm] at hend, ?_⟩
    have htenant : l.isTenant (l.sha256Hex key) (burstRequest override key path now).client :=
      ⟨hkey, rfl⟩
    have hadmitted : l.isTenant (l.sha256Hex key) (burstRequest override key path now).client ∧
        (burstRequest override key path now).path = path ∧
          (l.handle s (burstRequest override key path now)).2.isNext = true :=
      ⟨htenant, rfl, hnext⟩
    rw [List.replicate_succ, List.replicate_succ, List.cons_append, List.cons_append,
      Limiter.serve, admissions, List.filterMap_cons, if_pos hadmitted]
    exact congrArg (now :: ·) hadmissions

theorem mul_le_within_bursts {size : ℕ} (count : ℕ) {start : ℤ} {length : ℕ}
    (hsize : size ≤ (resolveEffectiveLimit (l.overriddenTier override)
      (getRouteRateLimitConfig path) .get).1)
    (hoccupied : Occupied override.windowMs now 0
      (s.buckets (tenantStoreKey (l.sha256Hex key) (l.routeKeyFromPath (some path)))))
    (hstart : start ≤ now)
    (hend : ∀ burst < count, now + burst * override.windowMs < start + length) :
    size * count ≤ within start length
      (l.admissions (l.sha256Hex key) path
        (l.serve s (bursts override key path size count now))) := by
  induction count generalizing now s with
  | zero => exact Nat.zero_le _
  | succ count ih =>
    obtain ⟨s', hoccupied', hadmissions⟩ := exists_admissions_replicate hsetting hkey hroute size
      (bursts override key path size count (now + override.windowMs)) hoccupied (by omega)
    have hfirst : within start length (List.replicate size now) = size := by
      have hin := hend 0 (Nat.succ_pos count)
      rw [within, List.countP_replicate, if_pos]
      rw [decide_eq_true_eq]
      omega
    have hrest := ih hoccupied'.after (by omega) (by
      intro burst hburst
      have := hend (burst + 1) (by omega)
      push_cast at this
      linarith)
    rw [bursts, hadmissions, within_append, hfirst, Nat.mul_succ]
    omega

end

theorem not_admitsAtMost (count : ℕ) (hsetting : Setting l override path)
    (hroute : ∀ l : Limiter, l.routeKeyFromPath (some path) ≠ aggregateRoute)
    (hcount : ∀ burst < count, burst * override.windowMs < l.apiKey.windowMs)
    (hbound : bound < (resolveEffectiveLimit (l.overriddenTier override)
      (getRouteRateLimitConfig path) .get).1 * count) :
    ¬ l.AdmitsAtMost override path l.apiKey.windowMs bound := by
  intro hadmits
  obtain ⟨key, hkey⟩ := Infinite.exists_notMem_finset l.adminKeys.toFinset
  rw [List.mem_toFinset] at hkey
  have hempty : Occupied override.windowMs 0 0 ((⟨fun _ => none, 0⟩ : InMemoryStore).buckets
      (tenantStoreKey (l.sha256Hex key) (l.routeKeyFromPath (some path)))) := rfl
  have hinside : ∀ burst < count,
      (0 : ℤ) + burst * override.windowMs < 0 + l.apiKey.windowMs := by
    intro burst hlt
    have := hcount burst hlt
    omega
  have hburst := mul_le_within_bursts hsetting hkey (hroute l) count le_rfl hempty le_rfl hinside
  have hle := hburst.trans (hadmits _ _ _ (overriddenRun_bursts key _ count) 0)
  omega

/-! ## Tightening -/

/-- On every path without a budget, at most as many requests come through under the override
in an interval as long as the tier's window as the tier lets through. -/
def Tightens (l : Limiter) (override : RateLimitOverride) : Prop :=
  ∀ path, path ∉ exemptPaths → getRouteRateLimitConfig path = none →
    l.AdmitsAtMost override path l.apiKey.windowMs l.apiKey.max

/-- The same for every path that the limiter applies to, with the limit it has in the tier. -/
def TightensRoutes (l : Limiter) (override : RateLimitOverride) : Prop :=
  ∀ path, IsLimited path →
    l.AdmitsAtMost override path l.apiKey.windowMs (largestLimit l.apiKey path)

theorem isLimited_of_noBudget {path : List Char} (hpath : path ∉ exemptPaths)
    (hnone : getRouteRateLimitConfig path = none) : IsLimited path := by
  refine ⟨hpath, ?_⟩
  rw [hnone]
  exact fun route hroute => absurd hroute (Option.not_mem_none route)

variable (henabled : l.apiKey.enabled = true)
  (hwindow : minWindowMs ≤ override.windowMs ∧ override.windowMs ≤ maxWindowMs)
include henabled hwindow

/-- An override tightens the tier when its limit fits into that of the tier as often as its
window fits into that of the tier, begun windows counted. -/
theorem tightens_iff :
    l.Tightens override ↔
      override.maxRequests * (l.apiKey.windowMs ⌈/⌉ override.windowMs) ≤ l.apiKey.max := by
  have hpos : 0 < override.windowMs := lt_of_lt_of_le (by decide) hwindow.1
  apply Iff.intro
  · intro htightens
    by_contra hexcess
    have hpath : "/v".toList ∉ exemptPaths := by decide
    have hnone : getRouteRateLimitConfig "/v".toList = none := by decide
    have hsetting : Setting l override "/v".toList :=
      ⟨henabled, hwindow, isLimited_of_noBudget hpath hnone⟩
    have hroute : ∀ l : Limiter, l.routeKeyFromPath (some "/v".toList) ≠ aggregateRoute := by
      intro l
      change "v".toList ≠ aggregateRoute
      decide
    refine not_admitsAtMost (l.apiKey.windowMs ⌈/⌉ override.windowMs) hsetting hroute ?_ ?_
      (htightens _ hpath hnone)
    · intro burst hburst
      by_contra hcovered
      have hcover : l.apiKey.windowMs ⌈/⌉ override.windowMs ≤ burst := by
        rw [ceilDiv_le_iff_le_smul hpos, smul_eq_mul, Nat.mul_comm]
        exact Nat.le_of_not_lt hcovered
      omega
    · rw [hnone]
      exact Nat.lt_of_not_le hexcess
  · intro hfits path hpath hnone tenant s events hrun start
    have hsetting : Setting l override path :=
      ⟨henabled, hwindow, isLimited_of_noBudget hpath hnone⟩
    have hle := admitsAtMost hsetting tenant s events hrun start
    rw [largestLimit_of_noBudget hnone] at hle
    exact hle.trans hfits

theorem tightensRoutes_iff (hmax : override.maxRequests ≤ l.apiKey.max) :
    l.TightensRoutes override ↔ l.apiKey.windowMs ≤ override.windowMs := by
  have hpos : 0 < override.windowMs := lt_of_lt_of_le (by decide) hwindow.1
  apply Iff.intro
  · intro htightens
    by_contra hshort
    have hbudget : getRouteRateLimitConfig "/api/auth".toList = some ⟨50, 10, false⟩ := by decide
    have hlimited : IsLimited "/api/auth".toList := by
      refine ⟨by decide, ?_⟩
      intro route hroute
      rw [hbudget, Option.mem_some_iff] at hroute
      rw [← hroute]
    have hroute : ∀ l : Limiter,
        l.routeKeyFromPath (some "/api/auth".toList) ≠ aggregateRoute := by
      intro l
      change "api_2fauth".toList ≠ aggregateRoute
      decide
    refine not_admitsAtMost 2 ⟨henabled, hwindow, hlimited⟩ hroute ?_ ?_ (htightens _ hlimited)
    · intro burst hburst
      obtain rfl | rfl : burst = 0 ∨ burst = 1 := by omega
      · omega
      · omega
    · rw [largestLimit, hbudget]
      change max 50 10 < 50 * 2
      decide
  · intro hlong path hlimited tenant s events hrun start
    have hle := admitsAtMost ⟨henabled, hwindow, hlimited⟩ tenant s events hrun start
    have hone : l.apiKey.windowMs ⌈/⌉ override.windowMs ≤ 1 := by
      rw [ceilDiv_le_iff_le_smul hpos, smul_eq_mul, Nat.mul_one]
      exact hlong
    calc
      _ ≤ largestLimit (l.overriddenTier override) path *
          (l.apiKey.windowMs ⌈/⌉ override.windowMs) := hle
      _ ≤ largestLimit (l.overriddenTier override) path * 1 := Nat.mul_le_mul_left _ hone
      _ = largestLimit (l.overriddenTier override) path := Nat.mul_one _
      _ ≤ largestLimit l.apiKey path := largestLimit_mono hmax path

end Limiter

/-- A limiter with the default tiers. -/
def sampleLimiter : Limiter where
  ip := ⟨60000, 100, true⟩
  apiKey := ⟨60000, 500, true⟩
  admin := ⟨60000, 2000, true⟩
  adminKeys := []
  allowlistIps := []
  sha256Hex := fun text => ⟨(text ++ List.replicate 64 '0').take 64, by simp⟩
  normaliseIp := trim

/-- An override of 500 requests for each window. -/
def sampleOverride (windowMs : ℕ) : RateLimitOverride :=
  ⟨"o1", "key", 500, windowMs, none, "admin", 0, 0⟩

theorem createOverride_sample :
    createOverride (fun _ => none) sampleLimiter.apiKey [] "o1" 0
      ⟨"key", 500, 1000, none⟩ "admin" = .ok (sampleOverride 1000) := by
  rfl

end Fluxora.RateLimit
