/-
# What a sliding window counts

While the calls on a key have one window, the store counts for each of them the increments that
were recorded in the window before it, and so the limiter lets at most as many requests through in
any window as the limit says. Both hold only of windows and keys that the store takes.
-/

import Fluxora.RateLimit.OverrideRate

namespace Fluxora.RateLimit

open Lib.JsText Lib.SlidingWindow

/-! ## Calls of the store -/

inductive StoreOperation
  | increment
  | getCount
  deriving DecidableEq

structure StoreCall where
  operation : StoreOperation
  key : List Char
  windowMs : ℕ
  now : ℤ

/-- The store takes the key and the window. -/
def StoreCall.Accepted (call : StoreCall) : Prop :=
  assertOperationInputs call.key call.windowMs = .ok ()

instance (call : StoreCall) : Decidable call.Accepted :=
  inferInstanceAs (Decidable (assertOperationInputs call.key call.windowMs = .ok ()))

def StoreCall.Records (call : StoreCall) : Prop := call.operation = .increment ∧ call.Accepted

instance (call : StoreCall) : Decidable call.Records := instDecidableAnd

namespace InMemoryStore

def empty : InMemoryStore := ⟨fun _ => none, 0⟩

def answer (s : InMemoryStore) (call : StoreCall) :
    Except RateLimitInputError ((ℕ × ℤ) × InMemoryStore) :=
  match call.operation with
  | .increment => s.increment call.key call.windowMs call.now
  | .getCount => s.getCount call.key call.windowMs call.now

/-- The store after a call. One that is refused leaves it alone. -/
def after (s : InMemoryStore) (call : StoreCall) : InMemoryStore :=
  match s.answer call with
  | .ok r => r.2
  | .error _ => s

def afterAll (s : InMemoryStore) (calls : List StoreCall) : InMemoryStore := calls.foldl after s

end InMemoryStore

/-- The times of the increments that have been recorded under a name of their keys. -/
def recordedAs (name : List Char → List Char) (under : List Char) (calls : List StoreCall) :
    List ℤ :=
  calls.filterMap fun call =>
    if name call.key = under ∧ call.Records then some call.now else none

/-- The times of the increments that have been recorded under a key. -/
def recorded (key : List Char) (calls : List StoreCall) : List ℤ := recordedAs id key calls

/-- The times of the calls are in order, and those on a key have one window. -/
structure FixedWindow (key : List Char) (window : ℕ) (calls : List StoreCall) : Prop where
  chronological : calls.Pairwise fun first second => first.now ≤ second.now
  fixed : ∀ call ∈ calls, call.key = key → call.windowMs = window

/-- Every call on the key is answered with the number of the increments recorded in the window
that ends with it. -/
def CountsExactly (key : List Char) (window : ℕ) : Prop :=
  ∀ calls call, FixedWindow key window (calls ++ [call]) → call.key = key →
    ∃ r, (InMemoryStore.empty.afterAll calls).answer call = .ok r ∧
      r.1.1 = (recorded key (calls ++ [call])).countP fun t =>
        call.now - window < t ∧ t ≤ call.now

/-! ## Windows -/

/-- The windows that `validateRateLimitsConfig` accepts from the variables of the process. -/
def startupAcceptsWindow (windowMs : ℕ) : Bool := 1 ≤ windowMs && windowMs ≤ maxWindowMs

/-! ## Requests of the limiter -/

/-- Under what a request is counted. -/
structure Charge where
  key : List Char
  windowMs : ℕ
  limit : ℕ
  deriving DecidableEq

namespace Limiter

variable (l : Limiter)

local instance : LawfulBEq (List Char) := inferInstance

/-- The requests that come to the store. -/
def charged (r : Request) : Option Charge :=
  if !l.ip.enabled && !l.apiKey.enabled then none
  else if r.path ∈ exemptPaths then none
  else if l.isAllowlisted r.client then none
  else
    let config := l.configFor r.client r.keyId r.override
    if !config.enabled then none
    else
      let (limit, isExempt) :=
        resolveEffectiveLimit config (getRouteRateLimitConfig r.path) r.method
      if isExempt then none
      else some ⟨l.buildStoreKey r.client (l.routeKeyFromPath (some r.path)), config.windowMs,
        limit⟩

/-- What an event does under a key, it does with one window and one limit. -/
def FixedOn (charge : Charge) : Event → Prop
  | .request r => ∀ own, l.charged r = some own →
      (own.key = charge.key → own = charge) ∧
        (l.buildStoreKey r.client aggregateRoute = charge.key → own.windowMs = charge.windowMs)
  | .status q => l.buildStoreKey q.client (l.routeKeyFromPath q.path) = charge.key →
      (l.configFor q.client q.keyId q.override).windowMs = charge.windowMs

/-- The times of the requests under a key that have been let through. -/
def admitted (key : List Char) (answers : List (Request × Outcome)) : List ℤ :=
  answers.filterMap fun answer =>
    if (l.charged answer.1).any (fun own => own.key = key) ∧ answer.2.isNext = true then
      some answer.1.now
    else none

/-- In every run and every window, no more requests are let through under the key than its
limit. -/
def AdmitsWithin (charge : Charge) : Prop :=
  ∀ s events, events.Pairwise (fun first second => first.now ≤ second.now) →
    (∀ e ∈ events, l.FixedOn charge e) →
      ∀ start, within start charge.windowMs (l.admitted charge.key (l.serve s events)) ≤
        charge.limit

end Limiter

/-! ## The bucket of a key -/

/-- The timestamps of a bucket, if there is one. -/
def timesOf (bucket : Option SlidingBucket) : List ℤ :=
  (bucket.map SlidingBucket.timestamps).getD []

/-- The bucket of a key has just those of some recorded times that are in the window. -/
structure Mirrors (window : ℕ) (now : ℤ) (times : List ℤ) (bucket : Option SlidingBucket) :
    Prop where
  windowMs_eq : ∀ b ∈ bucket, b.windowMs = window
  sorted : (timesOf bucket).Pairwise (· ≤ ·)
  past : ∀ t ∈ timesOf bucket, t ≤ now
  live_eq : live window now (timesOf bucket) = live window now times

section

variable {window : ℕ} {now : ℤ} {times : List ℤ} {bucket : Option SlidingBucket}

theorem alive_eq_prune (bucket : Option SlidingBucket) (window : ℕ) (now : ℤ) :
    InMemoryStore.alive bucket window now = prune window now (timesOf bucket) := by
  cases bucket with
  | none | some => rfl

theorem Mirrors.alive_eq (h : Mirrors window now times bucket) :
    InMemoryStore.alive bucket window now = live window now times := by
  rw [alive_eq_prune, prune_eq_live h.sorted, h.live_eq]

theorem Mirrors.later (h : Mirrors window now times bucket) {later : ℤ} (hle : now ≤ later) :
    Mirrors window later times bucket where
  windowMs_eq := h.windowMs_eq
  sorted := h.sorted
  past t ht := (h.past t ht).trans hle
  live_eq := by rw [← live_live hle, h.live_eq, live_live hle]

theorem Mirrors.pruned (h : Mirrors window now times bucket) :
    Mirrors window now times (some ⟨live window now times, window⟩) where
  windowMs_eq b hb := by
    cases hb
    rfl
  sorted := by
    change (live window now times).Pairwise (· ≤ ·)
    rw [← h.live_eq]
    exact h.sorted.filter _
  past t ht := by
    change t ∈ live window now times at ht
    rw [← h.live_eq] at ht
    exact h.past t (List.mem_of_mem_filter ht)
  live_eq := live_live le_rfl times

theorem Mirrors.appended (h : Mirrors window now times bucket) :
    Mirrors window now (times ++ [now]) (some ⟨live window now times ++ [now], window⟩) where
  windowMs_eq b hb := by
    cases hb
    rfl
  sorted := by
    change (live window now times ++ [now]).Pairwise (· ≤ ·)
    refine List.pairwise_append.mpr ⟨h.pruned.sorted, List.pairwise_singleton _ _, ?_⟩
    intro t ht u hu
    rw [List.mem_singleton.mp hu]
    exact h.pruned.past t ht
  past t ht := by
    rcases List.mem_append.mp ht with hold | hnew
    · exact h.pruned.past t hold
    · exact (List.mem_singleton.mp hnew).le
  live_eq := by
    change live window now (live window now times ++ [now]) = _
    rw [live_append, live_append, live_live le_rfl]

theorem Mirrors.dropped (h : live window now times = []) : Mirrors window now times none where
  windowMs_eq b hb := by cases hb
  sorted := List.Pairwise.nil
  past t ht := absurd ht List.not_mem_nil
  live_eq := h.symm

theorem Mirrors.swept (h : Mirrors window now times bucket) :
    Mirrors window now times (bucket.bind fun b => b.swept now) := by
  cases bucket with
  | none => exact h
  | some b =>
    have halive : prune b.windowMs now b.timestamps = live window now times := by
      rw [h.windowMs_eq b rfl]
      exact h.alive_eq
    change Mirrors window now times (b.swept now)
    rw [SlidingBucket.swept, SlidingBucket.prune, halive, h.windowMs_eq b rfl]
    split_ifs with hempty
    · exact Mirrors.dropped hempty
    · exact h.pruned

end

namespace InMemoryStore

variable {s : InMemoryStore} {window : ℕ} {now : ℤ} {times : List ℤ} {key : List Char}

theorem mirrors_maybeSweep (h : Mirrors window now times (s.buckets key)) :
    Mirrors window now times ((s.maybeSweep now).buckets key) := by
  rcases buckets_maybeSweep s now key with hsame | hswept
  · rw [hsame]
    exact h
  · rw [hswept]
    exact h.swept

variable {call : StoreCall}

theorem answer_of_mirrors (hpos : 0 < window)
    (h : Mirrors window call.now times (s.buckets call.key)) (hwindow : call.windowMs = window)
    (hinputs : assertOperationInputs call.key call.windowMs = .ok ()) :
    ∃ r, s.answer call = .ok r ∧
      r.1.1 = (live window call.now (times ++ recorded call.key [call])).length ∧
      Mirrors window call.now (times ++ recorded call.key [call]) (r.2.buckets call.key) := by
  have halive := (mirrors_maybeSweep h).alive_eq
  rw [answer]
  cases hoperation : call.operation with
  | increment =>
    have hrecorded : recorded call.key [call] = [call.now] := by
      have hrecords : call.Records := ⟨hoperation, hinputs⟩
      simp [recorded, recordedAs, hrecords]
    obtain ⟨r, hr⟩ := increment_isOk hinputs s call.now
    obtain ⟨hcount, hstore⟩ := increment_eq_ok hr
    rw [hwindow, halive] at hcount hstore
    refine ⟨r, hr, ?_, ?_⟩
    · rw [hcount, hrecorded, live_append, live_singleton hpos, List.length_append,
        List.length_singleton]
    · rw [hstore, buckets_setBucket_self, hrecorded]
      exact h.appended
  | getCount =>
    have hrecorded : recorded call.key [call] = [] := by
      have hreads : ¬ call.Records := by simp [StoreCall.Records, hoperation]
      simp [recorded, recordedAs, hreads]
    obtain ⟨r, hr⟩ := getCount_isOk hinputs s call.now
    obtain ⟨hcount, hstore⟩ := getCount_eq_ok hr
    rw [hwindow, halive] at hcount hstore
    refine ⟨r, hr, ?_, ?_⟩
    · rw [hcount, hrecorded, List.append_nil]
    · rw [hstore, buckets_setBucket_self, hrecorded, List.append_nil]
      split_ifs with hempty
      · exact Mirrors.dropped hempty
      · exact h.pruned

theorem buckets_answer_of_ne {r : (ℕ × ℤ) × InMemoryStore} (h : s.answer call = .ok r)
    (hne : key ≠ call.key) : r.2.buckets key = (s.maybeSweep call.now).buckets key := by
  rw [answer] at h
  cases hoperation : call.operation with
  | increment =>
    rw [hoperation] at h
    exact buckets_increment_of_ne h hne
  | getCount =>
    rw [hoperation] at h
    rw [(getCount_eq_ok h).2, buckets_setBucket_of_ne hne]

theorem mirrors_after (hpos : 0 < window) (hinputs : assertOperationInputs key window = .ok ())
    (h : Mirrors window call.now times (s.buckets key))
    (hwindow : call.key = key → call.windowMs = window) :
    Mirrors window call.now (times ++ recorded key [call]) ((s.after call).buckets key) := by
  by_cases hkey : call.key = key
  · subst hkey
    rw [← hwindow rfl] at hinputs
    obtain ⟨r, hr, -, hmirrors⟩ := answer_of_mirrors hpos h (hwindow rfl) hinputs
    rw [after, hr]
    exact hmirrors
  · have hrecorded : recorded key [call] = [] := by
      simp [recorded, recordedAs, hkey]
    rw [hrecorded, List.append_nil, after]
    cases hr : s.answer call with
    | error => exact h
    | ok =>
      rw [buckets_answer_of_ne hr (Ne.symm hkey)]
      exact mirrors_maybeSweep h

theorem recorded_append (key : List Char) (first second : List StoreCall) :
    recorded key (first ++ second) = recorded key first ++ recorded key second :=
  List.filterMap_append

theorem mirrors_afterAll (hpos : 0 < window)
    (hinputs : assertOperationInputs key window = .ok ()) {calls : List StoreCall}
    (hcalls : FixedWindow key window calls) {last : ℤ} (hlast : ∀ call ∈ calls, call.now ≤ last)
    (hstart : ∀ call ∈ calls, now ≤ call.now) (hle : now ≤ last)
    (h : Mirrors window now times (s.buckets key)) :
    Mirrors window last (times ++ recorded key calls) ((s.afterAll calls).buckets key) := by
  induction calls generalizing s now times with
  | nil =>
    rw [recorded, recordedAs, List.filterMap_nil, List.append_nil]
    exact h.later hle
  | cons call rest ih =>
    obtain ⟨hfirst, hrest⟩ := List.pairwise_cons.mp hcalls.chronological
    have hafter := mirrors_after hpos hinputs (h.later (hstart call List.mem_cons_self))
      (hcalls.fixed call List.mem_cons_self)
    have hsplit : recorded key (call :: rest) = recorded key [call] ++ recorded key rest :=
      recorded_append key [call] rest
    rw [hsplit, ← List.append_assoc]
    exact ih ⟨hrest, fun c hc => hcalls.fixed c (List.mem_cons_of_mem _ hc)⟩
      (fun c hc => hlast c (List.mem_cons_of_mem _ hc)) hfirst
      (hlast call List.mem_cons_self) hafter

end InMemoryStore

variable {name : List Char → List Char} {under : List Char}

theorem mem_recordedAs {calls : List StoreCall} {t : ℤ} :
    t ∈ recordedAs name under calls ↔
      ∃ call ∈ calls, (name call.key = under ∧ call.Records) ∧ call.now = t := by
  simp only [recordedAs, List.mem_filterMap, Option.ite_none_right_eq_some, Option.some.injEq]

theorem le_of_mem_recordedAs {calls : List StoreCall} {last t : ℤ}
    (hlast : ∀ call ∈ calls, call.now ≤ last) (hmem : t ∈ recordedAs name under calls) :
    t ≤ last := by
  obtain ⟨call, hcall, -, rfl⟩ := mem_recordedAs.mp hmem
  exact hlast call hcall

theorem le_of_mem_concat {past : List StoreCall} {call : StoreCall}
    (hbefore : ∀ earlier ∈ past, earlier.now ≤ call.now) :
    ∀ own ∈ past ++ [call], own.now ≤ call.now := by
  intro own hown
  rcases List.mem_append.mp hown with hold | hnew
  · exact hbefore own hold
  · rw [List.mem_singleton.mp hnew]

theorem mirrors_of_fixedWindow {key : List Char} {window : ℕ}
    (hinputs : assertOperationInputs key window = .ok ()) {calls : List StoreCall}
    (hcalls : FixedWindow key window calls) {last : ℤ} (hlast : ∀ call ∈ calls, call.now ≤ last) :
    Mirrors window last (recorded key calls)
      ((InMemoryStore.empty.afterAll calls).buckets key) := by
  have hpos : 0 < window := pos_of_assertOperationInputs hinputs
  obtain ⟨start, hstart, hle⟩ : ∃ start, (∀ c ∈ calls, start ≤ c.now) ∧ start ≤ last := by
    cases calls with
    | nil => exact ⟨last, fun c hc => absurd hc List.not_mem_nil, le_rfl⟩
    | cons first =>
      refine ⟨first.now, fun c hc => ?_, hlast first List.mem_cons_self⟩
      rcases List.mem_cons.mp hc with rfl | hrest
      · exact le_rfl
      · exact (List.pairwise_cons.mp hcalls.chronological).1 c hrest
  have hmirrors := InMemoryStore.mirrors_afterAll (s := InMemoryStore.empty) hpos hinputs hcalls
    hlast hstart hle (Mirrors.dropped rfl : Mirrors window start [] none)
  rw [List.nil_append] at hmirrors
  exact hmirrors

theorem countsExactly_iff {key : List Char} {window : ℕ} :
    CountsExactly key window ↔ assertOperationInputs key window = .ok () := by
  apply Iff.intro
  · intro hexact
    obtain ⟨r, hr, -⟩ := hexact [] ⟨.getCount, key, window, 0⟩
      ⟨List.pairwise_singleton _ _, fun call hcall hkey => by
        rw [List.mem_singleton.mp hcall]⟩ rfl
    obtain ⟨⟨⟩, hinputs, -⟩ := Lib.Fallible.bind_eq_ok.mp hr
    exact hinputs
  · intro hinputs calls call hcalls hkey
    obtain ⟨hearlier, -, hlast⟩ := List.pairwise_append.mp hcalls.chronological
    have hbefore : ∀ c ∈ calls, c.now ≤ call.now :=
      fun c hc => hlast c hc call (List.mem_singleton_self _)
    have hwindow : call.windowMs = window :=
      hcalls.fixed call (List.mem_append_right _ (List.mem_singleton_self _)) hkey
    have hmirrors := mirrors_of_fixedWindow hinputs
      ⟨hearlier, fun c hc => hcalls.fixed c (List.mem_append_left _ hc)⟩ hbefore
    subst hkey
    have hpos : 0 < window := pos_of_assertOperationInputs hinputs
    rw [← hwindow] at hinputs
    obtain ⟨r, hr, hcount, -⟩ := InMemoryStore.answer_of_mirrors hpos hmirrors hwindow hinputs
    refine ⟨r, hr, ?_⟩
    rw [hcount, ← InMemoryStore.recorded_append, live, ← List.countP_eq_length_filter]
    apply List.countP_congr
    intro t ht
    have hpast : t ≤ call.now := le_of_mem_recordedAs (le_of_mem_concat hbefore) ht
    simp [hpast]

/-! ## The requests that are let through -/

namespace Limiter

variable {l : Limiter} {charge : Charge} {s : InMemoryStore} {now : ℤ} {times : List ℤ}
  {r : Request}

theorem handle_eq (s : InMemoryStore) (r : Request) :
    l.handle s r =
      match l.charged r with
      | some own => l.count s r own.windowMs own.limit
      | none => (s, .next none) := by
  rw [handle, charged]
  dsimp only
  split_ifs <;> rfl

theorem charged_key {own : Charge} (h : l.charged r = some own) :
    l.buildStoreKey r.client (l.routeKeyFromPath (some r.path)) = own.key := by
  rw [charged] at h
  dsimp only at h
  split_ifs at h
  cases h
  rfl

/-- The bucket of the key still has the requests that were let through in the window, and
there are few of them in every window. -/
structure KeepsUp (charge : Charge) (now : ℤ) (times : List ℤ) (s : InMemoryStore) : Prop where
  kept : Retains charge.windowMs now times (s.buckets charge.key)
  few : ∀ start, within start charge.windowMs times ≤ charge.limit

theorem KeepsUp.request (h : KeepsUp charge now times s)
    (hinputs : assertOperationInputs charge.key charge.windowMs = .ok ())
    (hpos : 0 < charge.windowMs) (hlater : now ≤ r.now) (hfixed : l.FixedOn charge (.request r)) :
    KeepsUp charge r.now (times ++ l.admitted charge.key [(r, (l.handle s r).2)])
      (l.handle s r).1 := by
  have hkept := h.kept.later hlater
  cases hcharged : l.charged r with
  | none =>
    have hnone : l.admitted charge.key [(r, (l.handle s r).2)] = [] := by
      simp [admitted, hcharged]
    have hhandle : l.handle s r = (s, .next none) := by rw [handle_eq, hcharged]
    rw [hnone, List.append_nil, hhandle]
    exact ⟨hkept, h.few⟩
  | some own =>
    have hhandle : l.handle s r = l.count s r own.windowMs own.limit := by
      rw [handle_eq, hcharged]
    have hkey := charged_key hcharged
    obtain ⟨hsame, haggregate⟩ := hfixed own hcharged
    by_cases hadmitted : own.key = charge.key ∧ (l.handle s r).2.isNext = true
    · obtain ⟨howns, hnext⟩ := hadmitted
      obtain rfl := hsame howns
      have htimes : l.admitted own.key [(r, (l.handle s r).2)] = [r.now] := by
        simp [admitted, hcharged, hnext]
      rw [htimes]
      rw [hhandle] at hnext ⊢
      obtain ⟨hadded, hlive⟩ := retains_count_of_isNext hkept hpos le_rfl hkey
        (InMemoryStore.increment_isOk hinputs s r.now) hnext
      exact ⟨hadded, within_concat_le h.few hlive⟩
    · have htimes : l.admitted charge.key [(r, (l.handle s r).2)] = [] := by
        simp only [admitted, hcharged, Option.any_some, decide_eq_true_eq,
          List.filterMap_cons, if_neg hadmitted, List.filterMap_nil]
      rw [htimes, List.append_nil, hhandle]
      refine ⟨retains_count hkept hpos ?_, h.few⟩
      intro routeKey hroute hroutes
      simp only [writtenRoutes, List.mem_cons, List.not_mem_nil, or_false] at hroute
      rcases hroute with rfl | rfl
      · rw [hsame (hkey.symm.trans hroutes)]
      · exact (haggregate hroutes).ge

theorem KeepsUp.status (h : KeepsUp charge now times s) {q : StatusQuery} (hlater : now ≤ q.now)
    (hfixed : l.FixedOn charge (.status q)) :
    KeepsUp charge q.now times (l.getStatus s q).1 :=
  ⟨retains_getStatus (h.kept.later hlater) fun hkey => (hfixed hkey).ge, h.few⟩

theorem KeepsUp.serve (h : KeepsUp charge now times s)
    (hinputs : assertOperationInputs charge.key charge.windowMs = .ok ())
    (hpos : 0 < charge.windowMs) {events : List Event} (hlater : ∀ e ∈ events, now ≤ e.now)
    (hchronological : events.Pairwise fun first second => first.now ≤ second.now)
    (hfixed : ∀ e ∈ events, l.FixedOn charge e) (start : ℤ) :
    within start charge.windowMs (times ++ l.admitted charge.key (l.serve s events)) ≤
      charge.limit := by
  induction events generalizing s times now with
  | nil =>
    rw [Limiter.serve, admitted, List.filterMap_nil, List.append_nil]
    exact h.few start
  | cons e rest ih =>
    have hnow := hlater e List.mem_cons_self
    have hevent := hfixed e List.mem_cons_self
    have hrest : ∀ e ∈ rest, l.FixedOn charge e :=
      fun e' he' => hfixed e' (List.mem_cons_of_mem _ he')
    obtain ⟨hfirst, hordered⟩ := List.pairwise_cons.mp hchronological
    cases e with
    | request r =>
      have hsplit : l.admitted charge.key (l.serve s (.request r :: rest)) =
          l.admitted charge.key [(r, (l.handle s r).2)] ++
            l.admitted charge.key (l.serve (l.handle s r).1 rest) := by
        rw [Limiter.serve, ← List.singleton_append, admitted, List.filterMap_append]
        rfl
      rw [hsplit, ← List.append_assoc]
      exact ih (h.request hinputs hpos hnow hevent) hfirst hordered hrest
    | status => exact ih (h.status hnow hevent) hfirst hordered hrest

theorem admitsWithin_of_inputs
    (hinputs : assertOperationInputs charge.key charge.windowMs = .ok ())
    (hpos : 0 < charge.windowMs) : l.AdmitsWithin charge := by
  intro s events hchronological hfixed start
  cases events with
  | nil => exact Nat.zero_le _
  | cons e =>
    have hkept : KeepsUp charge e.now [] s := ⟨Or.inl rfl, fun _ => Nat.zero_le _⟩
    refine hkept.serve hinputs hpos (fun e' he' => ?_) hchronological hfixed start
    rcases List.mem_cons.mp he' with rfl | hrest
    · exact le_rfl
    · exact (List.pairwise_cons.mp hchronological).1 e' hrest

theorem handle_of_refused (hcharged : l.charged r = some charge)
    (hrefused : assertOperationInputs charge.key charge.windowMs ≠ .ok ()) (s : InMemoryStore) :
    l.handle s r = (s, .next none) := by
  have herror : ∃ error, s.increment charge.key charge.windowMs r.now = .error error := by
    rw [InMemoryStore.increment]
    cases hinputs : assertOperationInputs charge.key charge.windowMs with
    | error error => exact ⟨error, rfl⟩
    | ok => exact absurd hinputs hrefused
  obtain ⟨error, herror⟩ := herror
  rw [handle_eq, hcharged]
  dsimp only
  rw [count, charged_key hcharged]
  dsimp only
  rw [herror]

theorem admitted_burst (hcharged : l.charged r = some charge)
    (hrefused : assertOperationInputs charge.key charge.windowMs ≠ .ok ()) (s : InMemoryStore)
    (number : ℕ) :
    l.admitted charge.key (l.serve s (List.replicate number (.request r))) =
      List.replicate number r.now := by
  induction number with
  | zero => rfl
  | succ number ih =>
    have hhead : l.admitted charge.key ((r, (l.handle s r).2) ::
        l.serve (l.handle s r).1 (List.replicate number (.request r))) =
        r.now :: l.admitted charge.key
          (l.serve (l.handle s r).1 (List.replicate number (.request r))) := by
      rw [admitted, List.filterMap_cons, handle_of_refused hcharged hrefused s]
      simp [hcharged, Outcome.isNext, admitted]
    rw [List.replicate_succ, List.replicate_succ, Limiter.serve, hhead,
      handle_of_refused hcharged hrefused s, ih]

theorem admitsWithin_iff (hcharged : l.charged r = some charge) (hpos : 0 < charge.windowMs) :
    l.AdmitsWithin charge ↔ assertOperationInputs charge.key charge.windowMs = .ok () := by
  apply Iff.intro
  · intro hwithin
    by_contra hrefused
    have hfixed : ∀ e ∈ List.replicate (charge.limit + 1) (Event.request r),
        l.FixedOn charge e := by
      intro e he
      rw [(List.mem_replicate.mp he).2]
      intro own hown
      rw [hcharged, Option.some.injEq] at hown
      subst hown
      exact ⟨fun _ => rfl, fun _ => rfl⟩
    have hmany := hwithin InMemoryStore.empty (List.replicate (charge.limit + 1) (.request r))
      (List.pairwise_replicate.mpr (Or.inr le_rfl)) hfixed r.now
    rw [admitted_burst hcharged hrefused, within, List.countP_replicate, if_pos] at hmany
    · omega
    · rw [decide_eq_true_eq]
      omega
  · intro hinputs
    exact admitsWithin_of_inputs hinputs hpos

/-- The sliding window of a key counts exactly and keeps to the limit just when the store takes
the key and the window. -/
theorem slidingWindow_iff {r : Request} (hcharged : l.charged r = some charge)
    (hpos : 0 < charge.windowMs) :
    (CountsExactly charge.key charge.windowMs ∧ l.AdmitsWithin charge) ↔
      assertOperationInputs charge.key charge.windowMs = .ok () := by
  rw [countsExactly_iff, admitsWithin_iff hcharged hpos, and_self]

/-- A limiter whose addresses have one request in a window. -/
def addressLimiter (windowMs : ℕ) : Limiter where
  ip := ⟨windowMs, 1, true⟩
  apiKey := ⟨windowMs, 1, true⟩
  admin := ⟨windowMs, 1, true⟩
  adminKeys := []
  allowlistIps := []
  sha256Hex _ := ⟨List.replicate 64 '0', by decide⟩
  normaliseIp := id

def addressRequest (now : ℤ) : Request where
  now := now
  client := .ip "10.0.0.1".toList
  keyId := none
  path := "/api/audit".toList
  method := .get
  override := .ok none

def addressCharge (windowMs : ℕ) : Charge := ⟨"v1:ip:10.0.0.1:api_2faudit".toList, windowMs, 1⟩

theorem slidingWindow_iff_minute :
    CountsExactly (addressCharge 60000).key 60000 ∧
      (addressLimiter 60000).AdmitsWithin (addressCharge 60000) := by
  have hcharged : (addressLimiter 60000).charged (addressRequest 0) =
      some (addressCharge 60000) := by decide
  have hpos : 0 < (addressCharge 60000).windowMs := by decide
  exact (slidingWindow_iff hcharged hpos).mpr (by decide)

/-- With a window of half a second two requests come through at once where one is the limit. -/
theorem halfSecond_notLimited :
    startupAcceptsWindow 500 = true ∧
      ¬ (CountsExactly (addressCharge 500).key 500 ∧
        (addressLimiter 500).AdmitsWithin (addressCharge 500)) := by
  refine ⟨by decide, fun h => ?_⟩
  have hfixed : ∀ e ∈ [Event.request (addressRequest 0), .request (addressRequest 1)],
      (addressLimiter 500).FixedOn (addressCharge 500) e := by
    have hcharged : ∀ now, (addressLimiter 500).charged (addressRequest now) =
        some (addressCharge 500) := fun now => by rfl
    intro e he
    simp only [List.mem_cons, List.not_mem_nil, or_false] at he
    rcases he with rfl | rfl
    · intro own hown
      rw [hcharged, Option.some.injEq] at hown
      exact ⟨fun _ => hown.symm, fun _ => hown ▸ rfl⟩
    · intro own hown
      rw [hcharged, Option.some.injEq] at hown
      exact ⟨fun _ => hown.symm, fun _ => hown ▸ rfl⟩
  have hmany := h.2 InMemoryStore.empty _ (List.pairwise_pair.mpr (by decide)) hfixed 0
  have hboth : (addressLimiter 500).admitted (addressCharge 500).key
      ((addressLimiter 500).serve InMemoryStore.empty
        [.request (addressRequest 0), .request (addressRequest 1)]) = [0, 1] := by rfl
  rw [hboth] at hmany
  exact absurd hmany (by decide)

end Limiter

end Fluxora.RateLimit
