/-
# Two stores that count alike

The store in Redis keeps a sorted set of times for each key, the store in the process a bucket.
Both have lost just the increments before some time, and a call is answered alike if every
increment from the start of its window on is either still with both or gone from both.
-/

import Fluxora.Lib.Transition
import Fluxora.Lib.TtlTable
import Fluxora.RateLimit.WindowCount

namespace Fluxora.RateLimit

open Lib Lib.JsText Lib.SlidingWindow Lib.Transition

/-! ## The store in Redis -/

def isKeySegmentUnit (unit : ℕ) : Bool :=
  (65 ≤ unit && unit ≤ 90) || (97 ≤ unit && unit ≤ 122) || (48 ≤ unit && unit ≤ 57) ||
    unit = 46 || unit = 95 || unit = 45

/-- Put an underscore in the place of every code unit outside `[A-Za-z0-9._-]`, and keep the
first 256. -/
def sanitiseIdentifier (text : List Char) : List Char :=
  let sanitised :=
    (codeUnits text).map fun unit => if isKeySegmentUnit unit then Char.ofNat unit else '_'
  if sanitised.take 256 = [] then "unknown".toList else sanitised.take 256

def keyPrefix : List Char := "fluxora:rl:".toList

/-- The sorted sets under their names: the scores of their members, all of which differ. A
set is there until it expires. -/
structure SlidingWindowStore where
  sets : TtlTable.Table (List Char) (List ℤ)

namespace SlidingWindowStore

variable (s : SlidingWindowStore)

def buildKey (key : List Char) : List Char := keyPrefix ++ sanitiseIdentifier key

/-- The scores of the members of a set. -/
def members (redisKey : List Char) (now : ℤ) : List ℤ :=
  (TtlTable.get s.sets now redisKey).getD []

/-- Add a member, drop those that have left the window, count the rest and put off the end
of the set. -/
def increment (key : List Char) (windowMs : ℕ) (now : ℤ) :
    Except RateLimitInputError ((ℕ × ℤ) × SlidingWindowStore) := do
  assertOperationInputs key windowMs
  let redisKey := buildKey key
  let added := s.members redisKey now ++ [now]
  let remaining := added.filter fun score => ¬ score ≤ now - windowMs
  .ok ((remaining.length, now + windowMs),
    ⟨TtlTable.set s.sets now redisKey remaining windowMs⟩)

/-- Count the members from the start of the window on. -/
def getCount (key : List Char) (windowMs : ℕ) (now : ℤ) :
    Except RateLimitInputError ((ℕ × ℤ) × SlidingWindowStore) := do
  assertOperationInputs key windowMs
  let redisKey := buildKey key
  .ok (((s.members redisKey now).countP fun score => now - windowMs ≤ score, now + windowMs), s)

def empty : SlidingWindowStore := ⟨fun _ => none⟩

def answer (call : StoreCall) : Except RateLimitInputError ((ℕ × ℤ) × SlidingWindowStore) :=
  match call.operation with
  | .increment => s.increment call.key call.windowMs call.now
  | .getCount => s.getCount call.key call.windowMs call.now

/-- The store after a call. One that is refused leaves it alone. -/
def after (call : StoreCall) : SlidingWindowStore :=
  match s.answer call with
  | .ok r => r.2
  | .error _ => s

end SlidingWindowStore

/-! ## Both stores side by side -/

/-- The two stores, the calls that both have had, and the time of the last. -/
structure BothStores where
  memory : InMemoryStore
  redis : SlidingWindowStore
  past : List StoreCall
  clock : ℤ

namespace BothStores

def start (clock : ℤ) : BothStores := ⟨InMemoryStore.empty, SlidingWindowStore.empty, [], clock⟩

/-- Both stores have the call. Time does not go back. -/
def step (s : BothStores) (call : StoreCall) : Option BothStores :=
  if call.now < s.clock then none
  else some ⟨s.memory.after call, s.redis.after call, s.past ++ [call], call.now⟩

/-- The two stores answer the call with one count, or refuse it with one error. -/
def SameCount (s : BothStores) (call : StoreCall) : Prop :=
  (s.memory.answer call).map (·.1.1) = (s.redis.answer call).map (·.1.1)

/-- A time is in the window of the call, or for a call that reads at its very start. -/
def InReach (call : StoreCall) (t : ℤ) : Prop :=
  match call.operation with
  | .increment => call.now - call.windowMs < t
  | .getCount => call.now - call.windowMs ≤ t

instance (call : StoreCall) : DecidablePred (InReach call) := fun t =>
  match h : call.operation with
  | .increment => decidable_of_iff (call.now - call.windowMs < t) (by rw [InReach, h])
  | .getCount => decidable_of_iff (call.now - call.windowMs ≤ t) (by rw [InReach, h])

/-- An increment on the key of the call has dropped all that is as old as this one. -/
def Dropped (s : BothStores) (call increment : StoreCall) : Prop :=
  ∃ other ∈ s.past, other.Records ∧ other.key = call.key ∧
    increment.now ≤ other.now - other.windowMs

/-- The increment is one of the key of the call, and is in the window of that call and of all
calls on the key that came after it. -/
structure Kept (s : BothStores) (call increment : StoreCall) : Prop where
  key_eq : increment.key = call.key
  inside : call.now - call.windowMs < increment.now
  held : ∀ other ∈ s.past, other.Accepted → other.key = call.key →
    increment.now ≤ other.now → call.now - other.windowMs < increment.now

instance (s : BothStores) (call increment : StoreCall) : Decidable (s.Kept call increment) :=
  decidable_of_iff
    (increment.key = call.key ∧ call.now - call.windowMs < increment.now ∧
      ∀ other ∈ s.past, other.Accepted → other.key = call.key →
        increment.now ≤ other.now → call.now - other.windowMs < increment.now)
    ⟨fun h => ⟨h.1, h.2.1, h.2.2⟩, fun h => ⟨h.key_eq, h.inside, h.held⟩⟩

/-- If the stores take the call, every increment in its reach under the name of its key in
Redis has been dropped or is kept. -/
def Settled (s : BothStores) (call : StoreCall) : Prop :=
  call.Accepted → ∀ increment ∈ s.past, increment.Records →
    SlidingWindowStore.buildKey increment.key = SlidingWindowStore.buildKey call.key →
      InReach call increment.now → s.Dropped call increment ∨ s.Kept call increment

instance (s : BothStores) : DecidablePred s.Settled := fun call =>
  inferInstanceAs (Decidable (call.Accepted → ∀ increment ∈ s.past, increment.Records →
    SlidingWindowStore.buildKey increment.key = SlidingWindowStore.buildKey call.key →
      InReach call increment.now →
        (∃ other ∈ s.past, other.Records ∧ other.key = call.key ∧
          increment.now ≤ other.now - other.windowMs) ∨ s.Kept call increment))

end BothStores

/-! ## What a store remembers -/

/-- A store has lost just the increments up to some time: all that an increment has dropped,
and none that is still in the window of every call that has touched it since. -/
structure Remembers (name : List Char → List Char) (under : List Char)
    (touches : StoreCall → Prop) (past : List StoreCall) (clock cut : ℤ) (kept : List ℤ) :
    Prop where
  kept_eq : kept = (recordedAs name under past).filter fun t => cut < t
  dropped : ∀ call ∈ past, call.Records → name call.key = under → call.now - call.windowMs ≤ cut
  held : ∀ t ∈ recordedAs name under past,
    (∀ call ∈ past, touches call → t ≤ call.now → clock - call.windowMs < t) → cut < t
  earlier : cut < clock

theorem recordedAs_append (name : List Char → List Char) (under : List Char)
    (first second : List StoreCall) :
    recordedAs name under (first ++ second) =
      recordedAs name under first ++ recordedAs name under second := List.filterMap_append

theorem sorted_recordedAs (name : List Char → List Char) (under : List Char)
    {past : List StoreCall} (hpast : past.Pairwise fun first second => first.now ≤ second.now) :
    (recordedAs name under past).Pairwise (· ≤ ·) := by
  refine List.Pairwise.filterMap _ ?_ hpast
  intro first second hle t ht u hu
  split_ifs at ht hu
  · cases ht
    cases hu
    exact hle

section

variable {name : List Char → List Char} {under : List Char} {touches : StoreCall → Prop}
  {past : List StoreCall} {clock cut : ℤ} {kept : List ℤ}

theorem Remembers.nil (clock : ℤ) : Remembers name under touches [] clock (clock - 1) [] where
  kept_eq := rfl
  dropped call hcall := absurd hcall List.not_mem_nil
  held t ht := absurd ht List.not_mem_nil
  earlier := by omega

theorem Remembers.later (h : Remembers name under touches past clock cut kept) {now : ℤ}
    (hle : clock ≤ now) : Remembers name under touches past now cut kept where
  kept_eq := h.kept_eq
  dropped := h.dropped
  held t ht hinside := h.held t ht fun call hcall htouches hsince => by
    have := hinside call hcall htouches hsince
    omega
  earlier := h.earlier.trans_le hle

theorem Remembers.filter_eq (h : Remembers name under touches past clock cut kept) (k : ℤ) :
    kept.filter (fun t => k < t) =
      (recordedAs name under past).filter fun t => max cut k < t := by
  rw [h.kept_eq, List.filter_filter]
  apply List.filter_congr
  intro t _
  rw [Bool.eq_iff_iff, Bool.and_eq_true, decide_eq_true_eq, decide_eq_true_eq,
    decide_eq_true_eq, max_lt_iff, and_comm]

theorem Remembers.cutAt (h : Remembers name under touches past clock cut kept) {k : ℤ}
    (hearlier : k < clock)
    (hcut : ∀ t ∈ recordedAs name under past,
      (∀ call ∈ past, touches call → t ≤ call.now → clock - call.windowMs < t) → k < t) :
    Remembers name under touches past clock (max cut k) (kept.filter fun t => k < t) where
  kept_eq := h.filter_eq k
  dropped call hcall hrecords hname :=
    (h.dropped call hcall hrecords hname).trans (le_max_left _ _)
  held t ht hinside := max_lt (h.held t ht hinside) (hcut t ht hinside)
  earlier := max_lt h.earlier hearlier

theorem Remembers.touched (h : Remembers name under touches past clock cut kept)
    {call : StoreCall} (hnow : call.now = clock) (hpos : 0 < call.windowMs)
    (htouches : touches call) (hpast : ∀ earlier ∈ past, earlier.now ≤ clock) :
    Remembers name under touches (past ++ [call]) clock (max cut (call.now - call.windowMs))
      (kept.filter (fun t => call.now - call.windowMs < t) ++ recordedAs name under [call]) where
  kept_eq := by
    rw [h.filter_eq, recordedAs_append, List.filter_append, List.append_cancel_left_eq, eq_comm,
      List.filter_eq_self]
    intro t ht
    obtain ⟨own, hown, -, rfl⟩ := mem_recordedAs.mp ht
    rw [List.mem_singleton.mp hown, decide_eq_true_eq, max_lt_iff, hnow]
    exact ⟨h.earlier, by omega⟩
  dropped own hown hrecords hname := by
    rcases List.mem_append.mp hown with hold | hnew
    · exact (h.dropped own hold hrecords hname).trans (le_max_left _ _)
    · rw [List.mem_singleton.mp hnew]
      exact le_max_right _ _
  held t ht hinside := by
    have hself := hinside call (List.mem_append_right _ (List.mem_singleton_self _)) htouches
    rw [recordedAs_append] at ht
    rcases List.mem_append.mp ht with hold | hnew
    · have hle := le_of_mem_recordedAs hpast hold
      refine max_lt (h.held t hold fun own hown => ?_) ?_
      · exact hinside own (List.mem_append_left _ hown)
      · rw [hnow]
        exact hself (hle.trans hnow.ge)
    · obtain ⟨own, hown, -, rfl⟩ := mem_recordedAs.mp hnew
      rw [List.mem_singleton.mp hown, hnow]
      exact max_lt h.earlier (by omega)
  earlier := max_lt h.earlier (by omega)

theorem Remembers.countP_eq (h : Remembers name under touches past clock cut kept)
    (p : ℤ → Prop) [DecidablePred p] :
    (kept.countP fun t => p t) =
      past.countP fun call =>
        (name call.key = under ∧ call.Records) ∧ cut < call.now ∧ p call.now := by
  rw [h.kept_eq, List.countP_filter, recordedAs, List.countP_filterMap]
  apply List.countP_congr
  intro call _
  by_cases hrecords : name call.key = under ∧ call.Records
  · simp [hrecords, and_comm]
  · simp [hrecords]

theorem Remembers.passed (h : Remembers name under touches past clock cut kept)
    (call : StoreCall) (hother : ¬ (name call.key = under ∧ call.Records)) :
    recordedAs name under (past ++ [call]) = recordedAs name under past ∧
      Remembers name under touches (past ++ [call]) clock cut kept := by
  have hsame : recordedAs name under (past ++ [call]) = recordedAs name under past := by
    rw [recordedAs_append, recordedAs, recordedAs, List.filterMap_cons, if_neg hother,
      List.filterMap_nil, List.append_nil]
  refine ⟨hsame, ?_⟩
  constructor
  · rw [hsame]
    exact h.kept_eq
  · intro own hown hrecords hname
    rcases List.mem_append.mp hown with hold | hnew
    · exact h.dropped own hold hrecords hname
    · rw [List.mem_singleton.mp hnew] at hrecords hname
      exact absurd ⟨hname, hrecords⟩ hother
  · intro t ht hinside
    rw [hsame] at ht
    exact h.held t ht fun own hown => hinside own (List.mem_append_left _ hown)
  · exact h.earlier

end

/-! ## The bucket of a key -/

theorem StoreCall.Accepted.windowMs_pos {call : StoreCall} (h : call.Accepted) :
    0 < call.windowMs :=
  pos_of_assertOperationInputs h

theorem StoreCall.refused {call : StoreCall} (h : ¬ call.Accepted) :
    ∃ error, assertOperationInputs call.key call.windowMs = .error error := by
  cases hinputs : assertOperationInputs call.key call.windowMs with
  | ok => exact absurd hinputs h
  | error error => exact ⟨error, rfl⟩

/-- Every call on a key prunes its bucket. -/
def OnKey (key : List Char) (call : StoreCall) : Prop := call.Accepted ∧ call.key = key

/-- A bucket remembers the increments on its key, and has the window of the last call on it. -/
structure BucketHolds (key : List Char) (past : List StoreCall) (clock : ℤ)
    (bucket : Option SlidingBucket) : Prop where
  remembers : ∃ cut, Remembers id key (OnKey key) past clock cut (timesOf bucket)
  stamped : ∀ b ∈ bucket, ∃ call ∈ past, OnKey key call ∧ b.windowMs = call.windowMs ∧
    ∀ t ∈ recorded key past, t ≤ call.now

section

variable {key : List Char} {past : List StoreCall} {clock : ℤ} {bucket : Option SlidingBucket}

theorem BucketHolds.sorted (h : BucketHolds key past clock bucket)
    (hpast : past.Pairwise fun first second => first.now ≤ second.now) :
    (timesOf bucket).Pairwise (· ≤ ·) := by
  obtain ⟨cut, hremembers⟩ := h.remembers
  rw [hremembers.kept_eq]
  exact (sorted_recordedAs id key hpast).filter _

theorem BucketHolds.later (h : BucketHolds key past clock bucket) {now : ℤ} (hle : clock ≤ now) :
    BucketHolds key past now bucket := by
  obtain ⟨cut, hremembers⟩ := h.remembers
  exact ⟨⟨cut, hremembers.later hle⟩, h.stamped⟩

theorem BucketHolds.swept (h : BucketHolds key past clock bucket)
    (hpast : past.Pairwise fun first second => first.now ≤ second.now) :
    BucketHolds key past clock (bucket.bind fun b => b.swept clock) := by
  cases bucket with
  | none => exact h
  | some b =>
    obtain ⟨cut, hremembers⟩ := h.remembers
    obtain ⟨call, hcall, honKey, hwindow, hlast⟩ := h.stamped b rfl
    have hpos := honKey.1.windowMs_pos
    have htimes : timesOf (b.swept clock) =
        (timesOf (some b)).filter fun t => clock - b.windowMs < t := by
      have hpruned : (b.prune clock).timestamps =
          (timesOf (some b)).filter fun t => clock - b.windowMs < t :=
        prune_eq_live (h.sorted hpast)
      rw [SlidingBucket.swept]
      split_ifs with hempty
      · rw [← hpruned, hempty]
        rfl
      · exact hpruned
    change BucketHolds key past clock (b.swept clock)
    refine ⟨⟨max cut (clock - b.windowMs), ?_⟩, ?_⟩
    · rw [htimes]
      refine hremembers.cutAt (by omega) fun t ht hinside => ?_
      rw [hwindow]
      exact hinside call hcall honKey (hlast t ht)
    · intro b' hb'
      rw [Option.mem_def, SlidingBucket.swept] at hb'
      split_ifs at hb'
      cases hb'
      exact ⟨call, hcall, honKey, hwindow, hlast⟩

theorem BucketHolds.maybeSweep {s : InMemoryStore}
    (h : BucketHolds key past clock (s.buckets key))
    (hpast : past.Pairwise fun first second => first.now ≤ second.now) :
    BucketHolds key past clock ((s.maybeSweep clock).buckets key) := by
  rcases InMemoryStore.buckets_maybeSweep s clock key with hsame | hswept
  · rw [hsame]
    exact h
  · rw [hswept]
    exact h.swept hpast

theorem BucketHolds.passed (h : BucketHolds key past clock bucket) {call : StoreCall}
    (hother : ¬ OnKey key call) : BucketHolds key (past ++ [call]) clock bucket := by
  obtain ⟨cut, hremembers⟩ := h.remembers
  obtain ⟨hsame, hnext⟩ := hremembers.passed call fun hrecords =>
    hother ⟨hrecords.2.2, hrecords.1⟩
  refine ⟨⟨cut, hnext⟩, fun b hb => ?_⟩
  obtain ⟨own, hown, honKey, hwindow, hlast⟩ := h.stamped b hb
  refine ⟨own, List.mem_append_left _ hown, honKey, hwindow, ?_⟩
  rw [recorded, hsame]
  exact hlast

theorem BucketHolds.touched (h : BucketHolds key past clock bucket) {call : StoreCall}
    (hnow : call.now = clock) (honKey : OnKey key call)
    (hpast : ∀ earlier ∈ past, earlier.now ≤ clock) {next : Option SlidingBucket}
    (htimes : timesOf next =
      (timesOf bucket).filter (fun t => call.now - call.windowMs < t) ++ recorded key [call])
    (hwindow : ∀ b ∈ next, b.windowMs = call.windowMs) :
    BucketHolds key (past ++ [call]) clock next := by
  obtain ⟨cut, hremembers⟩ := h.remembers
  refine ⟨⟨_, htimes ▸ hremembers.touched hnow honKey.1.windowMs_pos honKey hpast⟩, ?_⟩
  intro b hb
  have hbefore : ∀ earlier ∈ past, earlier.now ≤ call.now := fun earlier hearlier =>
    (hpast earlier hearlier).trans hnow.ge
  exact ⟨call, List.mem_append_right _ (List.mem_singleton_self _), honKey, hwindow b hb,
    fun t ht => le_of_mem_recordedAs (le_of_mem_concat hbefore) ht⟩

end

namespace InMemoryStore

variable {s : InMemoryStore} {past : List StoreCall} {call : StoreCall}

theorem answer_of_bucketHolds
    (h : BucketHolds call.key past call.now (s.buckets call.key))
    (hpast : past.Pairwise fun first second => first.now ≤ second.now)
    (hbefore : ∀ earlier ∈ past, earlier.now ≤ call.now) (haccepted : call.Accepted) :
    ∃ r cut kept, s.answer call = .ok r ∧
      Remembers id call.key (OnKey call.key) past call.now cut kept ∧
      r.1.1 = (kept.countP fun t => call.now - call.windowMs < t) +
        (recorded call.key [call]).length ∧
      BucketHolds call.key (past ++ [call]) call.now (r.2.buckets call.key) := by
  have hswept := h.maybeSweep hpast
  have halive : alive ((s.maybeSweep call.now).buckets call.key) call.windowMs call.now =
      (timesOf ((s.maybeSweep call.now).buckets call.key)).filter
        fun t => call.now - call.windowMs < t := by
    rw [alive_eq_prune, prune_eq_live (hswept.sorted hpast), live]
  obtain ⟨cut, hremembers⟩ := hswept.remembers
  rw [answer]
  cases hoperation : call.operation with
  | increment =>
    have hrecords : call.Records := ⟨hoperation, haccepted⟩
    have hrecorded : recorded call.key [call] = [call.now] := by
      simp [recorded, recordedAs, hrecords]
    obtain ⟨r, hr⟩ := increment_isOk haccepted s call.now
    obtain ⟨hcount, hstore⟩ := increment_eq_ok hr
    refine ⟨r, cut, _, hr, hremembers, ?_, ?_⟩
    · rw [hcount, hrecorded, halive, List.countP_eq_length_filter, List.length_singleton]
    · rw [hstore, buckets_setBucket_self]
      refine hswept.touched rfl ⟨haccepted, rfl⟩ hbefore ?_ fun b hb => ?_
      · rw [hrecorded, ← halive]
        rfl
      · cases hb
        rfl
  | getCount =>
    have hreads : ¬ call.Records := by simp [StoreCall.Records, hoperation]
    have hrecorded : recorded call.key [call] = [] := by
      simp [recorded, recordedAs, hreads]
    obtain ⟨r, hr⟩ := getCount_isOk haccepted s call.now
    obtain ⟨hcount, hstore⟩ := getCount_eq_ok hr
    refine ⟨r, cut, _, hr, hremembers, ?_, ?_⟩
    · rw [hcount, hrecorded, halive, List.countP_eq_length_filter, List.length_nil, Nat.add_zero]
    · rw [hstore, buckets_setBucket_self]
      refine hswept.touched rfl ⟨haccepted, rfl⟩ hbefore ?_ fun b hb => ?_
      · rw [hrecorded, List.append_nil, ← halive]
        split_ifs with hempty
        · rw [hempty]
          rfl
        · rfl
      · rw [Option.mem_def] at hb
        split_ifs at hb
        cases hb
        rfl

theorem answer_of_refused {error : RateLimitInputError}
    (h : assertOperationInputs call.key call.windowMs = .error error) :
    s.answer call = .error error := by
  rw [answer]
  cases call.operation with
  | increment =>
    dsimp only
    rw [increment, h]
    rfl
  | getCount =>
    dsimp only
    rw [getCount, h]
    rfl

theorem after_of_not_accepted (h : ¬ call.Accepted) : s.after call = s := by
  obtain ⟨error, herror⟩ := StoreCall.refused h
  rw [after, answer_of_refused herror]

theorem bucketHolds_after (h : ∀ key, BucketHolds key past call.now (s.buckets key))
    (hpast : past.Pairwise fun first second => first.now ≤ second.now)
    (hbefore : ∀ earlier ∈ past, earlier.now ≤ call.now) (key : List Char) :
    BucketHolds key (past ++ [call]) call.now ((s.after call).buckets key) := by
  by_cases haccepted : call.Accepted
  · obtain ⟨r, cut, kept, hr, -, -, hself⟩ :=
      answer_of_bucketHolds (h call.key) hpast hbefore haccepted
    rw [after, hr]
    by_cases hkey : key = call.key
    · rw [hkey]
      exact hself
    · change BucketHolds key (past ++ [call]) call.now (r.2.buckets key)
      rw [buckets_answer_of_ne hr hkey]
      exact ((h key).maybeSweep hpast).passed fun honKey => hkey honKey.2.symm
  · rw [after_of_not_accepted haccepted]
    exact (h key).passed fun honKey => haccepted honKey.1

end InMemoryStore

/-! ## The sorted set of a key -/

namespace SlidingWindowStore

/-- Every increment on a key with the name prunes its set. -/
def UnderName (redisKey : List Char) (call : StoreCall) : Prop :=
  call.Records ∧ buildKey call.key = redisKey

/-- A set remembers the increments under its name, and lives for a window after the last. -/
structure SetHolds (redisKey : List Char) (past : List StoreCall) (clock : ℤ)
    (entry : Option (TtlTable.Entry (List ℤ))) : Prop where
  remembers : ∃ cut, Remembers buildKey redisKey (UnderName redisKey) past clock cut
    ((entry.map (·.value)).getD [])
  expires : ∀ e ∈ entry, ∃ call ∈ past, UnderName redisKey call ∧
    e.expireAt = call.now + call.windowMs ∧ ∀ t ∈ recordedAs buildKey redisKey past, t ≤ call.now

variable {s : SlidingWindowStore} {redisKey : List Char} {past : List StoreCall} {clock : ℤ}
  {call : StoreCall} {entry : Option (TtlTable.Entry (List ℤ))}

theorem SetHolds.later (h : SetHolds redisKey past clock entry) {now : ℤ} (hle : clock ≤ now) :
    SetHolds redisKey past now entry := by
  obtain ⟨cut, hremembers⟩ := h.remembers
  exact ⟨⟨cut, hremembers.later hle⟩, h.expires⟩

theorem SetHolds.passed (h : SetHolds redisKey past clock entry)
    (hother : ¬ UnderName redisKey call) : SetHolds redisKey (past ++ [call]) clock entry := by
  obtain ⟨cut, hremembers⟩ := h.remembers
  obtain ⟨hsame, hnext⟩ := hremembers.passed call fun hrecords => hother hrecords.symm
  refine ⟨⟨cut, hnext⟩, fun e he => ?_⟩
  obtain ⟨own, hown, hunder, hexpires, hlast⟩ := h.expires e he
  refine ⟨own, List.mem_append_left _ hown, hunder, hexpires, ?_⟩
  rw [hsame]
  exact hlast

theorem SetHolds.members (h : SetHolds redisKey past clock (s.sets redisKey)) :
    ∃ cut, Remembers buildKey redisKey (UnderName redisKey) past clock cut
      (s.members redisKey clock) := by
  obtain ⟨cut, hremembers⟩ := h.remembers
  rw [SlidingWindowStore.members, TtlTable.get]
  cases hentry : s.sets redisKey with
  | none =>
    rw [hentry] at hremembers
    exact ⟨cut, hremembers⟩
  | some entry =>
    rw [hentry] at hremembers
    rw [Option.filter_some]
    by_cases hlives : clock ≤ entry.expireAt
    · rw [if_pos (decide_eq_true hlives)]
      exact ⟨cut, hremembers⟩
    · rw [if_neg (by simpa using hlives)]
      obtain ⟨last, hlast, hunder, hexpires, hmembers⟩ := h.expires entry hentry
      have hcut := hremembers.cutAt (k := last.now) (by omega) fun t ht hinside => by
        have := hinside last hlast hunder (hmembers t ht)
        have := hmembers t ht
        omega
      have hempty :
          (((some entry).map (·.value)).getD []).filter (fun t => last.now < t) = [] := by
        rw [List.filter_eq_nil_iff]
        intro t ht
        rw [hremembers.kept_eq] at ht
        have := hmembers t (List.mem_of_mem_filter ht)
        rw [decide_eq_true_eq]
        omega
      rw [hempty] at hcut
      exact ⟨_, hcut⟩

theorem setHolds_increment {kept : List ℤ} {cut : ℤ}
    (h : Remembers buildKey redisKey (UnderName redisKey) past clock cut kept)
    (hnow : call.now = clock) (hunder : UnderName redisKey call)
    (hbefore : ∀ earlier ∈ past, earlier.now ≤ clock) :
    SetHolds redisKey (past ++ [call]) clock
      (some ⟨kept.filter (fun t => call.now - call.windowMs < t) ++ [call.now],
        call.now + call.windowMs⟩) := by
  have hrecorded : recordedAs buildKey redisKey [call] = [call.now] := by
    simp [recordedAs, hunder.1, hunder.2]
  have htouched := h.touched hnow hunder.1.2.windowMs_pos hunder hbefore
  rw [hrecorded] at htouched
  refine ⟨⟨_, htouched⟩, fun e he => ?_⟩
  cases he
  have hearlier : ∀ earlier ∈ past, earlier.now ≤ call.now := fun earlier hmem =>
    (hbefore earlier hmem).trans hnow.ge
  exact ⟨call, List.mem_append_right _ (List.mem_singleton_self _), hunder, rfl,
    fun t ht => le_of_mem_recordedAs (le_of_mem_concat hearlier) ht⟩

theorem filter_added {windowMs : ℕ} (hpos : 0 < windowMs) (kept : List ℤ) (now : ℤ) :
    (kept ++ [now]).filter (fun score => ¬ score ≤ now - windowMs) =
      kept.filter (fun t => now - windowMs < t) ++ [now] := by
  simp only [not_le]
  rw [List.filter_append, List.filter_cons_of_pos, List.filter_nil]
  rw [decide_eq_true_eq]
  omega

theorem increment_of_setHolds
    (h : SetHolds (buildKey call.key) past call.now (s.sets (buildKey call.key)))
    (hbefore : ∀ earlier ∈ past, earlier.now ≤ call.now) (hrecords : call.Records) :
    ∃ r cut kept, s.answer call = .ok r ∧
      Remembers buildKey (buildKey call.key) (UnderName (buildKey call.key)) past call.now cut
        kept ∧
      r.1.1 = (kept.countP fun t => call.now - call.windowMs < t) + 1 ∧
      SetHolds (buildKey call.key) (past ++ [call]) call.now (r.2.sets (buildKey call.key)) ∧
      ∀ redisKey, redisKey ≠ buildKey call.key → r.2.sets redisKey = s.sets redisKey := by
  obtain ⟨cut, hremembers⟩ := h.members
  have hinputs : assertOperationInputs call.key call.windowMs = .ok () := hrecords.2
  have hadded := filter_added hrecords.2.windowMs_pos
    (s.members (buildKey call.key) call.now) call.now
  rw [answer, hrecords.1]
  dsimp only
  rw [increment, hinputs]
  refine ⟨_, cut, _, rfl, hremembers, ?_, ?_, fun redisKey hne => TtlTable.set_of_ne hne⟩
  · dsimp only
    rw [hadded, List.length_append, List.length_singleton, List.countP_eq_length_filter]
  · dsimp only
    rw [TtlTable.set_self, hadded]
    exact setHolds_increment hremembers rfl ⟨hrecords, rfl⟩ hbefore

theorem getCount_of_setHolds
    (h : SetHolds (buildKey call.key) past call.now (s.sets (buildKey call.key)))
    (hoperation : call.operation = .getCount) (haccepted : call.Accepted) :
    ∃ r cut kept, s.answer call = .ok r ∧
      Remembers buildKey (buildKey call.key) (UnderName (buildKey call.key)) past call.now cut
        kept ∧
      r.1.1 = (kept.countP fun t => call.now - call.windowMs ≤ t) ∧ r.2 = s := by
  obtain ⟨cut, hremembers⟩ := h.members
  have hinputs : assertOperationInputs call.key call.windowMs = .ok () := haccepted
  rw [answer, hoperation]
  dsimp only
  rw [getCount, hinputs]
  exact ⟨_, cut, _, rfl, hremembers, rfl, rfl⟩

theorem answer_of_refused {error : RateLimitInputError}
    (h : assertOperationInputs call.key call.windowMs = .error error) :
    s.answer call = .error error := by
  rw [answer]
  cases call.operation with
  | increment =>
    dsimp only
    rw [increment, h]
    rfl
  | getCount =>
    dsimp only
    rw [getCount, h]
    rfl

theorem after_of_not_accepted (h : ¬ call.Accepted) : s.after call = s := by
  obtain ⟨error, herror⟩ := StoreCall.refused h
  rw [after, answer_of_refused herror]

theorem setHolds_after (h : ∀ redisKey, SetHolds redisKey past call.now (s.sets redisKey))
    (hbefore : ∀ earlier ∈ past, earlier.now ≤ call.now) (redisKey : List Char) :
    SetHolds redisKey (past ++ [call]) call.now ((s.after call).sets redisKey) := by
  by_cases hrecords : call.Records
  · obtain ⟨r, cut, kept, hr, -, -, hself, hothers⟩ :=
      increment_of_setHolds (h (buildKey call.key)) hbefore hrecords
    rw [after, hr]
    by_cases hkey : redisKey = buildKey call.key
    · rw [hkey]
      exact hself
    · change SetHolds redisKey (past ++ [call]) call.now (r.2.sets redisKey)
      rw [hothers redisKey hkey]
      exact (h redisKey).passed fun hunder => hkey hunder.2.symm
  · have hsame : s.after call = s := by
      by_cases haccepted : call.Accepted
      · have hoperation : call.operation = .getCount := by
          cases hop : call.operation with
          | increment => exact absurd ⟨hop, haccepted⟩ hrecords
          | getCount => rfl
        obtain ⟨r, _, _, hr, -, -, hstore⟩ :=
          getCount_of_setHolds (h (buildKey call.key)) hoperation haccepted
        rw [after, hr]
        exact hstore
      · exact after_of_not_accepted haccepted
    rw [hsame]
    exact (h redisKey).passed fun hunder => hrecords hunder.1

end SlidingWindowStore

/-! ## The same counts -/

namespace BothStores

variable {s s' : BothStores} {call : StoreCall}

theorem inReach_of_lt {t : ℤ} (h : call.now - call.windowMs < t) : InReach call t := by
  rw [InReach]
  cases call.operation with
  | increment => exact h
  | getCount => exact h.le

theorem Settled.count_eq (h : s.Settled call) (haccepted : call.Accepted) {cut other : ℤ}
    {times scores : List ℤ}
    (hbucket : Remembers id call.key (OnKey call.key) s.past call.now cut times)
    (hset : Remembers SlidingWindowStore.buildKey (SlidingWindowStore.buildKey call.key)
      (SlidingWindowStore.UnderName (SlidingWindowStore.buildKey call.key)) s.past call.now other
      scores) :
    (times.countP fun t => call.now - call.windowMs < t) =
      scores.countP fun t => InReach call t := by
  rw [hbucket.countP_eq, hset.countP_eq]
  apply List.countP_congr
  intro own hown
  rw [decide_eq_true_eq, decide_eq_true_eq]
  apply Iff.intro
  · rintro ⟨⟨hkey, hrecords⟩, hcut, hinside⟩
    have hname : SlidingWindowStore.buildKey own.key = SlidingWindowStore.buildKey call.key :=
      congrArg _ hkey
    have hreach := inReach_of_lt hinside
    refine ⟨⟨hname, hrecords⟩, ?_, hreach⟩
    have hpresent : ¬ s.Dropped call own := by
      rintro ⟨later, hlater, hlaterRecords, hlaterKey, hold⟩
      have := hbucket.dropped later hlater hlaterRecords hlaterKey
      omega
    have hkept := (h haccepted own hown hrecords hname hreach).resolve_left hpresent
    refine hset.held own.now (mem_recordedAs.mpr ⟨own, hown, ⟨hname, hrecords⟩, rfl⟩) ?_
    intro later hlater hunder hsince
    -- A later increment under the name is in reach as well, and present with this one.
    have hlaterReach : InReach call later.now := inReach_of_lt (hinside.trans_le hsince)
    have hlaterPresent : ¬ s.Dropped call later := by
      rintro ⟨last, hlast, hlastRecords, hlastKey, hold⟩
      exact hpresent ⟨last, hlast, hlastRecords, hlastKey, hsince.trans hold⟩
    have hlaterKept :=
      (h haccepted later hlater hunder.1 hunder.2 hlaterReach).resolve_left hlaterPresent
    exact hkept.held later hlater hunder.1.2 hlaterKept.key_eq hsince
  · rintro ⟨⟨hname, hrecords⟩, hcut, hreach⟩
    rcases h haccepted own hown hrecords hname hreach with hdropped | hkept
    · obtain ⟨later, hlater, hlaterRecords, hlaterKey, hold⟩ := hdropped
      have := hset.dropped later hlater hlaterRecords (congrArg _ hlaterKey)
      omega
    · refine ⟨⟨hkept.key_eq, hrecords⟩, ?_, hkept.inside⟩
      have hrecorded : own.now ∈ recordedAs id call.key s.past :=
        mem_recordedAs.mpr ⟨own, hown, ⟨hkept.key_eq, hrecords⟩, rfl⟩
      exact hbucket.held own.now hrecorded fun later hlater honKey hsince =>
        hkept.held later hlater honKey.1 honKey.2 hsince

/-- What both stores keep up to a state: the calls that they have had, in order. -/
structure Remembered (s : BothStores) : Prop where
  chronological : s.past.Pairwise fun first second => first.now ≤ second.now
  before : ∀ call ∈ s.past, call.now ≤ s.clock
  buckets : ∀ key, BucketHolds key s.past s.clock (s.memory.buckets key)
  sets : ∀ redisKey, SlidingWindowStore.SetHolds redisKey s.past s.clock (s.redis.sets redisKey)

theorem remembered_start (clock : ℤ) : Remembered (start clock) where
  chronological := List.Pairwise.nil
  before call hcall := absurd hcall List.not_mem_nil
  buckets key := ⟨⟨_, Remembers.nil clock⟩, fun b hb => by cases hb⟩
  sets redisKey := ⟨⟨_, Remembers.nil clock⟩, fun e he => by cases he⟩

theorem step_eq_some (h : s.step call = some s') :
    s.clock ≤ call.now ∧
      s' = ⟨s.memory.after call, s.redis.after call, s.past ++ [call], call.now⟩ := by
  rw [step] at h
  split_ifs at h with hback
  cases h
  exact ⟨not_lt.mp hback, rfl⟩

theorem Remembered.step (h : s.Remembered) (hstep : s.step call = some s') : s'.Remembered := by
  obtain ⟨hclock, rfl⟩ := step_eq_some hstep
  have hbefore : ∀ earlier ∈ s.past, earlier.now ≤ call.now :=
    fun earlier hearlier => (h.before earlier hearlier).trans hclock
  constructor
  case chronological =>
    refine List.pairwise_append.mpr ⟨h.chronological, List.pairwise_singleton _ _, ?_⟩
    intro earlier hearlier own hown
    rw [List.mem_singleton.mp hown]
    exact hbefore earlier hearlier
  case before =>
    exact le_of_mem_concat hbefore
  case buckets =>
    exact InMemoryStore.bucketHolds_after (fun key => (h.buckets key).later hclock)
      h.chronological hbefore
  case sets =>
    exact SlidingWindowStore.setHolds_after (fun redisKey => (h.sets redisKey).later hclock)
      hbefore

theorem Settled.sameCount (hsettled : s.Settled call) (h : s.Remembered)
    (hclock : s.clock ≤ call.now) : s.SameCount call := by
  rw [SameCount]
  by_cases haccepted : call.Accepted
  · have hbefore : ∀ earlier ∈ s.past, earlier.now ≤ call.now :=
      fun earlier hearlier => (h.before earlier hearlier).trans hclock
    have hset := (h.sets (SlidingWindowStore.buildKey call.key)).later hclock
    obtain ⟨r, cut, times, hr, hbucket, hcount, -⟩ :=
      InMemoryStore.answer_of_bucketHolds ((h.buckets call.key).later hclock) h.chronological
        hbefore haccepted
    rw [hr]
    cases hoperation : call.operation with
    | increment =>
      have hrecords : call.Records := ⟨hoperation, haccepted⟩
      have hreach : ∀ t, InReach call t ↔ call.now - call.windowMs < t := fun t => by
        rw [InReach, hoperation]
      obtain ⟨r', other, scores, hr', hscores, hcount', -⟩ :=
        SlidingWindowStore.increment_of_setHolds hset hbefore hrecords
      have hsame := hsettled.count_eq haccepted hbucket hscores
      simp only [hreach] at hsame
      have hrecorded : recorded call.key [call] = [call.now] := by
        simp [recorded, recordedAs, hrecords]
      have hcounts : r.1.1 = r'.1.1 := by
        rw [hcount, hcount', hsame, hrecorded, List.length_singleton]
      rw [hr']
      exact congrArg Except.ok hcounts
    | getCount =>
      have hreads : ¬ call.Records := by simp [StoreCall.Records, hoperation]
      have hreach : ∀ t, InReach call t ↔ call.now - call.windowMs ≤ t := fun t => by
        rw [InReach, hoperation]
      obtain ⟨r', other, scores, hr', hscores, hcount', -⟩ :=
        SlidingWindowStore.getCount_of_setHolds hset hoperation haccepted
      have hsame := hsettled.count_eq haccepted hbucket hscores
      simp only [hreach] at hsame
      have hrecorded : recorded call.key [call] = [] := by
        simp [recorded, recordedAs, hreads]
      have hcounts : r.1.1 = r'.1.1 := by
        rw [hcount, hcount', hsame, hrecorded, List.length_nil, Nat.add_zero]
      rw [hr']
      exact congrArg Except.ok hcounts
  · obtain ⟨error, herror⟩ := StoreCall.refused haccepted
    rw [InMemoryStore.answer_of_refused herror, SlidingWindowStore.answer_of_refused herror]
    rfl

/-- A run of calls that are settled is answered alike by both stores, call by call. -/
theorem sameCount_of_settled (clock : ℤ) (calls : List StoreCall)
    (hsettled : EveryStep step (fun s call _ => s.Settled call) (start clock) calls) :
    EveryStep step (fun s call _ => s.SameCount call) (start clock) calls := by
  refine EveryStep.imp Remembered ?_ (remembered_start clock) hsettled
  intro s call s' hremembered hstep hcall
  exact ⟨hcall.sameCount hremembered (step_eq_some hstep).1, hremembered.step hstep⟩

/-- A call on the key of an address with a window of a second. -/
def addressCall (operation : StoreOperation) (now : ℤ) : StoreCall :=
  ⟨operation, "v1:ip:10.0.0.1:api_2faudit".toList, 1000, now⟩

theorem sameCount_of_settled_address :
    EveryStep step (fun s call _ => s.SameCount call) (start 0)
      [addressCall .increment 0, addressCall .increment 500, addressCall .getCount 1200] := by
  have hrun : ∃ t, runUnder step Settled (start 0)
      [addressCall .increment 0, addressCall .increment 500, addressCall .getCount 1200] =
        some t := ⟨_, rfl⟩
  obtain ⟨t, ht⟩ := hrun
  exact sameCount_of_settled 0 _ (EveryStep.of_runUnder ht)

/-- At a second after the first of two requests, the process counts one of them and Redis
both. -/
theorem boundary_counts_differ :
    ¬ ∀ clock calls, EveryStep step (fun s call _ => s.SameCount call) (start clock) calls := by
  intro h
  have hevery := h 0 ([addressCall .increment 0, addressCall .increment 1] ++
    [addressCall .getCount 1000])
  have hsame := (EveryStep.of_run rfl hevery _ rfl).1
  have hcounts : (Except.ok 1 : Except RateLimitInputError ℕ) = .ok 2 := hsame
  cases hcounts

end BothStores

end Fluxora.RateLimit
