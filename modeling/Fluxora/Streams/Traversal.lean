/-
# Listing all streams

The repository gives the streams page by page, in the order of their ids, and a reader asks for
the next page after the last id of a page as long as there are more. Streams may be inserted
between two pages.

The id after which a page starts counts as missing when it is empty. The first stream may have
that id, and if it is a page of its own, the traversal does not get past it.
-/

import Fluxora.Lib.KeysetPaging
import Fluxora.Streams.ReadRoutes

namespace Fluxora.Streams

open Auth Lib.KeysetPaging

/-! ## The repository -/

structure RepositoryFilter extends StreamFilter where
  contractId : Option String := none

def RepositoryFilter.selects (env : ReadEnv) (filter : RepositoryFilter) (row : StreamRecord) :
    Bool :=
  filter.toStreamFilter.selects env row &&
    (configured filter.contractId).all (row.contractId = ·)

/-- The limit that the query builder has refused. -/
structure UnboundedStreamQueryError where
  received : ℚ

/-- The limit of the query builder, for a positive number. -/
def effectiveLimit (limit : ℚ) : ℕ := min (max ⌊limit⌋.toNat 1) maxStreamLimit

/-- `streamRepository.findWithCursor`, with every filter and any number for a limit. -/
def StreamsTable.findWithCursor (env : ReadEnv) (table : StreamsTable) (filter : RepositoryFilter)
    (limit : ℚ) (afterId : Option String) (includeTotal : Bool) :
    Except UnboundedStreamQueryError StreamPage :=
  if limit ≤ 0 then .error ⟨limit⟩
  else
    let matching := table.rows.filter (filter.selects env)
    let found := ((matching.filter fun row =>
      (configured afterId).all fun cursor => !env.collation.le row.id cursor).insertionSort
        fun a b => env.collation.le a.id b.id = true).take (effectiveLimit limit + 1)
    .ok
      { streams := found.take (effectiveLimit limit)
        hasMore := effectiveLimit limit < found.length
        total := if includeTotal then some matching.length else none }

/-! ## A traversal -/

/-- What a reader asks for, and the table as each request finds it. The collation is a total
order with the empty text first. -/
structure StreamTraversal where
  env : ReadEnv
  antisymm : ∀ a b, env.collation.le a b → env.collation.le b a → a = b
  empty_le : ∀ a, env.collation.le "" a
  tables : ℕ → StreamsTable
  grows : ∀ n, ∀ row ∈ (tables n).rows, row ∈ (tables (n + 1)).rows
  filter : RepositoryFilter
  limit : ℚ
  positive : 0 < limit
  includeTotal : Bool

namespace StreamTraversal

variable (t : StreamTraversal)

/-- An id in the order of the collation. -/
structure SortKey (t : StreamTraversal) where
  id : String

instance : LinearOrder t.SortKey where
  le a b := t.env.collation.le a.id b.id = true
  le_refl a := (t.env.collation.total a.id a.id).elim id id
  le_trans a b c := t.env.collation.trans a.id b.id c.id
  le_antisymm a b h h' := congrArg SortKey.mk (t.antisymm a.id b.id h h')
  le_total a b := t.env.collation.total a.id b.id
  toDecidableLE _ _ := inferInstanceAs (Decidable (_ = true))

def sortKey (row : StreamRecord) : t.SortKey := ⟨row.id⟩

/-- The streams that match when a request is made. -/
def matching (n : ℕ) : List StreamRecord := (t.tables n).rows.filter (t.filter.selects t.env)

def request (n : ℕ) (afterId : Option String) : Except UnboundedStreamQueryError StreamPage :=
  (t.tables n).findWithCursor t.env t.filter t.limit afterId t.includeTotal

/-- The streams of a page, and whether there are more. -/
def fetch (n : ℕ) (afterId : Option t.SortKey) : List StreamRecord × Bool :=
  match t.request n (afterId.map SortKey.id) with
  | .ok page => (page.streams, page.hasMore)
  | .error _ => ([], false)

/-- No stream is returned twice, a page says that there are more exactly if there are, the
traversal ends unless there are always new streams to come, and then each stream that matched
at the start has been returned. -/
structure Complete : Prop where
  nodup : ∀ n, ((returned t.sortKey t.fetch n).map (·.id)).Nodup
  hasMore : ∀ n afterId, cursorAt t.sortKey t.fetch n = some afterId →
    ∃ page, t.request n (afterId.map SortKey.id) = .ok page ∧
      (page.hasMore = true ↔
        ∃ row ∈ t.matching n, Beyond t.sortKey afterId row ∧ row ∉ page.streams)
  ends : ∀ all : List StreamRecord, (∀ n, ∀ row ∈ t.matching n, row ∈ all) →
    ∃ n, cursorAt t.sortKey t.fetch n = none
  covers : ∀ n, cursorAt t.sortKey t.fetch n = none →
    ∀ row ∈ t.matching 0, row ∈ returned t.sortKey t.fetch n

/-- The first page has the stream with the empty id and no other, and there are more. -/
def StartsWithEmptyId : Prop :=
  effectiveLimit t.limit = 1 ∧ (∃ row ∈ t.matching 0, row.id = "") ∧ 2 ≤ (t.matching 0).length

/-! ## A page -/

variable {t} {n : ℕ} {afterId : Option t.SortKey}

/-- The streams after an id in the order of the ids. -/
def sortedAfter (t : StreamTraversal) (n : ℕ) (afterId : Option String) : List StreamRecord :=
  ((t.matching n).filter fun row =>
    (configured afterId).all fun cursor => !t.env.collation.le row.id cursor).insertionSort
      fun a b => t.env.collation.le a.id b.id = true

theorem request_eq_ok (t : StreamTraversal) (n : ℕ) (afterId : Option String) :
    t.request n afterId = .ok
      { streams := (t.sortedAfter n afterId).take (effectiveLimit t.limit)
        hasMore := effectiveLimit t.limit < (t.sortedAfter n afterId).length
        total := if t.includeTotal then some (t.matching n).length else none } := by
  have hmore : effectiveLimit t.limit <
      ((t.sortedAfter n afterId).take (effectiveLimit t.limit + 1)).length ↔
        effectiveLimit t.limit < (t.sortedAfter n afterId).length := by
    rw [List.length_take]
    omega
  rw [request, StreamsTable.findWithCursor, if_neg (not_le.mpr t.positive)]
  dsimp only
  rw [List.take_take, min_eq_left (Nat.le_succ _)]
  exact congrArg Except.ok (by rw [← decide_eq_decide.mpr hmore]; rfl)

theorem fetch_eq (t : StreamTraversal) (n : ℕ) (afterId : Option t.SortKey) : t.fetch n afterId =
    ((t.sortedAfter n (afterId.map SortKey.id)).take (effectiveLimit t.limit),
      decide (effectiveLimit t.limit < (t.sortedAfter n (afterId.map SortKey.id)).length)) := by
  rw [fetch, request_eq_ok]

theorem effectiveLimit_pos (limit : ℚ) : 0 < effectiveLimit limit := by
  rw [effectiveLimit, maxStreamLimit]
  omega

theorem nodup_matching (t : StreamTraversal) (n : ℕ) : ((t.matching n).map (·.id)).Nodup :=
  (t.tables n).ids.sublist (List.filter_sublist.map _)

variable {row : StreamRecord}

theorem mem_matching_succ (hrow : row ∈ t.matching n) : row ∈ t.matching (n + 1) := by
  obtain ⟨hin, hselects⟩ := List.mem_filter.mp hrow
  exact List.mem_filter.mpr ⟨t.grows n row hin, hselects⟩

theorem sorted_sortedAfter (t : StreamTraversal) (n : ℕ) (afterId : Option String) :
    ((t.sortedAfter n afterId).map t.sortKey).Pairwise (· < ·) := by
  let inOrder (a b : StreamRecord) : Prop := t.env.collation.le a.id b.id = true
  have : Std.Total inOrder := ⟨fun a b => t.env.collation.total a.id b.id⟩
  have : IsTrans StreamRecord inOrder := ⟨fun a b c => t.env.collation.trans a.id b.id c.id⟩
  have hsorted : (t.sortedAfter n afterId).Pairwise inOrder := List.pairwise_insertionSort inOrder _
  have hperm : (t.sortedAfter n afterId).Perm _ := List.perm_insertionSort inOrder _
  have hnodup : ((t.sortedAfter n afterId).map (·.id)).Nodup :=
    (hperm.map _).nodup_iff.mpr ((nodup_matching t n).sublist (List.filter_sublist.map _))
  refine List.pairwise_map.mpr ((hsorted.and (List.pairwise_map.mp hnodup)).imp ?_)
  rintro a b ⟨hle, hne⟩
  exact lt_of_le_of_ne (show t.sortKey a ≤ t.sortKey b from hle)
    fun hsame => hne (congrArg SortKey.id hsame)

theorem isPage_fetch (hid : afterId ≠ some ⟨""⟩) :
    IsPage t.sortKey (t.matching n) (effectiveLimit t.limit) afterId (t.fetch n afterId).1
      (t.fetch n afterId).2 := by
  rw [fetch_eq]
  refine isPage_take (sorted_sortedAfter t n _) (fun row => ?_) _
  rw [sortedAfter, List.mem_insertionSort, List.mem_filter]
  refine and_congr_right fun _ => ?_
  cases afterId with
  | none => exact iff_of_true rfl fun _ hnone => nomatch hnone
  | some last =>
    have hne : last.id ≠ "" := fun hempty => hid (congrArg some (congrArg SortKey.mk hempty))
    have hconfigured : configured (some last.id) = some last.id :=
      Option.filter_some_pos (decide_eq_true hne)
    rw [Option.map_some, hconfigured, Option.all_some, Bool.not_eq_true', ← Bool.not_eq_true,
      Beyond]
    simp only [Option.mem_some_iff, forall_eq']
    exact not_le (a := t.sortKey row) (b := last)

/-! ## Pages that start over -/

theorem sortKey_le (hempty : row.id = "") (k : t.SortKey) : t.sortKey row ≤ k := by
  change t.env.collation.le row.id k.id = true
  rw [hempty]
  exact t.empty_le k.id

theorem mem_fetch_none (hrow : row ∈ t.matching n) (hempty : row.id = "") :
    row ∈ (t.fetch n none).1 := by
  have hpage : IsPage t.sortKey (t.matching n) (effectiveLimit t.limit) none (t.fetch n none).1
      (t.fetch n none).2 := isPage_fetch nofun
  have hbeyond : Beyond t.sortKey none row := fun _ hnone => nomatch hnone
  by_contra hnot
  have hlength := hpage.full (hpage.more_iff.mpr ⟨row, hrow, hbeyond, hnot⟩)
  obtain ⟨taken, htaken⟩ := List.exists_mem_of_length_pos (hlength ▸ effectiveLimit_pos t.limit)
  have hbefore := hpage.first row hrow hbeyond hnot taken htaken
  exact absurd hbefore (not_lt.mpr (sortKey_le hempty _))

theorem startsWithEmptyId_of_last {last : StreamRecord}
    (hpage : IsPage t.sortKey (t.matching n) (effectiveLimit t.limit) afterId (t.fetch n afterId).1
      (t.fetch n afterId).2)
    (hcursor : cursorAt t.sortKey t.fetch n = some afterId) (hmore : (t.fetch n afterId).2 = true)
    (hlast : (t.fetch n afterId).1.getLast? = some last) (hempty : last.id = "") :
    t.StartsWithEmptyId := by
  have hmem : last ∈ (t.fetch n afterId).1 := List.mem_of_getLast? hlast
  obtain ⟨hmatches, hbeyond⟩ := hpage.mem last hmem
  have hnone : afterId = none := by
    by_contra hsome
    obtain ⟨k, rfl⟩ := Option.ne_none_iff_exists'.mp hsome
    exact absurd (hbeyond k rfl) (not_lt.mpr (sortKey_le hempty k))
  subst hnone
  cases eq_zero_of_cursorAt_none hcursor
  have hsingle := hpage.eq_singleton hlast (sortKey_le hempty)
  obtain ⟨row, hrow, -, hnot⟩ := hpage.more_iff.mp hmore
  refine ⟨?_, ⟨last, hmatches, hempty⟩, ?_⟩
  · rw [← hpage.full hmore, hsingle, List.length_singleton]
  · have hne : last ≠ row := by
      rintro rfl
      exact hnot hmem
    have hsub : [last, row] ⊆ t.matching 0 := by
      simp [hmatches, hrow]
    exact (List.subperm_of_subset (by simp [hne]) hsub).length_le

theorem cursorAt_ne_empty (h : ¬ t.StartsWithEmptyId)
    (hcursor : cursorAt t.sortKey t.fetch n = some afterId) : afterId ≠ some ⟨""⟩ := by
  induction n generalizing afterId with
  | zero =>
    cases hcursor
    nofun
  | succ _ ih =>
    obtain ⟨before, last, hbefore, hmore, hlast, rfl⟩ := cursorAt_succ_eq_some hcursor
    intro hsame
    have hempty : last.id = "" := congrArg SortKey.id (Option.some.inj hsame)
    exact h (startsWithEmptyId_of_last (isPage_fetch (ih hbefore)) hbefore hmore hlast hempty)

theorem not_nodup_of_startsWithEmptyId (h : t.StartsWithEmptyId) :
    ¬ ((returned t.sortKey t.fetch 2).map (·.id)).Nodup := by
  obtain ⟨hone, ⟨row, hrow, hempty⟩, htwo⟩ := h
  have hpage : IsPage t.sortKey (t.matching 0) (effectiveLimit t.limit) none (t.fetch 0 none).1
      (t.fetch 0 none).2 := isPage_fetch nofun
  have hfirst : row ∈ (t.fetch 0 none).1 := mem_fetch_none hrow hempty
  have hshort : (t.fetch 0 none).1.length ≤ 1 := by
    rw [fetch_eq, hone]
    exact List.length_take_le _ _
  have hsingle : (t.fetch 0 none).1 = [row] := by
    obtain ⟨taken, htaken⟩ := List.length_eq_one_iff.mp
      (le_antisymm hshort (List.length_pos_of_mem hfirst))
    rw [htaken, List.mem_singleton] at hfirst
    rw [htaken, hfirst]
  have hmore : (t.fetch 0 none).2 = true := by
    refine hpage.more_iff.mpr ?_
    by_contra hall
    have hsub : t.matching 0 ⊆ (t.fetch 0 none).1 := by
      intro other hother
      by_contra hnot
      exact hall ⟨other, hother, (fun _ hnone => nomatch hnone), hnot⟩
    have hle := (List.subperm_of_subset (nodup_matching t 0).of_map hsub).length_le
    omega
  have hcursor : cursorAt t.sortKey t.fetch 1 = some (some ⟨""⟩) := by
    rw [cursorAt, cursorAt, Option.bind_some, if_pos hmore, hsingle]
    exact congrArg (fun id => some (some (SortKey.mk id))) hempty
  have hagain : row ∈ (t.fetch 1 (some ⟨""⟩)).1 := mem_fetch_none (mem_matching_succ hrow) hempty
  intro hnodup
  rw [returned, returned, returned, pageAt_of_cursor hcursor, pageAt, cursorAt, List.nil_append,
    List.map_append] at hnodup
  exact (List.nodup_append'.mp hnodup).2.2 (List.mem_map_of_mem hfirst)
    (List.mem_map_of_mem hagain)

/-- The traversal is complete exactly if the first page does not consist of the stream with the
empty id, with more to come. -/
theorem complete_iff (t : StreamTraversal) : t.Complete ↔ ¬ t.StartsWithEmptyId := by
  apply Iff.intro
  · exact fun hcomplete hstarts => not_nodup_of_startsWithEmptyId hstarts (hcomplete.nodup 2)
  · intro h
    have hpages : ∀ n afterId, cursorAt t.sortKey t.fetch n = some afterId →
        IsPage t.sortKey (t.matching n) (effectiveLimit t.limit) afterId (t.fetch n afterId).1
          (t.fetch n afterId).2 :=
      fun n afterId hcursor => isPage_fetch (cursorAt_ne_empty h hcursor)
    have hgrows : ∀ n, ∀ row ∈ t.matching n, row ∈ t.matching (n + 1) :=
      fun n row hrow => mem_matching_succ hrow
    have hpos := effectiveLimit_pos t.limit
    constructor
    · intro n
      have hdistinct := nodup_of_sorted (sorted_returned hgrows hpos hpages n)
      have hids : (returned t.sortKey t.fetch n).map t.sortKey =
          ((returned t.sortKey t.fetch n).map (·.id)).map SortKey.mk := by
        rw [List.map_map]
        rfl
      rw [hids] at hdistinct
      exact hdistinct.of_map
    · intro n afterId hcursor
      have hmore := (hpages n afterId hcursor).more_iff
      rw [fetch_eq] at hmore
      exact ⟨_, request_eq_ok t n _, hmore⟩
    · exact fun all hall => exists_over hgrows hpos hpages hall
    · exact fun n hover row hrow => covers_of_over hgrows hpos hpages hover hrow

/-- Two streams, one of them with the empty id, in pages of one stream. -/
def emptyIdTraversal : StreamTraversal where
  env := keyedEnv
  antisymm a b h h' := le_antisymm (of_decide_eq_true h) (of_decide_eq_true h')
  empty_le a := by
    refine decide_eq_true (not_lt.mp fun hless => ?_)
    rw [String.lt_iff_toList_lt] at hless
    exact absurd hless (List.not_lt_nil _)
  tables _ :=
    { rows := [{ streamSample with id := "", eventIndex := 1 }, streamSample]
      ids := by decide
      positions := by decide }
  grows _ _ := id
  filter := {}
  limit := 1
  positive := one_pos
  includeTotal := false

/-- The first stream is returned again and again. -/
theorem not_complete_emptyIdTraversal : ¬ ∀ t : StreamTraversal, t.Complete := by
  intro hall
  refine not_nodup_of_startsWithEmptyId ?_ ((hall emptyIdTraversal).nodup 2)
  exact ⟨by decide, ⟨_, List.mem_cons_self, rfl⟩, le_rfl⟩

end StreamTraversal

end Fluxora.Streams
