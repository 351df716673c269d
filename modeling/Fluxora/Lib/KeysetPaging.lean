/-
# Pages by key while rows are added

A reader takes the first rows after a key, in the order of the keys, and goes on after the last
key of the page as long as more rows are left. Other rows may be added between two pages, before
the key or after it.
-/

import Mathlib.Data.List.Sort

namespace Fluxora.Lib.KeysetPaging

universe u v

variable {α : Type u} {κ : Type v} [LinearOrder κ] (key : α → κ)

/-! ## One page -/

/-- A row comes after the cursor, if there is one. -/
def Beyond (cursor : Option κ) (row : α) : Prop := ∀ k ∈ cursor, k < key row

/-- The page consists of the first rows after the cursor, and it is full if more are left. -/
structure IsPage (rows : List α) (limit : ℕ) (cursor : Option κ) (page : List α) (more : Bool) :
    Prop where
  sorted : (page.map key).Pairwise (· < ·)
  mem : ∀ row ∈ page, row ∈ rows ∧ Beyond key cursor row
  first : ∀ row ∈ rows, Beyond key cursor row → row ∉ page → ∀ taken ∈ page, key taken < key row
  more_iff : more = true ↔ ∃ row ∈ rows, Beyond key cursor row ∧ row ∉ page
  full : more = true → page.length = limit

variable {key}

theorem not_beyond_iff {cursor : Option κ} {row : α} :
    ¬ Beyond key cursor row ↔ ∃ k ∈ cursor, key row ≤ k := by
  simp only [Beyond, not_forall, not_lt, exists_prop]

theorem nodup_of_sorted {rows : List α} (hsorted : (rows.map key).Pairwise (· < ·)) :
    (rows.map key).Nodup := hsorted.imp ne_of_lt

theorem isPage_take {rows sorted : List α} {cursor : Option κ}
    (hsorted : (sorted.map key).Pairwise (· < ·))
    (hmem : ∀ row, row ∈ sorted ↔ row ∈ rows ∧ Beyond key cursor row) (limit : ℕ) :
    IsPage key rows limit cursor (sorted.take limit) (decide (limit < sorted.length)) where
  sorted := by
    rw [List.map_take]
    exact hsorted.sublist (List.take_sublist _ _)
  mem row hrow := (hmem row).mp (List.mem_of_mem_take hrow)
  first row hrow hbeyond hnot taken htaken := by
    have hin : row ∈ sorted := (hmem row).mpr ⟨hrow, hbeyond⟩
    rw [← List.take_append_drop limit sorted, List.map_append] at hsorted
    rw [← List.take_append_drop limit sorted] at hin
    have hleft := (List.mem_append.mp hin).resolve_left hnot
    exact (List.pairwise_append.mp hsorted).2.2 _ (List.mem_map_of_mem htaken) _
      (List.mem_map_of_mem hleft)
  more_iff := by
    rw [decide_eq_true_iff]
    apply Iff.intro
    · intro hmore
      have hnodup := List.Nodup.of_map key (nodup_of_sorted hsorted)
      refine ⟨sorted[limit], ?_⟩
      have hin : sorted[limit] ∈ sorted := List.getElem_mem hmore
      obtain ⟨hrow, hbeyond⟩ := (hmem _).mp hin
      refine ⟨hrow, hbeyond, fun htaken => ?_⟩
      obtain ⟨i, hi, heq⟩ := List.mem_take_iff_getElem.mp htaken
      have hsame : i = limit := (List.Nodup.getElem_inj_iff hnodup).mp heq
      omega
    · rintro ⟨row, hrow, hbeyond, hnot⟩
      by_contra hall
      rw [List.take_of_length_le (not_lt.mp hall)] at hnot
      exact hnot ((hmem row).mpr ⟨hrow, hbeyond⟩)
  full hmore := List.length_take_of_le (of_decide_eq_true hmore).le

/-! ## Page after page -/

section

variable (key) (fetch : ℕ → Option κ → List α × Bool)

/-- The cursor of a request, unless the page before had no more rows. -/
def cursorAt : ℕ → Option (Option κ)
  | 0 => some none
  | n + 1 => (cursorAt n).bind fun cursor =>
    if (fetch n cursor).2 then (fetch n cursor).1.getLast?.map fun row => some (key row)
    else none

def pageAt (n : ℕ) : List α :=
  match cursorAt key fetch n with
  | some cursor => (fetch n cursor).1
  | none => []

/-- The rows of the first so many pages. -/
def returned : ℕ → List α
  | 0 => []
  | n + 1 => returned n ++ pageAt key fetch n

end

variable {fetch : ℕ → Option κ → List α × Bool} {rows : ℕ → List α} {limit n : ℕ}
  {cursor : Option κ}

omit [LinearOrder κ] in
theorem pageAt_of_cursor (hcursor : cursorAt key fetch n = some cursor) :
    pageAt key fetch n = (fetch n cursor).1 := by
  rw [pageAt, hcursor]

omit [LinearOrder κ] in
theorem cursorAt_succ_eq_some {cursor' : Option κ}
    (hnext : cursorAt key fetch (n + 1) = some cursor') :
    ∃ cursor last, cursorAt key fetch n = some cursor ∧ (fetch n cursor).2 = true ∧
      (fetch n cursor).1.getLast? = some last ∧ cursor' = some (key last) := by
  rw [cursorAt] at hnext
  obtain ⟨cursor, hcursor, hstep⟩ := Option.bind_eq_some_iff.mp hnext
  split_ifs at hstep with hmore
  obtain ⟨last, hlast, rfl⟩ := Option.map_eq_some_iff.mp hstep
  exact ⟨cursor, last, hcursor, hmore, hlast, rfl⟩

omit [LinearOrder κ] in
theorem eq_zero_of_cursorAt_none (hcursor : cursorAt key fetch n = some none) : n = 0 := by
  cases n with
  | zero => rfl
  | succ =>
    obtain ⟨_, _, -, -, -, hsome⟩ := cursorAt_succ_eq_some hcursor
    cases hsome

/-- What has been read when a request is made. -/
structure Progressed (key : α → κ) (fetch : ℕ → Option κ → List α × Bool) (rows : ℕ → List α)
    (n : ℕ) (cursor : Option κ) : Prop where
  sorted : ((returned key fetch n).map key).Pairwise (· < ·)
  behind : ∀ row ∈ returned key fetch n, ¬ Beyond key cursor row
  covers : ∀ row ∈ rows 0, ¬ Beyond key cursor row → row ∈ returned key fetch n
  found : ∀ row ∈ returned key fetch n, ∃ m, row ∈ rows m
  length : n ≤ (returned key fetch n).length

theorem Progressed.init : Progressed key fetch rows 0 none where
  sorted := List.Pairwise.nil
  behind _ hrow := nomatch hrow
  covers _ _ hbehind := absurd (fun _ hnone => nomatch hnone) hbehind
  found _ hrow := nomatch hrow
  length := le_rfl

namespace IsPage

variable {page : List α} {more : Bool}

theorem le_last (h : IsPage key (rows n) limit cursor page more) {last row : α}
    (hlast : page.getLast? = some last) (hrow : row ∈ page) : key row ≤ key last := by
  obtain ⟨front, hsplit⟩ := List.getLast?_eq_some_iff.mp hlast
  have hsorted := h.sorted
  rw [hsplit, List.map_append] at hsorted
  rw [hsplit] at hrow
  rcases List.mem_append.mp hrow with hfront | hself
  · exact ((List.pairwise_append.mp hsorted).2.2 _ (List.mem_map_of_mem hfront) _
      (List.mem_singleton_self _)).le
  · rw [List.mem_singleton.mp hself]

theorem eq_singleton (h : IsPage key (rows n) limit cursor page more) {last : α}
    (hlast : page.getLast? = some last) (hleast : ∀ k, key last ≤ k) : page = [last] := by
  obtain ⟨front, hsplit⟩ := List.getLast?_eq_some_iff.mp hlast
  have hfront : front = [] := by
    refine List.eq_nil_iff_forall_not_mem.mpr fun row hrow => ?_
    have hsorted := h.sorted
    rw [hsplit, List.map_append] at hsorted
    have hbefore := (List.pairwise_append.mp hsorted).2.2 _ (List.mem_map_of_mem hrow) _
      (List.mem_singleton_self _)
    exact absurd hbefore (not_lt.mpr (hleast _))
  rw [hsplit, hfront, List.nil_append]

theorem sorted_append (h : IsPage key (rows n) limit cursor page more)
    (hbefore : Progressed key fetch rows n cursor) :
    ((returned key fetch n ++ page).map key).Pairwise (· < ·) := by
  rw [List.map_append]
  refine List.pairwise_append.mpr ⟨hbefore.sorted, h.sorted, ?_⟩
  intro k hk k' hk'
  obtain ⟨row, hrow, rfl⟩ := List.mem_map.mp hk
  obtain ⟨taken, htaken, rfl⟩ := List.mem_map.mp hk'
  obtain ⟨after, hafter, hle⟩ := not_beyond_iff.mp (hbefore.behind row hrow)
  exact hle.trans_lt ((h.mem taken htaken).2 after hafter)

end IsPage

theorem mem_rows_of_mem_first (hgrows : ∀ m, ∀ row ∈ rows m, row ∈ rows (m + 1)) {row : α}
    (hrow : row ∈ rows 0) (n : ℕ) : row ∈ rows n := by
  induction n with
  | zero => exact hrow
  | succ n ih => exact hgrows n row ih

theorem Progressed.next (hgrows : ∀ m, ∀ row ∈ rows m, row ∈ rows (m + 1)) (hpos : 0 < limit)
    (hbefore : Progressed key fetch rows n cursor)
    (hcursor : cursorAt key fetch n = some cursor)
    (hpage : IsPage key (rows n) limit cursor (fetch n cursor).1 (fetch n cursor).2)
    (hmore : (fetch n cursor).2 = true) {last : α}
    (hlast : (fetch n cursor).1.getLast? = some last) :
    Progressed key fetch rows (n + 1) (some (key last)) := by
  have hreturned : returned key fetch (n + 1) =
      returned key fetch n ++ (fetch n cursor).1 := by
    rw [returned, pageAt_of_cursor hcursor]
  have hlastMem : last ∈ (fetch n cursor).1 := List.mem_of_getLast? hlast
  constructor
  case sorted =>
    rw [hreturned]
    exact hpage.sorted_append hbefore
  case behind =>
    intro row hrow
    rw [hreturned] at hrow
    refine not_beyond_iff.mpr ⟨key last, rfl, ?_⟩
    rcases List.mem_append.mp hrow with hold | hnew
    · obtain ⟨k, hk, hle⟩ := not_beyond_iff.mp (hbefore.behind row hold)
      exact hle.trans ((hpage.mem last hlastMem).2 k hk).le
    · exact hpage.le_last hlast hnew
  case covers =>
    intro row hrow hpassed
    rw [hreturned]
    by_cases hbeyond : Beyond key cursor row
    · refine List.mem_append_right _ ?_
      by_contra hnot
      have hlater := hpage.first row (mem_rows_of_mem_first hgrows hrow n) hbeyond hnot last
        hlastMem
      obtain ⟨k, hk, hle⟩ := not_beyond_iff.mp hpassed
      cases hk
      exact absurd hlater (not_lt.mpr hle)
    · exact List.mem_append_left _ (hbefore.covers row hrow hbeyond)
  case found =>
    intro row hrow
    rw [hreturned] at hrow
    rcases List.mem_append.mp hrow with hold | hnew
    · exact hbefore.found row hold
    · exact ⟨n, (hpage.mem row hnew).1⟩
  case length =>
    rw [hreturned, List.length_append, hpage.full hmore]
    have hlength := hbefore.length
    omega

/-! ## The whole traversal -/

section

variable (hgrows : ∀ m, ∀ row ∈ rows m, row ∈ rows (m + 1)) (hpos : 0 < limit)
  (hpages : ∀ n cursor, cursorAt key fetch n = some cursor →
    IsPage key (rows n) limit cursor (fetch n cursor).1 (fetch n cursor).2)

include hgrows hpos hpages

theorem progressed (hcursor : cursorAt key fetch n = some cursor) :
    Progressed key fetch rows n cursor := by
  induction n generalizing cursor with
  | zero =>
    cases hcursor
    exact Progressed.init
  | succ n ih =>
    obtain ⟨before, last, hbefore, hmore, hlast, rfl⟩ := cursorAt_succ_eq_some hcursor
    exact (ih hbefore).next hgrows hpos hbefore (hpages n before hbefore) hmore hlast

theorem sorted_returned (n : ℕ) : ((returned key fetch n).map key).Pairwise (· < ·) := by
  induction n with
  | zero => exact List.Pairwise.nil
  | succ n ih =>
    rw [returned]
    cases hcursor : cursorAt key fetch n with
    | none =>
      rw [pageAt, hcursor, List.append_nil]
      exact ih
    | some cursor =>
      rw [pageAt_of_cursor hcursor]
      exact (hpages n cursor hcursor).sorted_append (progressed hgrows hpos hpages hcursor)

theorem covers_of_over (hover : cursorAt key fetch n = none) {row : α} (hrow : row ∈ rows 0) :
    row ∈ returned key fetch n := by
  induction n with
  | zero => cases hover
  | succ n ih =>
    rw [returned]
    cases hcursor : cursorAt key fetch n with
    | none => exact List.mem_append_left _ (ih hcursor)
    | some cursor =>
      rw [pageAt_of_cursor hcursor]
      have hpage := hpages n cursor hcursor
      have hlast : (fetch n cursor).2 = false := by
        by_contra hmore
        rw [Bool.not_eq_false] at hmore
        have hlength := hpage.full hmore
        rw [cursorAt, hcursor, Option.bind_some, if_pos hmore, Option.map_eq_none_iff,
          List.getLast?_eq_none_iff] at hover
        rw [hover] at hlength
        exact absurd hlength (ne_of_lt hpos)
      by_cases hbeyond : Beyond key cursor row
      · refine List.mem_append_right _ ?_
        by_contra hnot
        have hmore := hpage.more_iff.mpr
          ⟨row, mem_rows_of_mem_first hgrows hrow n, hbeyond, hnot⟩
        rw [hlast] at hmore
        cases hmore
      · exact List.mem_append_left _
          ((progressed hgrows hpos hpages hcursor).covers row hrow hbeyond)

theorem exists_over {all : List α} (hall : ∀ m, ∀ row ∈ rows m, row ∈ all) :
    ∃ n, cursorAt key fetch n = none := by
  refine ⟨all.length + 1, ?_⟩
  by_contra hopen
  obtain ⟨cursor, hcursor⟩ := Option.ne_none_iff_exists'.mp hopen
  have hprogress := progressed hgrows hpos hpages hcursor
  have hsub : returned key fetch (all.length + 1) ⊆ all := by
    intro row hrow
    obtain ⟨m, hm⟩ := hprogress.found row hrow
    exact hall m row hm
  have hnodup := List.Nodup.of_map key (nodup_of_sorted hprogress.sorted)
  have hle := (List.subperm_of_subset hnodup hsub).length_le
  have hlength := hprogress.length
  omega

end

end Fluxora.Lib.KeysetPaging
