/-
# Runs of symbols under replacement

What is put in the place of a match may have a symbol at both ends that belongs to no run of a
kind. Then a long run of the result was in the text before: a replacement of this form may take
runs away but makes none.
-/

import Fluxora.Lib.Pattern

namespace Fluxora.Lib.Pattern

universe u

variable {α : Type u} [DecidableEq α] {run front back : List α} {c : α} {inRun : α → Bool}

/-! ## Runs and symbols that belong to none -/

omit [DecidableEq α] in
theorem prefix_of_prefix_append (hrun : ∀ c ∈ run, inRun c = true) (hc : inRun c = false)
    (h : run <+: front ++ c :: back) : run <+: front := by
  induction front generalizing run with
  | nil =>
    rcases List.prefix_cons_iff.mp h with rfl | ⟨rest, rfl, -⟩
    · exact List.nil_prefix
    · exact absurd (hrun c List.mem_cons_self) (by rw [hc]; exact Bool.false_ne_true)
  | cons _ _ ih =>
    rcases List.prefix_cons_iff.mp h with rfl | ⟨rest, rfl, hrest⟩
    · exact List.nil_prefix
    · exact List.prefix_cons_iff.mpr
        (.inr ⟨rest, rfl, ih (fun c hmem => hrun c (List.mem_cons_of_mem _ hmem)) hrest⟩)

omit [DecidableEq α] in
theorem infix_or_infix (hrun : ∀ c ∈ run, inRun c = true) (hc : inRun c = false)
    (h : run <:+: front ++ c :: back) : run <:+: front ∨ run <:+: back := by
  induction front with
  | nil =>
    cases List.infix_cons_iff.mp h with
    | inl hprefix =>
      have hnil : run <+: [] := prefix_of_prefix_append hrun hc hprefix
      exact Or.inl hnil.isInfix
    | inr hinfix => exact Or.inr hinfix
  | cons d front ih =>
    cases List.infix_cons_iff.mp h with
    | inl hprefix =>
      have hfront : run <+: d :: front := prefix_of_prefix_append hrun hc hprefix
      exact Or.inl hfront.isInfix
    | inr hinfix =>
      exact (ih hinfix).imp_left fun hfront => hfront.trans (List.suffix_cons d front).isInfix

/-! ## Replacements that make no run -/

/-- New text in the place of a match: it begins with a part of the old text, or with a few
symbols that continue no run, and it ends as the old text ends. Between the two it has symbols
that belong to no run at both sides, and no long run. -/
structure Fenced (inRun : α → Bool) (long : ℕ) (before old new first : List α) (left : α)
    (inside : List α) (right : α) (final : List α) : Prop where
  eq : new = first ++ left :: (inside ++ right :: final)
  first : first <+: old ∨ first.length < long ∧ startsWith inRun before = false
  left : inRun left = false
  right : inRun right = false
  inside : ∀ run, run <:+: inside → (∀ c ∈ run, inRun c = true) → run.length < long
  final : final <:+ old

/-- Every replacement of a match is fenced. -/
def Fences (pattern : Pattern α) (replacement : List α → (ℕ → List α) → List α)
    (inRun : α → Bool) (long : ℕ) : Prop :=
  ∀ before old rest later, pattern.firstWay before (old ++ rest) = some later →
    (startOf before (old ++ rest)).Reads old later →
      ∃ first left inside right final, Fenced inRun long before old
        (replacement old later.groups) first left inside right final

section

variable {pattern : Pattern α} {replacement : List α → (ℕ → List α) → List α} {long : ℕ}
  {before text : List α} {parts : List (Token α)}

omit [DecidableEq α] in
theorem startsWith_reverse {old : List α} (hne : front ≠ []) (hold : front <:+ old)
    (hfront : ∀ c ∈ front, inRun c = true) : startsWith inRun (old.reverse ++ before) = true := by
  obtain ⟨start, rfl⟩ := hold
  cases hreverse : front.reverse with
  | nil => exact absurd (List.reverse_eq_nil_iff.mp hreverse) hne
  | cons d =>
    rw [List.reverse_append, hreverse]
    exact hfront d (List.mem_reverse.mp (hreverse ▸ List.mem_cons_self))

theorem prefix_textOf (hfences : pattern.Fences replacement inRun long)
    (hscanned : Scanned pattern before parts) (hbefore : startsWith inRun before = true)
    (hrun : ∀ c ∈ run, inRun c = true) (h : run <+: parts.flatMap (render replacement)) :
    run <+: textOf parts := by
  induction hscanned generalizing run with
  | nil => exact h
  | kept _ _ ih =>
    rcases List.prefix_cons_iff.mp h with rfl | ⟨rest, rfl, hafter⟩
    · exact List.nil_prefix
    · obtain ⟨hc, hmore⟩ := List.forall_mem_cons.mp hrun
      exact List.prefix_cons_iff.mpr (.inr ⟨rest, rfl, ih hc hmore hafter⟩)
  | found hway hreads =>
    obtain ⟨first, left, inside, right, final, hfenced⟩ := hfences _ _ _ _ hway hreads
    rw [List.flatMap_cons, render, hfenced.eq, List.append_assoc, List.cons_append] at h
    have hfirst := prefix_of_prefix_append hrun hfenced.left h
    cases hfenced.first with
    | inl hold => exact hfirst.trans (hold.trans (List.prefix_append _ _))
    | inr hborder => exact absurd (hbefore.symm.trans hborder.2) (by decide)

theorem infix_textOf (hfences : pattern.Fences replacement inRun long)
    (hscanned : Scanned pattern before parts) (hrun : ∀ c ∈ run, inRun c = true)
    (hlong : long ≤ run.length) (h : run <:+: parts.flatMap (render replacement)) :
    run <:+: textOf parts := by
  induction hscanned with
  | nil => exact h
  | @kept _ _ _ _ hrest ih =>
    cases List.infix_cons_iff.mp h with
    | inr hlater => exact (ih hlater).trans (List.suffix_cons _ _).isInfix
    | inl hhere =>
      rcases List.prefix_cons_iff.mp hhere with rfl | ⟨rest, rfl, hafter⟩
      · exact List.nil_infix
      · obtain ⟨hc, hmore⟩ := List.forall_mem_cons.mp hrun
        have hnext := prefix_textOf hfences hrest hc hmore hafter
        exact (List.prefix_cons_iff.mpr (.inr ⟨rest, rfl, hnext⟩)).isInfix
  | @found _ old parts later hway hreads hrest ih =>
    obtain ⟨first, left, inside, right, final, hfenced⟩ := hfences _ _ _ _ hway hreads
    have hsplit : (Token.found old later.groups :: parts).flatMap (render replacement) =
        (first ++ left :: inside) ++ right :: (final ++ parts.flatMap (render replacement)) := by
      rw [List.flatMap_cons, render, hfenced.eq]
      simp
    rw [hsplit] at h
    cases infix_or_infix hrun hfenced.right h with
    | inl hhere =>
      cases infix_or_infix hrun hfenced.left hhere with
      | inr hinside => exact absurd (hfenced.inside run hinside hrun) (not_lt.mpr hlong)
      | inl hfirst =>
        cases hfenced.first with
        | inl hold => exact hfirst.trans (hold.trans (List.prefix_append _ _)).isInfix
        | inr hborder =>
          exact absurd (hfirst.length_le.trans_lt hborder.1) (not_lt.mpr hlong)
    | inr hbehind =>
      rcases List.infix_append_iff_ne_nil.mp hbehind with
        hfinal | hlater | ⟨front, back, hfront, -, rfl, hsuffix, hprefix⟩
      · exact hfinal.trans (hfenced.final.isInfix.trans (List.prefix_append _ _).isInfix)
      · exact (ih hlater).trans (List.suffix_append _ _).isInfix
      · -- the run begins in what is left of the match
        have hold : front <:+ old := hsuffix.trans hfenced.final
        have hmore := prefix_textOf hfences hrest (startsWith_reverse hfront hold
          fun c hc => hrun c (List.mem_append_left _ hc))
          (fun c hc => hrun c (List.mem_append_right _ hc)) hprefix
        obtain ⟨start, rfl⟩ := hold
        obtain ⟨rest, hrest⟩ := hmore
        refine ⟨start, rest, ?_⟩
        change _ = start ++ front ++ textOf parts
        rw [← hrest, List.append_assoc, List.append_assoc, List.append_assoc]

theorem infix_of_infix_replaceAll (hfences : pattern.Fences replacement inRun long)
    (hrun : ∀ c ∈ run, inRun c = true) (hlong : long ≤ run.length)
    (h : run <:+: pattern.replaceAll replacement text) : run <:+: text := by
  have hbefore := infix_textOf hfences (scanned pattern text) hrun hlong h
  rwa [textOf_tokens] at hbefore

/-! ## Texts that stay as they are -/

/-- No match reads a part of the text. -/
def Absent (pattern : Pattern α) (text : List α) : Prop :=
  ∀ place old later, later ∈ pattern.ways place → place.Reads old later → ¬ old <:+: text

theorem render_eq_textOf (hscanned : Scanned pattern before parts)
    (habsent : pattern.Absent (textOf parts)) :
    parts.flatMap (render replacement) = textOf parts := by
  induction hscanned with
  | nil => rfl
  | kept _ _ ih =>
    have hlater := ih fun place old later hway hreads hin =>
      habsent place old later hway hreads (hin.trans (List.suffix_cons _ _).isInfix)
    exact congrArg (_ :: ·) hlater
  | found hway hreads =>
    exact absurd (List.prefix_append _ _).isInfix
      (habsent _ _ _ (List.mem_of_head? hway) hreads)

theorem replaceAll_eq_self (habsent : pattern.Absent text) :
    pattern.replaceAll replacement text = text := by
  rw [replaceAll, render_eq_textOf (scanned pattern text), textOf_tokens]
  rwa [textOf_tokens]

theorem absent_of_needs {kind : α → Bool} (hneeds : pattern.Needs kind)
    (hnone : ∀ c ∈ text, kind c = false) : pattern.Absent text := by
  intro place old later hway hreads hin
  obtain ⟨read, hread, c, hc, hkind⟩ := exists_mem_of_needs hway hneeds
  rw [← hread.textTo, hreads.textTo] at hc
  exact absurd hkind (by rw [hnone c (hin.subset hc)]; exact Bool.false_ne_true)

end

end Fluxora.Lib.Pattern
