/-
# Introspection and fragments

The operation that is executed has every spread in it replaced by what the fragment selects.
The check for introspection looks at the operation as it is written, inline fragments
included, and passes over the spreads: it refuses what is selected without one.
-/

import Fluxora.Graphql.Gateway

namespace Fluxora.Graphql

variable {document : Document} {name : String} {selection : Selection}

/-- A selection selects a field of the given name, at some level and with the fragments of the
document inlined. -/
inductive Selects (document : Document) (name : String) : Selection → Prop
  | here (aliasName : Option String) (sub : List Selection) :
      Selects document name (.field aliasName name sub)
  | field (aliasName : Option String) (other : String) {sub : List Selection}
      {selection : Selection} (hmem : selection ∈ sub) (h : Selects document name selection) :
      Selects document name (.field aliasName other sub)
  | inline {sub : List Selection} {selection : Selection} (hmem : selection ∈ sub)
      (h : Selects document name selection) : Selects document name (.inlineFragment sub)
  | spread (fragment : String) {sub : List Selection} {selection : Selection}
      (hdefined : .fragment fragment sub ∈ document) (hmem : selection ∈ sub)
      (h : Selects document name selection) : Selects document name (.fragmentSpread fragment)

/-- One of the operations asks for the schema, with its fragments inlined. -/
def Introspects (document : Document) : Prop :=
  ∃ selectionSet ∈ operations document, ∃ selection ∈ selectionSet,
    Selects document "__schema" selection ∨ Selects document "__type" selection

/-- One of the operations asks for the schema outside of the named fragments: without their
definitions a spread selects nothing. -/
def ShowsIntrospection (document : Document) : Prop :=
  ∃ selectionSet ∈ operations document, ∃ selection ∈ selectionSet,
    Selects [] "__schema" selection ∨ Selects [] "__type" selection

/-! ## The check -/

theorem selectionsIntrospect_iff {selections : List Selection} :
    selectionsIntrospect selections = true ↔
      ∃ selection ∈ selections, selection.introspects = true := by
  induction selections with
  | nil => exact iff_of_false nofun fun ⟨_, hmem, _⟩ => List.not_mem_nil hmem
  | cons _ _ ih => rw [selectionsIntrospect, Bool.or_eq_true, ih, List.exists_mem_cons_iff]

theorem introspects_of_selects
    (hname : name = "__schema" ∨ name = "__type") (h : Selects [] name selection) :
    selection.introspects = true := by
  induction h with
  | here =>
    rw [Selection.introspects]
    rcases hname with rfl | rfl <;> rfl
  | field _ _ hmem _ ih =>
    rw [Selection.introspects, Bool.or_eq_true]
    exact Or.inr (selectionsIntrospect_iff.mpr ⟨_, hmem, ih⟩)
  | inline hmem _ ih =>
    rw [Selection.introspects]
    exact selectionsIntrospect_iff.mpr ⟨_, hmem, ih⟩
  | spread _ hdefined => exact absurd hdefined List.not_mem_nil

theorem selects_of_introspects : ∀ selection : Selection, selection.introspects = true →
    Selects [] "__schema" selection ∨ Selects [] "__type" selection
  | .field aliasName name sub, h => by
    rw [Selection.introspects, Bool.or_eq_true, Bool.or_eq_true] at h
    rcases h with (hschema | htype) | hsub
    · obtain rfl := of_decide_eq_true hschema
      exact Or.inl (.here aliasName sub)
    · obtain rfl := of_decide_eq_true htype
      exact Or.inr (.here aliasName sub)
    · obtain ⟨selection, hmem, hfound⟩ := selectionsIntrospect_iff.mp hsub
      have hsize := List.sizeOf_lt_of_mem hmem
      exact (selects_of_introspects selection hfound).imp (.field aliasName name hmem)
        (.field aliasName name hmem)
  | .fragmentSpread _, h => by
    rw [Selection.introspects] at h
    cases h
  | .inlineFragment sub, h => by
    rw [Selection.introspects] at h
    obtain ⟨selection, hmem, hfound⟩ := selectionsIntrospect_iff.mp h
    have hsize := List.sizeOf_lt_of_mem hmem
    exact (selects_of_introspects selection hfound).imp (.inline hmem) (.inline hmem)

theorem isIntrospectionQuery_iff : isIntrospectionQuery document = true ↔
    ShowsIntrospection document := by
  rw [isIntrospectionQuery, List.any_eq_true]
  refine exists_congr fun selectionSet => and_congr_right fun _ => ?_
  rw [selectionsIntrospect_iff]
  refine exists_congr fun selection => and_congr_right fun _ => ?_
  apply Iff.intro
  · exact selects_of_introspects selection
  · rintro (hschema | htype)
    · exact introspects_of_selects (Or.inl rfl) hschema
    · exact introspects_of_selects (Or.inr rfl) htype

/-! ## The gateway -/

/-- A query that asks for the schema is refused for that, and so it is not executed. -/
def BlocksIntrospection (parse : String → Option Document) (source : String) : Prop :=
  ∀ document, parse source = some document → Introspects document →
    answerQuery parse source =
      .rejected "INTROSPECTION_FORBIDDEN" "GraphQL introspection is disabled."

/-- **Introspection is blocked** just where an operation that asks for the schema by its
fragments, or another one of the document, asks for it without them too. -/
theorem blocksIntrospection_iff (parse : String → Option Document) (source : String) :
    BlocksIntrospection parse source ↔
      ∀ document, parse source = some document → Introspects document →
        ShowsIntrospection document := by
  refine forall₃_congr fun document hparse _ => ?_
  have hanswer : answerQuery parse source =
      .rejected "INTROSPECTION_FORBIDDEN" "GraphQL introspection is disabled." ↔
        isIntrospectionQuery document = true := by
    rw [answerQuery, hparse]
    by_cases hfound : isIntrospectionQuery document = true
    · exact iff_of_true (if_pos hfound) hfound
    · refine iff_of_false (fun heq => ?_) hfound
      change (if isIntrospectionQuery document = true then _ else _) = _ at heq
      rw [if_neg hfound] at heq
      split_ifs at heq
      · exact absurd (GatewayAnswer.rejected.inj heq).1 (by decide)
      · exact absurd (GatewayAnswer.rejected.inj heq).1 (by decide)
  rw [hanswer, isIntrospectionQuery_iff]

/-- A fragment hides the field: `query { ...F } fragment F on Query { __type { name } }` is
executed. -/
theorem introspection_executed :
    ¬ ∀ (parse : String → Option Document) (source : String), BlocksIntrospection parse source := by
  intro h
  let fields : SelectionSet := [.field none "__type" [.field none "name" []]]
  let document : Document := [.operation none [.fragmentSpread "F"], .fragment "F" fields]
  have hselects : Introspects document := ⟨_, List.mem_singleton.mpr rfl, _,
    List.mem_singleton.mpr rfl, Or.inr (.spread "F" (List.mem_cons_of_mem _ List.mem_cons_self)
      List.mem_cons_self (.here none _))⟩
  have hexecuted : answerQuery (fun _ => some document) "query" = .executed "query" := by
    decide +kernel
  have hrejected := h (fun _ => some document) "query" document rfl hselects
  rw [hexecuted] at hrejected
  cases hrejected

end Fluxora.Graphql
