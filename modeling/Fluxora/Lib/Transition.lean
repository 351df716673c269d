/-
# Runs of a transition function

A system is given by a partial step function on states and labels. A run under a condition is a
run every step of which meets the condition in the state it is taken from; the runs without a
condition are those under `fun _ _ => True`.
-/

import Mathlib.Logic.Relation

namespace Fluxora.Lib.Transition

universe u v

variable {State : Type u} {Label : Type v} (step : State → Label → Option State)
  (allowed : State → Label → Prop)

/-- One step whose label is allowed in the state it starts from. -/
def StepUnder (s s' : State) : Prop := ∃ label, allowed s label ∧ step s label = some s'

/-- A run of allowed steps. -/
def Reaches : State → State → Prop := Relation.ReflTransGen (StepUnder step allowed)

/-- A run of labels as a list, for concrete runs. -/
def run : State → List Label → Option State
  | s, [] => some s
  | s, label :: rest => (step s label).bind fun s' => run s' rest

/-- A property holds of every step of a run of labels, as far as the run goes. -/
def EveryStep (P : State → Label → State → Prop) : State → List Label → Prop
  | _, [] => True
  | s, label :: rest => ∀ s', step s label = some s' → P s label s' ∧ EveryStep P s' rest

variable {step allowed}

theorem Reaches.refl (s : State) : Reaches step allowed s s := Relation.ReflTransGen.refl

theorem Reaches.tail {s t u : State} {label : Label} (hrun : Reaches step allowed s t)
    (hallowed : allowed t label) (hstep : step t label = some u) :
    Reaches step allowed s u :=
  Relation.ReflTransGen.tail hrun ⟨label, hallowed, hstep⟩

theorem Reaches.trans {s t u : State} (hfirst : Reaches step allowed s t)
    (hsecond : Reaches step allowed t u) : Reaches step allowed s u :=
  Relation.ReflTransGen.trans hfirst hsecond

theorem Reaches.weaken {allowed' : State → Label → Prop}
    (hweaker : ∀ s label, allowed s label → allowed' s label) {s t : State}
    (hrun : Reaches step allowed s t) : Reaches step allowed' s t := by
  induction hrun with
  | refl => exact Reaches.refl _
  | tail _ hlast ih =>
    obtain ⟨label, hallowed, hnext⟩ := hlast
    exact ih.tail (hweaker _ label hallowed) hnext

theorem Reaches.invariant {P : State → Prop}
    (hstep : ∀ s label s', P s → allowed s label → step s label = some s' → P s')
    {s t : State} (hinit : P s) (hrun : Reaches step allowed s t) : P t := by
  induction hrun with
  | refl => exact hinit
  | tail _ hlast ih =>
    obtain ⟨label, hallowed, hnext⟩ := hlast
    exact hstep _ label _ ih hallowed hnext

theorem run_cons {s t : State} {label : Label} (hstep : step s label = some t)
    (rest : List Label) : run step s (label :: rest) = run step t rest := by
  rw [run, hstep, Option.bind_some]

theorem Reaches.of_run {s t : State} {labels : List Label}
    (hallowed : ∀ s label, label ∈ labels → allowed s label)
    (hrun : run step s labels = some t) : Reaches step allowed s t := by
  induction labels generalizing s with
  | nil =>
    cases hrun
    exact Reaches.refl _
  | cons label _ ih =>
    rw [run, Option.bind_eq_some_iff] at hrun
    obtain ⟨s', hstep, hrest⟩ := hrun
    have hfirst : Reaches step allowed s s' :=
      (Reaches.refl s).tail (hallowed s label List.mem_cons_self) hstep
    exact hfirst.trans
      (ih (fun s l hl => hallowed s l (List.mem_cons_of_mem _ hl)) hrest)

/-- A run of labels that ends at the first one that is not allowed. -/
def runUnder (step : State → Label → Option State) (allowed : State → Label → Prop)
    [∀ s, DecidablePred (allowed s)] : State → List Label → Option State
  | s, [] => some s
  | s, label :: rest =>
    if allowed s label then (step s label).bind fun s' => runUnder step allowed s' rest else none

theorem Reaches.of_runUnder [∀ s, DecidablePred (allowed s)] {s t : State} {labels : List Label}
    (hrun : runUnder step allowed s labels = some t) : Reaches step allowed s t := by
  induction labels generalizing s with
  | nil =>
    cases hrun
    exact Reaches.refl _
  | cons label _ ih =>
    rw [runUnder] at hrun
    by_cases hallowed : allowed s label
    · rw [if_pos hallowed] at hrun
      obtain ⟨s', hstep, hrest⟩ := Option.bind_eq_some_iff.mp hrun
      exact ((Reaches.refl s).tail hallowed hstep).trans (ih hrest)
    · rw [if_neg hallowed] at hrun
      cases hrun

theorem EveryStep.of_runUnder [∀ s, DecidablePred (allowed s)] {s t : State}
    {labels : List Label} (hrun : runUnder step allowed s labels = some t) :
    EveryStep step (fun s label _ => allowed s label) s labels := by
  induction labels generalizing s with
  | nil => trivial
  | cons label _ ih =>
    intro s' hstep
    rw [runUnder] at hrun
    by_cases hallowed : allowed s label
    · rw [if_pos hallowed, hstep, Option.bind_some] at hrun
      exact ⟨hallowed, ih hrun⟩
    · rw [if_neg hallowed] at hrun
      cases hrun

theorem run_of_runUnder [∀ s, DecidablePred (allowed s)] {s t : State} {labels : List Label}
    (hrun : runUnder step allowed s labels = some t) : run step s labels = some t := by
  induction labels generalizing s with
  | nil => exact hrun
  | cons label _ ih =>
    rw [runUnder] at hrun
    by_cases hallowed : allowed s label
    · rw [if_pos hallowed] at hrun
      obtain ⟨s', hstep, hrest⟩ := Option.bind_eq_some_iff.mp hrun
      rw [run_cons hstep]
      exact ih hrest
    · rw [if_neg hallowed] at hrun
      cases hrun

theorem everyStep_cons {P : State → Label → State → Prop} {s t : State} {label : Label}
    {rest : List Label} (hstep : step s label = some t) :
    EveryStep step P s (label :: rest) ↔ P s label t ∧ EveryStep step P t rest := by
  apply Iff.intro
  · exact fun h => h t hstep
  · intro h s' hs'
    rw [hstep] at hs'
    cases hs'
    exact h

theorem EveryStep.of_run {P : State → Label → State → Prop} {s t : State}
    {labels rest : List Label} (hrun : run step s labels = some t)
    (hevery : EveryStep step P s (labels ++ rest)) : EveryStep step P t rest := by
  induction labels generalizing s with
  | nil =>
    cases hrun
    exact hevery
  | cons _ _ ih =>
    rw [run, Option.bind_eq_some_iff] at hrun
    obtain ⟨s', hstep, hrest⟩ := hrun
    exact ih hrest (hevery s' hstep).2

theorem EveryStep.last {P : State → Label → State → Prop} {s t : State} {labels : List Label}
    {label : Label} (hrun : run step s (labels ++ [label]) = some t)
    (hevery : EveryStep step P s (labels ++ [label])) : ∃ t', P t' label t := by
  induction labels generalizing s with
  | nil =>
    rw [List.nil_append, run, Option.bind_eq_some_iff] at hrun
    obtain ⟨s', hstep, hrest⟩ := hrun
    cases hrest
    exact ⟨s, (hevery _ hstep).1⟩
  | cons _ _ ih =>
    rw [List.cons_append, run, Option.bind_eq_some_iff] at hrun
    obtain ⟨s', hstep, hrest⟩ := hrun
    exact ih hrest (hevery s' hstep).2

theorem invariant_of_run {Inv : State → Prop}
    (hkeeps : ∀ s label s', Inv s → step s label = some s' → Inv s') {s t : State}
    {labels : List Label} (hinit : Inv s) (hrun : run step s labels = some t) : Inv t :=
  Reaches.invariant (fun s label s' h _ => hkeeps s label s' h) hinit
    (Reaches.of_run (fun _ _ (_ : _ ∈ labels) => trivial) hrun : Reaches step (fun _ _ => True) s t)

theorem EveryStep.imp {P Q : State → Label → State → Prop} (Inv : State → Prop)
    (hstep : ∀ s label s', Inv s → step s label = some s' → P s label s' →
      Q s label s' ∧ Inv s')
    {s : State} {labels : List Label} (hinit : Inv s) (hrun : EveryStep step P s labels) :
    EveryStep step Q s labels := by
  induction labels generalizing s with
  | nil => trivial
  | cons label _ ih =>
    intro s' hs'
    obtain ⟨hfirst, hrest⟩ := hrun s' hs'
    obtain ⟨hnext, hinv⟩ := hstep s label s' hinit hs' hfirst
    exact ⟨hnext, ih hinv hrest⟩

/-- A property of states holds along a run exactly as long as every step meets a condition,
where the condition says of one step that it keeps the property. -/
theorem everyStep_of_invariant {Q : State → Label → State → Prop} (Inv : State → Prop)
    (hstep : ∀ s label s', Inv s → step s label = some s' → Q s label s' ∧ Inv s')
    {s : State} (labels : List Label) (hinit : Inv s) : EveryStep step Q s labels := by
  induction labels generalizing s with
  | nil => trivial
  | cons label _ ih =>
    intro s' hnext
    obtain ⟨hholds, hinv⟩ := hstep s label s' hinit hnext
    exact ⟨hholds, ih hinv⟩

theorem everyStep_iff_of_step {P : State → Prop} {C : State → Label → Prop} (Inv : State → Prop)
    (hstep : ∀ s label s', Inv s → P s → step s label = some s' →
      (P s' ↔ C s label) ∧ Inv s')
    {s : State} {labels : List Label} (hinit : Inv s) (hholds : P s) :
    EveryStep step (fun _ _ s' => P s') s labels ↔
      EveryStep step (fun s label _ => C s label) s labels := by
  apply Iff.intro
  · apply EveryStep.imp (fun s => Inv s ∧ P s) _ ⟨hinit, hholds⟩
    intro s label s' ⟨hinv, hP⟩ hs' hnext
    obtain ⟨hiff, hinv'⟩ := hstep s label s' hinv hP hs'
    exact ⟨hiff.mp hnext, hinv', hnext⟩
  · apply EveryStep.imp (fun s => Inv s ∧ P s) _ ⟨hinit, hholds⟩
    intro s label s' ⟨hinv, hP⟩ hs' hcond
    obtain ⟨hiff, hinv'⟩ := hstep s label s' hinv hP hs'
    exact ⟨hiff.mpr hcond, hinv', hiff.mpr hcond⟩

end Fluxora.Lib.Transition
