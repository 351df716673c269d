/-
# The GraphQL gateway

A query is parsed, and three checks of the document decide whether it is executed: that it
does not ask for the schema, that it is not nested too deeply, and that it does not select too
much. Depth and complexity follow the spreads of named fragments, each fragment once; the check
for introspection does not.

A selection without a selection set is one with the empty list, which no set of a parsed
document is.
-/

import Mathlib.Data.List.Basic

namespace Fluxora.Graphql

/-! ## Documents -/

inductive Selection
  | field (aliasName : Option String) (name : String) (selections : List Selection)
  | fragmentSpread (name : String)
  | inlineFragment (selections : List Selection)

abbrev SelectionSet : Type := List Selection

inductive Definition
  | operation (name : Option String) (selectionSet : SelectionSet)
  | fragment (name : String) (selectionSet : SelectionSet)

abbrev Document : Type := List Definition

def Definition.operation? : Definition → Option SelectionSet
  | .operation _ selectionSet => some selectionSet
  | .fragment _ _ => none

def operations (document : Document) : List SelectionSet :=
  document.filterMap Definition.operation?

/-- The definitions of a map, of which the last one for a name counts. -/
def getQueryFragments (document : Document) : List (String × SelectionSet) :=
  document.filterMap fun
    | .operation _ _ => none
    | .fragment name selectionSet => some (name, selectionSet)

def getFragment (fragments : List (String × SelectionSet)) (name : String) :
    Option SelectionSet :=
  (fragments.reverse.find? fun fragment => fragment.1 = name).map (·.2)

/-! ## Visiting selections -/

section

variable {σ : Type} (callback : Selection → σ → σ)
  (expand : String → List String × σ → List String × σ)

mutual

/-- What a visit of a selection makes of the fragments that have been visited and of the
state of the callback. -/
def visitSelection : Selection → List String × σ → List String × σ
  | .field aliasName name selections, (visited, acc) =>
    visitSelections selections (visited, callback (.field aliasName name selections) acc)
  | .fragmentSpread name, (visited, acc) =>
    expand name (visited, callback (.fragmentSpread name) acc)
  | .inlineFragment selections, (visited, acc) =>
    visitSelections selections (visited, callback (.inlineFragment selections) acc)

def visitSelections : List Selection → List String × σ → List String × σ
  | [], state => state
  | selection :: rest, state => visitSelections rest (visitSelection selection state)

end

end

/-- The visit of a fragment at a spread, unless it has been visited. Fragments within
fragments are new ones, so that the fuel need not exceed their number. -/
def expandFragment {σ : Type} (fragments : List (String × SelectionSet))
    (callback : Selection → σ → σ) : ℕ → String → List String × σ → List String × σ
  | 0, _, state => state
  | fuel + 1, name, (visited, acc) =>
    if name ∈ visited then (visited, acc)
    else
      match getFragment fragments name with
      | none => (visited, acc)
      | some selections =>
        visitSelections callback (expandFragment fragments callback fuel) selections
          (name :: visited, acc)

def visitSelectionSet {σ : Type} (selectionSet : SelectionSet)
    (fragments : List (String × SelectionSet)) (callback : Selection → σ → σ) (acc : σ) : σ :=
  (visitSelections callback (expandFragment fragments callback fragments.length) selectionSet
    ([], acc)).2

/-! ## Depth -/

section

/-- The fragments that have been seen, and the greatest depth. -/
abbrev DepthState : Type := List String × ℕ

def DepthState.enter (state : DepthState) (depth : ℕ) : DepthState := (state.1, max state.2 depth)

variable (expand : String → ℕ → DepthState → DepthState)

mutual

def depthOfSelection (currentDepth : ℕ) : Selection → DepthState → DepthState
  | .field _ _ selections, state =>
    if selections.isEmpty then state
    else depthOfSelections (currentDepth + 1) selections (state.enter (currentDepth + 1))
  | .fragmentSpread name, state => expand name (currentDepth + 1) state
  | .inlineFragment selections, state =>
    depthOfSelections (currentDepth + 1) selections (state.enter (currentDepth + 1))

def depthOfSelections (currentDepth : ℕ) : List Selection → DepthState → DepthState
  | [], state => state
  | selection :: rest, state =>
    depthOfSelections currentDepth rest (depthOfSelection currentDepth selection state)

end

end

def depthOfFragment (fragments : List (String × SelectionSet)) :
    ℕ → String → ℕ → DepthState → DepthState
  | 0, _, _, state => state
  | fuel + 1, name, depth, state =>
    if name ∈ state.1 then state
    else
      match getFragment fragments name with
      | none => state
      | some selections =>
        depthOfSelections (depthOfFragment fragments fuel) depth selections
          (DepthState.enter (name :: state.1, state.2) depth)

def computeQueryDepth (document : Document) : ℕ :=
  let fragments := getQueryFragments document
  (operations document).foldl (fun maxDepth selectionSet =>
    (depthOfSelections (depthOfFragment fragments fragments.length) 0 selectionSet
      (DepthState.enter ([], maxDepth) 0)).2) 0 + 1

/-! ## Complexity -/

def aliasComplexityCost : ℕ := 2

/-- The score, and the names of the fields that have been used with an alias. -/
structure Complexity where
  score : ℕ := 0
  aliased : List String := []

def chargeField : Selection → Complexity → Complexity
  | .field none _ _, complexity => { complexity with score := complexity.score + 1 }
  | .field (some _) name _, complexity =>
    { score := complexity.score + 1 +
        if name ∈ complexity.aliased then aliasComplexityCost else 0
      aliased := name :: complexity.aliased }
  | _, complexity => complexity

def computeQueryComplexity (document : Document) : ℕ :=
  let fragments := getQueryFragments document
  ((operations document).foldl (fun complexity selectionSet =>
    visitSelectionSet selectionSet fragments chargeField complexity) {}).score

/-! ## Introspection -/

mutual

def Selection.introspects : Selection → Bool
  | .field _ name selections =>
    name = "__schema" || name = "__type" || selectionsIntrospect selections
  | .fragmentSpread _ => false
  | .inlineFragment selections => selectionsIntrospect selections

def selectionsIntrospect : List Selection → Bool
  | [] => false
  | selection :: rest => selection.introspects || selectionsIntrospect rest

end

def isIntrospectionQuery (document : Document) : Bool :=
  (operations document).any selectionsIntrospect

/-! ## The answer to a query -/

def maxQueryDepth : ℕ := 3

def maxQueryComplexity : ℕ := 15

inductive GatewayAnswer
  | parseError (code message : String)
  /-- Status 200 with one error. -/
  | rejected (code message : String)
  /-- The source is handed to the executor. -/
  | executed (source : String)
  deriving DecidableEq

/-- From the static checks to the execution. -/
def answerQuery (parse : String → Option Document) (source : String) : GatewayAnswer :=
  match parse source with
  | none => .parseError "GRAPHQL_PARSE_ERROR" "GraphQL query could not be parsed."
  | some document =>
    if isIntrospectionQuery document then
      .rejected "INTROSPECTION_FORBIDDEN" "GraphQL introspection is disabled."
    else if maxQueryDepth < computeQueryDepth document then
      .rejected "QUERY_TOO_DEEP" s!"Query exceeds the maximum depth of {maxQueryDepth}."
    else if maxQueryComplexity < computeQueryComplexity document then
      .rejected "QUERY_TOO_COMPLEX"
        s!"Query exceeds the maximum complexity of {maxQueryComplexity}."
    else .executed source

end Fluxora.Graphql
