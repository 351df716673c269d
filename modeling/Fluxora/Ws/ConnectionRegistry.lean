/-
# The registry of connections

The registry has the state of every connected socket, with the filters that the socket has
subscribed to, and two indexes: the subscribers of each stream, and those of each recipient.

A stream's set of subscribers may be taken whole, to close its sockets.
-/

import Fluxora.Lib.SetIndex
import Fluxora.Ws.Backpressure

namespace Fluxora.Ws

open Lib Lib.SetIndex Lib.Transition

/-- What a client subscribes to. -/
structure SubscriptionFilter where
  streamId : Option String
  recipientAddress : Option String
  batchingEnabled : Option Bool
  deriving DecidableEq

/-- A filter names a stream or a recipient. -/
def SubscriptionFilter.Names (filter : SubscriptionFilter) : Prop :=
  filter.streamId.isSome ∨ filter.recipientAddress.isSome

/-- What the registry has of a socket. The filters are in the order in which they were
recorded. -/
structure ClientState where
  id : String
  ip : String
  authenticatedSubject : Option String
  subscriptionFilters : List SubscriptionFilter
  deriving DecidableEq

def createClientState (id ip : String) (authenticatedSubject : Option String) : ClientState :=
  ⟨id, ip, authenticatedSubject, []⟩

def streamKey (streamId : String) : String := "stream:" ++ streamId

def recipientKey (recipientAddress : String) : String := "recipient:" ++ recipientAddress

/-- The key under which a filter is recorded. -/
def subscriptionKey (filter : SubscriptionFilter) : String :=
  match filter.streamId, filter.recipientAddress with
  | some streamId, _ => streamKey streamId
  | none, some recipientAddress => recipientKey recipientAddress
  | none, none => "recipient:"

namespace ClientState

variable (state : ClientState)

/-- The keys of the recorded filters. -/
def keys : List String := state.subscriptionFilters.map subscriptionKey

def setFilter (filter : SubscriptionFilter) : ClientState :=
  { state with subscriptionFilters := state.subscriptionFilters ++ [filter] }

def deleteKey (key : String) : ClientState :=
  { state with
    subscriptionFilters := state.subscriptionFilters.filter fun own => subscriptionKey own ≠ key }

end ClientState

structure ConnectionRegistry where
  clients : Socket → Option ClientState
  streamSubscriptions : IndexedSets String Socket
  recipientSubscriptions : IndexedSets String Socket

namespace ConnectionRegistry

variable (r : ConnectionRegistry)

def empty : ConnectionRegistry := ⟨fun _ => none, SetIndex.empty, SetIndex.empty⟩

def setClient (ws : Socket) (state : Option ClientState) : ConnectionRegistry :=
  { r with clients := Function.update r.clients ws state }

def register (ws : Socket) (state : ClientState) : ConnectionRegistry :=
  r.setClient ws (some state)

/-- Forget a connection. The indexes are cleaned up separately. -/
def unregister (ws : Socket) : ConnectionRegistry := r.setClient ws none

/-- Record a filter and index the socket, unless the filter is recorded already. -/
def addSubscription (ws : Socket) (filter : SubscriptionFilter) : Bool × ConnectionRegistry :=
  match r.clients ws with
  | none => (false, r)
  | some state =>
    if subscriptionKey filter ∈ state.keys then (false, r)
    else
      let r := r.setClient ws (some (state.setFilter filter))
      match filter.streamId, filter.recipientAddress with
      | some streamId, _ =>
        (true, { r with streamSubscriptions := add r.streamSubscriptions streamId ws })
      | none, some recipientAddress =>
        (true, { r with
          recipientSubscriptions := add r.recipientSubscriptions recipientAddress ws })
      | none, none => (true, r)

/-- Drop a filter from the connection and from the index. -/
def removeSubscription (ws : Socket) (filter : SubscriptionFilter) : ConnectionRegistry :=
  match r.clients ws with
  | none => r
  | some state =>
    let r := r.setClient ws (some (state.deleteKey (subscriptionKey filter)))
    match filter.streamId, filter.recipientAddress with
    | some streamId, _ =>
      { r with streamSubscriptions := remove r.streamSubscriptions streamId ws }
    | none, some recipientAddress =>
      { r with
        recipientSubscriptions := remove r.recipientSubscriptions recipientAddress ws }
    | none, none => r

/-- Drop every filter of a connection. -/
def removeAllSubscriptions (ws : Socket) : ConnectionRegistry :=
  match r.clients ws with
  | none => r
  | some state =>
    state.subscriptionFilters.foldl (fun r filter => r.removeSubscription ws filter) r

def streamSubscribers (streamId : String) : List Socket := members r.streamSubscriptions streamId

def recipientSubscribers (recipientAddress : String) : List Socket :=
  members r.recipientSubscriptions recipientAddress

/-- Detach the subscribers of a stream, so that their sockets can be closed. -/
def takeStreamSubscribers (streamId : String) : List Socket × ConnectionRegistry :=
  match r.streamSubscribers streamId with
  | [] => ([], r)
  | targets => (targets, { r with streamSubscriptions := drop r.streamSubscriptions streamId })

/-- A key is among those of the recorded filters of a socket. -/
def HasKey (ws : Socket) (key : String) : Prop := ∃ state ∈ r.clients ws, key ∈ state.keys

def HasStream (ws : Socket) (streamId : String) : Prop := r.HasKey ws (streamKey streamId)

instance (ws : Socket) (key : String) : Decidable (r.HasKey ws key) :=
  match h : r.clients ws with
  | none => .isFalse fun ⟨state, hstate, _⟩ => by simp [h] at hstate
  | some state => decidable_of_iff (key ∈ state.keys) (by simp [HasKey, h])

instance (ws : Socket) (streamId : String) : Decidable (r.HasStream ws streamId) :=
  inferInstanceAs (Decidable (r.HasKey ws (streamKey streamId)))

/-- No set is empty, and every member of a set is registered. -/
structure Tidy : Prop where
  streamSets : ∀ streamId, r.streamSubscriptions streamId ≠ some []
  recipientSets : ∀ recipientAddress, r.recipientSubscriptions recipientAddress ≠ some []
  streamMembers : ∀ ws streamId, ws ∈ r.streamSubscribers streamId → (r.clients ws).isSome
  recipientMembers : ∀ ws recipientAddress, ws ∈ r.recipientSubscribers recipientAddress →
    (r.clients ws).isSome

end ConnectionRegistry

/-! ## Runs -/

inductive RegistryLabel
  | register (ws : Socket) (id ip : String) (authenticatedSubject : Option String)
  | subscribe (ws : Socket) (filter : SubscriptionFilter)
  | unsubscribe (ws : Socket) (filter : SubscriptionFilter)
  | takeStreamSubscribers (streamId : String)
  | removeAllSubscriptions (ws : Socket)
  | unregister (ws : Socket)

/-- The registry, and who was in the set of a stream when it was taken and has had its filter
since. -/
structure RegistryRun where
  registry : ConnectionRegistry
  taken : List (Socket × String)

namespace RegistryRun

def start : RegistryRun := ⟨ConnectionRegistry.empty, []⟩

def apply (r : ConnectionRegistry) : RegistryLabel → ConnectionRegistry
  | .register ws id ip authenticatedSubject =>
    r.register ws (createClientState id ip authenticatedSubject)
  | .subscribe ws filter => (r.addSubscription ws filter).2
  | .unsubscribe ws filter => r.removeSubscription ws filter
  | .takeStreamSubscribers streamId => (r.takeStreamSubscribers streamId).2
  | .removeAllSubscriptions ws => r.removeAllSubscriptions ws
  | .unregister ws => r.unregister ws

def takenBy (r : ConnectionRegistry) : RegistryLabel → List (Socket × String)
  | .takeStreamSubscribers streamId =>
    (r.takeStreamSubscribers streamId).1.map fun ws => (ws, streamId)
  | .register .. | .subscribe .. | .unsubscribe .. | .removeAllSubscriptions .. | .unregister .. =>
    []

def step (w : RegistryRun) (label : RegistryLabel) : Option RegistryRun :=
  let registry := apply w.registry label
  some ⟨registry, (w.taken ++ takenBy w.registry label).filter fun own =>
    registry.HasStream own.1 own.2⟩

/-- A socket is registered once, a filter names a stream or a recipient, and a socket is
forgotten when all its filters have been removed. -/
def Orderly (w : RegistryRun) : RegistryLabel → Prop
  | .register ws _ _ _ => w.registry.clients ws = none
  | .subscribe _ filter => filter.Names
  | .unsubscribe _ filter => filter.Names
  | .unregister ws => ∀ state ∈ w.registry.clients ws, state.subscriptionFilters = []
  | .takeStreamSubscribers _ => True
  | .removeAllSubscriptions _ => True

instance (w : RegistryRun) : DecidablePred w.Orderly
  | .register ws _ _ _ => inferInstanceAs (Decidable (w.registry.clients ws = none))
  | .subscribe _ filter =>
    inferInstanceAs (Decidable (filter.streamId.isSome ∨ filter.recipientAddress.isSome))
  | .unsubscribe _ filter =>
    inferInstanceAs (Decidable (filter.streamId.isSome ∨ filter.recipientAddress.isSome))
  | .unregister ws =>
    inferInstanceAs (Decidable (∀ state ∈ w.registry.clients ws, state.subscriptionFilters = []))
  | .takeStreamSubscribers _ => .isTrue trivial
  | .removeAllSubscriptions _ => .isTrue trivial

end RegistryRun

/-! ## Keys -/

theorem streamKey_inj {first second : String} :
    streamKey first = streamKey second ↔ first = second :=
  String.append_right_inj _

theorem recipientKey_inj {first second : String} :
    recipientKey first = recipientKey second ↔ first = second :=
  String.append_right_inj _

theorem streamKey_ne_recipientKey (streamId recipientAddress : String) :
    streamKey streamId ≠ recipientKey recipientAddress := by
  intro h
  have htexts := congrArg String.toList h
  simp [streamKey, recipientKey] at htexts

theorem subscriptionKey_eq_streamKey {filter : SubscriptionFilter} {streamId : String} :
    subscriptionKey filter = streamKey streamId ↔ filter.streamId = some streamId := by
  obtain ⟨stream, recipient, batching⟩ := filter
  cases stream with
  | some => simp [subscriptionKey, streamKey_inj]
  | none =>
    cases recipient with
    | some own => simp [subscriptionKey, (streamKey_ne_recipientKey streamId own).symm]
    | none =>
      have hempty : ("recipient:" : String) = recipientKey "" := rfl
      simp [subscriptionKey, hempty, (streamKey_ne_recipientKey streamId "").symm]

theorem subscriptionKey_eq_recipientKey {filter : SubscriptionFilter} {recipientAddress : String}
    (hnames : filter.Names) :
    subscriptionKey filter = recipientKey recipientAddress ↔
      filter.streamId = none ∧ filter.recipientAddress = some recipientAddress := by
  obtain ⟨stream, recipient, batching⟩ := filter
  cases stream with
  | some => simp [subscriptionKey, streamKey_ne_recipientKey]
  | none =>
    cases recipient with
    | some => simp [subscriptionKey, recipientKey_inj]
    | none => simp [SubscriptionFilter.Names] at hnames

/-! ## What the operations do -/

namespace ConnectionRegistry

variable {r : ConnectionRegistry} {ws own : Socket} {state : ClientState}
  {filter : SubscriptionFilter} {key : String}

theorem hasKey_setClient (next : Option ClientState) :
    (r.setClient ws next).HasKey own key ↔
      if own = ws then ∃ state ∈ next, key ∈ state.keys else r.HasKey own key := by
  rw [HasKey, setClient]
  dsimp only
  split_ifs with hown
  · rw [hown, Function.update_self]
  · rw [Function.update_of_ne hown]
    rfl

theorem mem_keys_setFilter : key ∈ (state.setFilter filter).keys ↔
    key ∈ state.keys ∨ key = subscriptionKey filter := by
  simp [ClientState.keys, ClientState.setFilter, eq_comm]

theorem mem_keys_deleteKey {deleted : String} :
    key ∈ (state.deleteKey deleted).keys ↔ key ∈ state.keys ∧ key ≠ deleted := by
  simp only [ClientState.keys, ClientState.deleteKey, List.mem_map, List.mem_filter,
    decide_eq_true_eq]
  apply Iff.intro
  · rintro ⟨own, ⟨hown, hne⟩, rfl⟩
    exact ⟨⟨own, hown, rfl⟩, hne⟩
  · rintro ⟨⟨own, hown, rfl⟩, hne⟩
    exact ⟨own, ⟨hown, hne⟩, rfl⟩

theorem addSubscription_of_mem (hstate : r.clients ws = some state)
    (hmem : subscriptionKey filter ∈ state.keys) : r.addSubscription ws filter = (false, r) := by
  rw [addSubscription, hstate]
  exact if_pos hmem

/-- What a new filter changes. -/
structure Added (r : ConnectionRegistry) (ws : Socket) (filter : SubscriptionFilter)
    (next : ConnectionRegistry) : Prop where
  hasKey : ∀ own key, next.HasKey own key ↔
    r.HasKey own key ∨ own = ws ∧ key = subscriptionKey filter
  clients : next.clients = Function.update r.clients ws
    ((r.clients ws).map fun state => state.setFilter filter)
  streams : next.streamSubscriptions = match filter.streamId with
    | some streamId => add r.streamSubscriptions streamId ws
    | none => r.streamSubscriptions
  recipients : next.recipientSubscriptions = match filter.streamId, filter.recipientAddress with
    | none, some recipientAddress => add r.recipientSubscriptions recipientAddress ws
    | _, _ => r.recipientSubscriptions

theorem added_addSubscription (hstate : r.clients ws = some state)
    (hnew : subscriptionKey filter ∉ state.keys) :
    Added r ws filter (r.addSubscription ws filter).2 := by
  have hkeys : ∀ own key, (r.setClient ws (some (state.setFilter filter))).HasKey own key ↔
      r.HasKey own key ∨ own = ws ∧ key = subscriptionKey filter := by
    intro own key
    rw [hasKey_setClient]
    by_cases hown : own = ws
    · subst hown
      simp [HasKey, hstate, mem_keys_setFilter]
    · simp [hown]
  have hclients : (r.setClient ws (some (state.setFilter filter))).clients =
      Function.update r.clients ws ((r.clients ws).map fun state => state.setFilter filter) := by
    rw [hstate]
    rfl
  obtain ⟨stream, recipient, batching⟩ := filter
  rw [addSubscription, hstate]
  dsimp only
  rw [if_neg hnew]
  cases stream with
  | some => exact ⟨hkeys, hclients, rfl, rfl⟩
  | none =>
    cases recipient with
    | some | none => exact ⟨hkeys, hclients, rfl, rfl⟩

/-- What the removal of a filter changes. -/
structure Removed (r : ConnectionRegistry) (ws : Socket) (filter : SubscriptionFilter)
    (next : ConnectionRegistry) : Prop where
  hasKey : ∀ own key, next.HasKey own key ↔
    r.HasKey own key ∧ ¬ (own = ws ∧ key = subscriptionKey filter)
  clients : next.clients = Function.update r.clients ws
    ((r.clients ws).map fun state => state.deleteKey (subscriptionKey filter))
  streams : next.streamSubscriptions = match filter.streamId with
    | some streamId => remove r.streamSubscriptions streamId ws
    | none => r.streamSubscriptions
  recipients : next.recipientSubscriptions = match filter.streamId, filter.recipientAddress with
    | none, some recipientAddress => remove r.recipientSubscriptions recipientAddress ws
    | _, _ => r.recipientSubscriptions

theorem removed_removeSubscription (hstate : r.clients ws = some state) :
    Removed r ws filter (r.removeSubscription ws filter) := by
  have hkeys : ∀ own key,
      (r.setClient ws (some (state.deleteKey (subscriptionKey filter)))).HasKey own key ↔
        r.HasKey own key ∧ ¬ (own = ws ∧ key = subscriptionKey filter) := by
    intro own key
    rw [hasKey_setClient]
    by_cases hown : own = ws
    · subst hown
      simp [HasKey, hstate, mem_keys_deleteKey]
    · simp [hown]
  have hclients : (r.setClient ws (some (state.deleteKey (subscriptionKey filter)))).clients =
      Function.update r.clients ws
        ((r.clients ws).map fun state => state.deleteKey (subscriptionKey filter)) := by
    rw [hstate]
    rfl
  obtain ⟨stream, recipient, batching⟩ := filter
  rw [removeSubscription, hstate]
  cases stream with
  | some => exact ⟨hkeys, hclients, rfl, rfl⟩
  | none =>
    cases recipient with
    | some | none => exact ⟨hkeys, hclients, rfl, rfl⟩

section

variable {next : ConnectionRegistry} {streamId recipientAddress : String}

theorem Added.mem_streamSubscribers (h : Added r ws filter next) :
    own ∈ next.streamSubscribers streamId ↔
      own ∈ r.streamSubscribers streamId ∨ own = ws ∧ filter.streamId = some streamId := by
  rw [streamSubscribers, h.streams]
  cases filter.streamId with
  | some id =>
    rw [mem_members_add, Option.some.injEq, eq_comm (a := id), and_comm (a := streamId = id)]
    rfl
  | none => simp [streamSubscribers]

theorem Added.mem_recipientSubscribers (h : Added r ws filter next) :
    own ∈ next.recipientSubscribers recipientAddress ↔
      own ∈ r.recipientSubscribers recipientAddress ∨
        own = ws ∧ filter.streamId = none ∧ filter.recipientAddress = some recipientAddress := by
  rw [recipientSubscribers, h.recipients]
  cases filter.streamId with
  | some => simp [recipientSubscribers]
  | none =>
    cases filter.recipientAddress with
    | some address =>
      rw [mem_members_add, Option.some.injEq, eq_comm (a := address), eq_self, true_and,
        and_comm (a := recipientAddress = address)]
      rfl
    | none => simp [recipientSubscribers]

theorem Added.wellKept (h : Added r ws filter next) (hstreams : WellKept r.streamSubscriptions)
    (hrecipients : WellKept r.recipientSubscriptions) :
    WellKept next.streamSubscriptions ∧ WellKept next.recipientSubscriptions := by
  rw [h.streams, h.recipients]
  cases filter.streamId with
  | some id => exact ⟨hstreams.add id ws, hrecipients⟩
  | none =>
    cases filter.recipientAddress with
    | some address => exact ⟨hstreams, hrecipients.add address ws⟩
    | none => exact ⟨hstreams, hrecipients⟩

theorem Removed.mem_streamSubscribers (h : Removed r ws filter next) :
    own ∈ next.streamSubscribers streamId ↔
      own ∈ r.streamSubscribers streamId ∧ ¬ (own = ws ∧ filter.streamId = some streamId) := by
  rw [streamSubscribers, h.streams]
  cases filter.streamId with
  | some id =>
    rw [mem_members_remove, Option.some.injEq, eq_comm (a := id), and_comm (a := streamId = id)]
    rfl
  | none => simp [streamSubscribers]

theorem Removed.mem_recipientSubscribers (h : Removed r ws filter next) :
    own ∈ next.recipientSubscribers recipientAddress ↔
      own ∈ r.recipientSubscribers recipientAddress ∧
        ¬ (own = ws ∧ filter.streamId = none ∧
          filter.recipientAddress = some recipientAddress) := by
  rw [recipientSubscribers, h.recipients]
  cases filter.streamId with
  | some => simp [recipientSubscribers]
  | none =>
    cases filter.recipientAddress with
    | some address =>
      rw [mem_members_remove, Option.some.injEq, eq_comm (a := address), eq_self, true_and,
        and_comm (a := recipientAddress = address)]
      rfl
    | none => simp [recipientSubscribers]

theorem Removed.wellKept (h : Removed r ws filter next)
    (hstreams : WellKept r.streamSubscriptions) (hrecipients : WellKept r.recipientSubscriptions) :
    WellKept next.streamSubscriptions ∧ WellKept next.recipientSubscriptions := by
  rw [h.streams, h.recipients]
  cases filter.streamId with
  | some id => exact ⟨hstreams.remove id ws, hrecipients⟩
  | none =>
    cases filter.recipientAddress with
    | some address => exact ⟨hstreams, hrecipients.remove address ws⟩
    | none => exact ⟨hstreams, hrecipients⟩

end

end ConnectionRegistry

/-! ## The two indexes -/

/-- Who is in the set of a stream has recorded it and was not taken, who is in the set of a
recipient has recorded that, and the sets are well kept. -/
structure Indexed (r : ConnectionRegistry) (taken : List (Socket × String)) : Prop where
  recorded : ∀ ws streamId,
    ws ∈ r.streamSubscribers streamId ↔ r.HasStream ws streamId ∧ (ws, streamId) ∉ taken
  recipients : ∀ ws recipientAddress, ws ∈ r.recipientSubscribers recipientAddress →
    r.HasKey ws (recipientKey recipientAddress)
  streamSets : WellKept r.streamSubscriptions
  recipientSets : WellKept r.recipientSubscriptions
  named : ∀ ws, ∀ state ∈ r.clients ws, ∀ filter ∈ state.subscriptionFilters, filter.Names

section

variable {r next : ConnectionRegistry} {taken : List (Socket × String)} {ws : Socket}
  {filter : SubscriptionFilter}

theorem indexed_empty : Indexed ConnectionRegistry.empty [] where
  recorded ws streamId := by
    apply Iff.intro
    · intro hmem
      cases hmem
    · rintro ⟨⟨state, hstate, -⟩, -⟩
      cases hstate
  recipients ws recipientAddress hmem := by cases hmem
  streamSets := WellKept.empty
  recipientSets := WellKept.empty
  named ws state hstate := by cases hstate

theorem Indexed.filter_taken (h : Indexed r taken) :
    Indexed r (taken.filter fun own => r.HasStream own.1 own.2) where
  recorded ws streamId := by
    rw [h.recorded, List.mem_filter, decide_eq_true_eq]
    tauto
  recipients := h.recipients
  streamSets := h.streamSets
  recipientSets := h.recipientSets
  named := h.named

theorem Indexed.removed (h : Indexed r taken)
    (hremoved : ConnectionRegistry.Removed r ws filter next) (hnames : filter.Names) :
    Indexed next taken where
  recorded own streamId := by
    rw [hremoved.mem_streamSubscribers, h.recorded, ConnectionRegistry.HasStream,
      ConnectionRegistry.HasStream, hremoved.hasKey, eq_comm (a := streamKey streamId),
      subscriptionKey_eq_streamKey]
    tauto
  recipients own recipientAddress hmem := by
    obtain ⟨hmem, hkept⟩ := hremoved.mem_recipientSubscribers.mp hmem
    rw [hremoved.hasKey, eq_comm (a := recipientKey recipientAddress),
      subscriptionKey_eq_recipientKey hnames]
    exact ⟨h.recipients own recipientAddress hmem, hkept⟩
  streamSets := (hremoved.wellKept h.streamSets h.recipientSets).1
  recipientSets := (hremoved.wellKept h.streamSets h.recipientSets).2
  named own state hstate recorded hrecorded := by
    rw [hremoved.clients] at hstate
    by_cases hown : own = ws
    · subst hown
      rw [Function.update_self, Option.mem_def, Option.map_eq_some_iff] at hstate
      obtain ⟨before, hbefore, rfl⟩ := hstate
      exact h.named own before hbefore recorded (List.mem_of_mem_filter hrecorded)
    · rw [Function.update_of_ne hown] at hstate
      exact h.named own state hstate recorded hrecorded

theorem Indexed.added (h : Indexed r taken)
    (hadded : ConnectionRegistry.Added r ws filter next) (hnames : filter.Names)
    (hnew : ¬ r.HasKey ws (subscriptionKey filter))
    (htaken : ∀ own ∈ taken, r.HasStream own.1 own.2) : Indexed next taken where
  recorded own streamId := by
    have hfree : own = ws ∧ filter.streamId = some streamId → (own, streamId) ∉ taken := by
      rintro ⟨rfl, hstream⟩ hmem
      rw [subscriptionKey_eq_streamKey.mpr hstream] at hnew
      exact hnew (htaken _ hmem)
    rw [hadded.mem_streamSubscribers, h.recorded, ConnectionRegistry.HasStream,
      ConnectionRegistry.HasStream, hadded.hasKey, eq_comm (a := streamKey streamId),
      subscriptionKey_eq_streamKey]
    tauto
  recipients own recipientAddress hmem := by
    rw [hadded.hasKey, eq_comm (a := recipientKey recipientAddress),
      subscriptionKey_eq_recipientKey hnames]
    exact (hadded.mem_recipientSubscribers.mp hmem).imp_left (h.recipients own recipientAddress)
  streamSets := (hadded.wellKept h.streamSets h.recipientSets).1
  recipientSets := (hadded.wellKept h.streamSets h.recipientSets).2
  named own state hstate recorded hrecorded := by
    rw [hadded.clients] at hstate
    by_cases hown : own = ws
    · subst hown
      rw [Function.update_self, Option.mem_def, Option.map_eq_some_iff] at hstate
      obtain ⟨before, hbefore, rfl⟩ := hstate
      rcases List.mem_append.mp hrecorded with hold | hself
      · exact h.named own before hbefore recorded hold
      · rw [List.mem_singleton.mp hself]
        exact hnames
    · rw [Function.update_of_ne hown] at hstate
      exact h.named own state hstate recorded hrecorded

theorem Indexed.setClient (h : Indexed r taken) {state : Option ClientState}
    (hkeys : ∀ key, (∃ own ∈ state, key ∈ own.keys) ↔ r.HasKey ws key)
    (hnamed : ∀ own ∈ state, ∀ filter ∈ own.subscriptionFilters, filter.Names) :
    Indexed (r.setClient ws state) taken := by
  have hsame : ∀ own key, (r.setClient ws state).HasKey own key ↔ r.HasKey own key := by
    intro own key
    rw [ConnectionRegistry.hasKey_setClient]
    split_ifs with hown
    · rw [hkeys, hown]
    · rfl
  constructor
  case recorded =>
    intro own streamId
    rw [ConnectionRegistry.HasStream, hsame]
    exact h.recorded own streamId
  case recipients =>
    intro own recipientAddress hmem
    rw [hsame]
    exact h.recipients own recipientAddress hmem
  case streamSets =>
    exact h.streamSets
  case recipientSets =>
    exact h.recipientSets
  case named =>
    intro own before hbefore
    rw [ConnectionRegistry.setClient] at hbefore
    dsimp only at hbefore
    by_cases hown : own = ws
    · subst hown
      rw [Function.update_self] at hbefore
      exact hnamed before hbefore
    · rw [Function.update_of_ne hown] at hbefore
      exact h.named own before hbefore

theorem Indexed.removeSubscription (h : Indexed r taken) (ws : Socket) (hnames : filter.Names) :
    Indexed (r.removeSubscription ws filter) taken := by
  cases hstate : r.clients ws with
  | none =>
    rw [ConnectionRegistry.removeSubscription, hstate]
    exact h
  | some => exact h.removed (ConnectionRegistry.removed_removeSubscription hstate) hnames

theorem Indexed.removeFilters (h : Indexed r taken) (ws : Socket)
    {filters : List SubscriptionFilter} (hnamed : ∀ filter ∈ filters, filter.Names) :
    Indexed (filters.foldl (fun r filter => r.removeSubscription ws filter) r) taken := by
  induction filters generalizing r with
  | nil => exact h
  | cons filter _ ih =>
    exact ih (h.removeSubscription ws (hnamed filter List.mem_cons_self))
      fun own hown => hnamed own (List.mem_cons_of_mem _ hown)

theorem Indexed.removeAllSubscriptions (h : Indexed r taken) (ws : Socket) :
    Indexed (r.removeAllSubscriptions ws) taken := by
  rw [ConnectionRegistry.removeAllSubscriptions]
  cases hstate : r.clients ws with
  | none => exact h
  | some state => exact h.removeFilters ws (h.named ws state hstate)

theorem Indexed.addSubscription (h : Indexed r taken) (ws : Socket) (hnames : filter.Names)
    (htaken : ∀ own ∈ taken, r.HasStream own.1 own.2) :
    Indexed (r.addSubscription ws filter).2 taken := by
  cases hstate : r.clients ws with
  | none =>
    rw [ConnectionRegistry.addSubscription, hstate]
    exact h
  | some state =>
    by_cases hmem : subscriptionKey filter ∈ state.keys
    · rw [ConnectionRegistry.addSubscription_of_mem hstate hmem]
      exact h
    · refine h.added (ConnectionRegistry.added_addSubscription hstate hmem) hnames ?_ htaken
      rintro ⟨own, hown, hkey⟩
      rw [Option.mem_def, hstate, Option.some.injEq] at hown
      rw [← hown] at hkey
      exact hmem hkey

theorem takeStreamSubscribers_eq (r : ConnectionRegistry) (streamId : String) :
    (r.takeStreamSubscribers streamId).1 = r.streamSubscribers streamId ∧
      ∀ own, (r.takeStreamSubscribers streamId).2.streamSubscribers own =
        if own = streamId then [] else r.streamSubscribers own := by
  rw [ConnectionRegistry.takeStreamSubscribers]
  split
  · next hnone =>
      refine ⟨hnone.symm, fun own => ?_⟩
      split_ifs with hown
      · rw [hown]
        exact hnone
      · rfl
  · refine ⟨rfl, fun own => ?_⟩
    exact members_update r.streamSubscriptions streamId none own

theorem Indexed.takeStreamSubscribers (h : Indexed r taken) (streamId : String) :
    Indexed (r.takeStreamSubscribers streamId).2
      (taken ++ (r.takeStreamSubscribers streamId).1.map fun ws => (ws, streamId)) := by
  obtain ⟨htargets, hsets⟩ := takeStreamSubscribers_eq r streamId
  have hrest : (r.takeStreamSubscribers streamId).2.clients = r.clients ∧
      (r.takeStreamSubscribers streamId).2.recipientSubscriptions = r.recipientSubscriptions ∧
      WellKept (r.takeStreamSubscribers streamId).2.streamSubscriptions := by
    rw [ConnectionRegistry.takeStreamSubscribers]
    split
    · exact ⟨rfl, rfl, h.streamSets⟩
    · exact ⟨rfl, rfl, h.streamSets.drop streamId⟩
  obtain ⟨hclients, hrecipients, hkept⟩ := hrest
  have hkeys : ∀ own key, (r.takeStreamSubscribers streamId).2.HasKey own key ↔
      r.HasKey own key := fun own key => by
    rw [ConnectionRegistry.HasKey, hclients, ConnectionRegistry.HasKey]
  constructor
  case recorded =>
    intro ws own
    rw [hsets, htargets, ConnectionRegistry.HasStream, hkeys]
    have hold := h.recorded ws own
    rw [ConnectionRegistry.HasStream] at hold
    split_ifs with hown
    · subst hown
      simp only [List.not_mem_nil, List.mem_append, List.mem_map, Prod.mk.injEq, and_true,
        exists_eq_right, not_or, false_iff]
      tauto
    · simp only [hold, List.mem_append, List.mem_map, Prod.mk.injEq, not_or]
      apply Iff.intro
      · rintro ⟨hhas, hnot⟩
        exact ⟨hhas, hnot, fun ⟨_, _, _, heq⟩ => hown heq.symm⟩
      · rintro ⟨hhas, hnot, -⟩
        exact ⟨hhas, hnot⟩
  case recipients =>
    intro ws recipientAddress hmem
    rw [ConnectionRegistry.recipientSubscribers, hrecipients] at hmem
    rw [hkeys]
    exact h.recipients ws recipientAddress hmem
  case streamSets =>
    exact hkept
  case recipientSets =>
    rw [hrecipients]
    exact h.recipientSets
  case named =>
    rw [hclients]
    exact h.named

end

/-! ## Orderly runs -/

namespace RegistryRun

variable {w w' : RegistryRun} {label : RegistryLabel}

/-- The indexes are right, and whoever was taken still has the filter. -/
structure Kept (w : RegistryRun) : Prop where
  indexed : Indexed w.registry w.taken
  since : ∀ own ∈ w.taken, w.registry.HasStream own.1 own.2

theorem Kept.apply (h : w.Kept) (horderly : w.Orderly label) :
    Indexed (apply w.registry label) (w.taken ++ takenBy w.registry label) := by
  cases label with
  | register ws =>
    rw [takenBy, List.append_nil]
    refine h.indexed.setClient (fun key => ?_) fun own hown => ?_
    · have hnone : w.registry.clients ws = none := horderly
      simp [ConnectionRegistry.HasKey, hnone, createClientState, ClientState.keys]
    · cases hown
      exact fun filter hfilter => absurd hfilter List.not_mem_nil
  | subscribe ws =>
    rw [takenBy, List.append_nil]
    exact h.indexed.addSubscription ws horderly h.since
  | unsubscribe ws =>
    rw [takenBy, List.append_nil]
    exact h.indexed.removeSubscription ws horderly
  | takeStreamSubscribers streamId => exact h.indexed.takeStreamSubscribers streamId
  | removeAllSubscriptions ws =>
    rw [takenBy, List.append_nil]
    exact h.indexed.removeAllSubscriptions ws
  | unregister =>
    rw [takenBy, List.append_nil]
    refine h.indexed.setClient (fun key => ?_) fun own hown => by cases hown
    apply Iff.intro
    · rintro ⟨own, hown, -⟩
      cases hown
    · rintro ⟨own, hown, hkey⟩
      rw [ClientState.keys, horderly own hown] at hkey
      cases hkey

theorem Kept.step (h : w.Kept) (horderly : w.Orderly label) (hstep : w.step label = some w') :
    w'.Kept := by
  cases hstep
  refine ⟨(h.apply horderly).filter_taken, fun own hown => ?_⟩
  exact of_decide_eq_true (List.mem_filter.mp hown).2

/-- In an orderly run, a socket is in the set of a stream exactly if the stream is among its
recorded filters and its set has not been taken since; no set is empty, and every member of a
set is registered. -/
theorem registry_consistent (hrun : Reaches RegistryRun.step Orderly start w) :
    (∀ ws streamId, ws ∈ w.registry.streamSubscribers streamId ↔
        w.registry.HasStream ws streamId ∧ (ws, streamId) ∉ w.taken) ∧
      w.registry.Tidy := by
  have hkept : w.Kept := Reaches.invariant
    (fun s label s' h horderly hstep => h.step horderly hstep)
    ⟨indexed_empty, fun own hown => absurd hown List.not_mem_nil⟩ hrun
  refine ⟨hkept.indexed.recorded, hkept.indexed.streamSets.nonempty,
    hkept.indexed.recipientSets.nonempty, fun ws streamId hmem => ?_,
    fun ws recipientAddress hmem => ?_⟩
  · obtain ⟨⟨state, hstate, -⟩, -⟩ := (hkept.indexed.recorded ws streamId).mp hmem
    exact Option.isSome_of_mem hstate
  · obtain ⟨state, hstate, -⟩ := hkept.indexed.recipients ws recipientAddress hmem
    exact Option.isSome_of_mem hstate

def streamFilter (streamId : String) : SubscriptionFilter := ⟨some streamId, none, none⟩

/-- A socket subscribes to two streams and the subscribers of one are taken. -/
def takenStream : List RegistryLabel :=
  [.register 1 "c-1" "10.0.0.1" none, .subscribe 1 (streamFilter "a"),
    .subscribe 1 (streamFilter "b"), .takeStreamSubscribers "a"]

theorem registry_consistent_takenStream :
    ∃ w, runUnder step Orderly start takenStream = some w ∧
      (∀ ws streamId, ws ∈ w.registry.streamSubscribers streamId ↔
          w.registry.HasStream ws streamId ∧ (ws, streamId) ∉ w.taken) ∧
        w.registry.Tidy := by
  obtain ⟨w, hrun⟩ : ∃ w, runUnder step Orderly start takenStream = some w := ⟨_, rfl⟩
  exact ⟨w, hrun, registry_consistent (Reaches.of_runUnder hrun)⟩

/-- When its subscribers have been taken, a stream is still recorded. A socket that is
forgotten with a filter stays in the set of its stream. -/
theorem registry_inconsistent :
    (¬ ∀ labels w, run step start labels = some w →
      ∀ ws streamId, ws ∈ w.registry.streamSubscribers streamId ↔
        w.registry.HasStream ws streamId) ∧
    ¬ ∀ labels w, run step start labels = some w → w.registry.Tidy := by
  apply And.intro
  · intro h
    have hmember := (h takenStream _ rfl 1 "a").mpr (by decide)
    exact absurd hmember (by decide)
  · intro h
    have htidy := h [.register 1 "c-1" "10.0.0.1" none, .subscribe 1 (streamFilter "a"),
      .unregister 1] _ rfl
    have hregistered := htidy.streamMembers 1 "a" (by decide)
    exact absurd hregistered (by decide)

end RegistryRun

end Fluxora.Ws
