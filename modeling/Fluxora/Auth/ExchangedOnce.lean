/-
# When an ID token is exchanged once

At most one call exchanges an ID token before it expires, in one process when no call that Redis
leaves without an answer races another one, and in any number of processes when Redis answers
every call.
-/

import Fluxora.Auth.ReplayCache

namespace Fluxora.Auth

open Lib Lib.Transition

/-! ## Times -/

/-- What a token says about its expiry, in seconds. -/
def Expires (cfg : ReplayConfig) (idToken : String) (exp : ℚ) : Prop :=
  ∃ kid payload, decodeIdToken cfg.decode idToken = .ok (kid, exp, payload)

variable {exp e : ℚ} {now : ℕ} {cache : ReplayCache} {key : String}

theorem Expires.unique {cfg : ReplayConfig} {idToken : String} {exp' : ℚ}
    (h : Expires cfg idToken exp) (h' : Expires cfg idToken exp') : exp = exp' := by
  obtain ⟨_, _, h⟩ := h
  obtain ⟨_, _, h'⟩ := h'
  cases h.symm.trans h'
  rfl

theorem Expires.instant {cfg : ReplayConfig} {idToken : String} (h : Expires cfg idToken exp)
    (exp' : ℚ) (h' : Expires cfg idToken exp') : exp' * 1000 = exp * 1000 := by
  rw [h'.unique h]

theorem Look.le_ttl (look : Look) (hnow : look.nowMs ≤ now) :
    look.exp * 1000 ≤ now + look.ttl * 1000 := by
  have hseconds : ((look.nowMs / 1000 : ℕ) : ℚ) * 1000 ≤ look.nowMs := by
    exact_mod_cast Nat.div_mul_le_self look.nowMs 1000
  have hlater : (look.nowMs : ℚ) ≤ now := by exact_mod_cast hnow
  unfold Look.ttl
  linarith

theorem Look.whole_ttl (look : Look) (h : (look.exp * 1000).den = 1) :
    (look.ttl * 1000).den = 1 := by
  have hexp : ((look.exp * 1000).num : ℚ) = look.exp * 1000 := Rat.coe_int_num_of_den_eq_one h
  have hinteger : ∀ seconds : ℕ, (look.exp - seconds) * 1000 =
      (((look.exp * 1000).num - seconds * 1000 : ℤ) : ℚ) := by
    intro seconds
    push_cast
    rw [hexp]
    ring
  rw [Look.ttl, hinteger]
  exact Rat.den_intCast _

/-- Every call in flight has looked at its token before now. -/
def LooksBack (cfg : ReplayConfig) (s : ReplayState) : Prop :=
  ∀ call, ∀ current, s.calls call = some current → ∀ look, current.phase.inFlight = some look →
    Expires cfg current.idToken look.exp ∧ look.nowMs ≤ s.now

variable {cfg : ReplayConfig} {s s' : ReplayState} {label : ReplayLabel}

theorem LooksBack.step (h : LooksBack cfg s) (move : ReplayMove cfg s label s') :
    LooksBack cfg s' := by
  have hput : ∀ {call : ℕ} {next : ReplayCall}, s'.calls = (s.put call next).calls →
      (∀ look, next.phase.inFlight = some look →
        Expires cfg next.idToken look.exp ∧ look.nowMs ≤ s.now) → LooksBack cfg s' := by
    intro call next hcalls hnext other current hother look hlook
    have hhas : s'.Has (· = current) other := ⟨current, hother, rfl⟩
    rcases (ReplayState.has_of_calls hcalls).mp hhas with ⟨_, rfl⟩ | ⟨_, _, hcalls', rfl⟩
    · obtain ⟨hexpires, htime⟩ := hnext look hlook
      exact ⟨hexpires, htime.trans move.now_le⟩
    · obtain ⟨hexpires, htime⟩ := h other _ hcalls' look hlook
      exact ⟨hexpires, htime.trans move.now_le⟩
  have hdone : ∀ look, (none : Option Look) = some look →
      ∀ {P : Prop}, P := fun _ h => by cases h
  cases move with
  | tick =>
    intro call current hcall look hlook
    obtain ⟨hexpires, htime⟩ := h call current hcall look hlook
    exact ⟨hexpires, htime.trans (Nat.le_add_right _ _)⟩
  | sweep => exact h
  | turnedAway => exact hput rfl fun _ h => hdone _ h
  | looked _ _ _ _ _ _ time checked =>
    refine hput rfl fun look' hlook => ?_
    cases hlook
    exact ⟨checked, time.le⟩
  | granted call current look present phase | denied call current look present phase =>
    refine hput rfl fun look' hlook => ?_
    cases hlook
    exact h call current present look (by rw [phase]; rfl)
  | refused | answered | unanswered | skipped => exact hput rfl fun _ h => hdone _ h

/-! ## Granted and exchanged tokens -/

/-- The call is for the token, in the process if one is given. -/
def ReplayCall.Of (idToken : String) (process : Option ℕ) (call : ReplayCall) : Prop :=
  call.idToken = idToken ∧ ∀ p ∈ process, call.process = p

section

variable (idToken : String) (process : Option ℕ)

def Granted (s : ReplayState) (call : ℕ) : Prop :=
  s.Has (fun current => current.Of idToken process ∧ current.phase.granted = true) call

def Exchanged (s : ReplayState) (call time : ℕ) : Prop :=
  s.Has (fun current => current.Of idToken process ∧
    ∃ verified, current.phase = .succeeded time verified) call

def InFlight (s : ReplayState) (call : ℕ) : Prop :=
  s.Has (fun current => current.Of idToken process ∧ current.phase.inFlight ≠ none) call

/-- At most one call exchanges the token before it expires. -/
def ExchangedOnce (cfg : ReplayConfig) (s : ReplayState) : Prop :=
  ∀ exp, Expires cfg idToken exp → ∀ call call' time time' : ℕ,
    Exchanged idToken process s call time → Exchanged idToken process s call' time' →
      (time : ℚ) < exp * 1000 → (time' : ℚ) < exp * 1000 → call = call'

/-- At most one call has exchanged the token before it expires, and while it is valid at
most one has been granted it. -/
structure Exclusive (expiresAt : ℚ) (s : ReplayState) : Prop where
  once : ∀ call call' time time' : ℕ, Exchanged idToken process s call time →
    Exchanged idToken process s call' time' → (time : ℚ) < expiresAt →
      (time' : ℚ) < expiresAt → call = call'
  sole : (s.now : ℚ) < expiresAt → ∀ call call', Granted idToken process s call →
    Granted idToken process s call' → call = call'

end

variable {idToken : String} {process : Option ℕ} {expiresAt : ℚ} {call time : ℕ}

theorem Exchanged.granted (h : Exchanged idToken process s call time) :
    Granted idToken process s call := by
  obtain ⟨current, hcall, hof, verified, hphase⟩ := h
  exact ⟨current, hcall, hof, by rw [hphase]; rfl⟩

theorem ReplayMove.exchanged (move : ReplayMove cfg s label s')
    (h : Exchanged idToken process s' call time) :
    Exchanged idToken process s call time ∨ time = s'.now := by
  have hput : ∀ {changed : ℕ} {next : ReplayCall}, s'.calls = (s.put changed next).calls →
      (∀ verified, next.phase ≠ .succeeded time verified) →
        Exchanged idToken process s call time := by
    intro changed next hcalls hother
    rcases (ReplayState.has_of_calls hcalls).mp h with ⟨_, _, verified, hphase⟩ | ⟨_, hbefore⟩
    · exact absurd hphase (hother verified)
    · exact hbefore
  have hexchange : ∀ {changed : ℕ} {current : ReplayCall} {look : Look},
      s' = s.exchange cfg changed current look →
        Exchanged idToken process s call time ∨ time = s'.now := by
    intro changed current look hs'
    rw [hs', Exchanged] at h
    rcases ReplayState.has_put.mp h with ⟨_, _, verified, hphase⟩ | ⟨_, hbefore⟩
    · cases hphase
      rw [hs']
      exact Or.inr rfl
    · exact Or.inl hbefore
  cases move with
  | tick | sweep => exact Or.inl h
  | turnedAway | looked | granted | denied | refused =>
    exact Or.inl (hput rfl fun _ h => by cases h)
  | answered | unanswered | skipped => exact hexchange rfl

theorem Exclusive.step (h : Exclusive idToken process expiresAt s)
    (move : ReplayMove cfg s label s')
    (hnew : (s.now : ℚ) < expiresAt → ∀ call, Granted idToken process s' call →
      ¬ Granted idToken process s call → ∀ other, ¬ Granted idToken process s other) :
    Exclusive idToken process expiresAt s' := by
  have hsole : (s'.now : ℚ) < expiresAt → ∀ call call', Granted idToken process s' call →
      Granted idToken process s' call' → call = call' := by
    intro hvalid call call' hcall hcall'
    have hvalid' := move.now_lt hvalid
    obtain ⟨changed, hsame⟩ := move.exists_call
    by_cases hbefore : Granted idToken process s call
    · by_cases hbefore' : Granted idToken process s call'
      · exact h.sole hvalid' call call' hbefore hbefore'
      · exact absurd hbefore (hnew hvalid' call' hcall' hbefore' call)
    · by_cases hbefore' : Granted idToken process s call'
      · exact absurd hbefore' (hnew hvalid' call hcall hbefore call')
      · -- both calls have changed in this step
        have hchanged : ∀ other, Granted idToken process s' other →
            ¬ Granted idToken process s other → other = changed := by
          intro other hafter hno
          by_contra hother
          exact hno ((hsame _ other hother).mp hafter)
        rw [hchanged call hcall hbefore, hchanged call' hcall' hbefore']
  refine ⟨?_, hsole⟩
  intro call call' time time' hcall hcall' htime htime'
  rcases move.exchanged hcall with hbefore | hnow
  · rcases move.exchanged hcall' with hbefore' | hnow'
    · exact h.once call call' time time' hbefore hbefore' htime htime'
    · exact hsole (hnow' ▸ htime') call call' hcall.granted hcall'.granted
  · exact hsole (hnow ▸ htime) call call' hcall.granted hcall'.granted

/-! ## New grants -/

/-- How a call comes to be granted a token: by a claim, or without an answer. -/
inductive Grant (cfg : ReplayConfig) (s : ReplayState) (call : ℕ) (current : ReplayCall) :
    ReplayLabel → Prop
  | claimed (free : isLive s.now (s.redis (cfg.replayKey current.idToken)) = false) :
      Grant cfg s call current (.claim call)
  | failed : Grant cfg s call current (.fail call)
  | skipped (look : Look) (phase : current.phase = .looked look)
      (broken : (look.ttl * 1000).den ≠ 1) : Grant cfg s call current (.skip call)

theorem ReplayMove.grant (move : ReplayMove cfg s label s') (h : Granted idToken process s' call)
    (hno : ¬ Granted idToken process s call) :
    ∃ current, s.calls call = some current ∧ current.Of idToken process ∧
      current.phase.inFlight ≠ none ∧ Grant cfg s call current label := by
  have hput : ∀ {changed : ℕ} {next : ReplayCall}, s'.calls = (s.put changed next).calls →
      call = changed ∧ next.Of idToken process ∧ next.phase.granted = true := by
    intro changed next hcalls
    rcases (ReplayState.has_of_calls hcalls).mp h with hnext | ⟨_, hbefore⟩
    · exact hnext
    · exact absurd hbefore hno
  cases move with
  | tick | sweep => exact absurd h hno
  | turnedAway | looked => cases (hput rfl).2.2
  | granted _ current _ present phase _ free =>
    obtain ⟨rfl, hof, _⟩ := hput rfl
    exact ⟨current, present, hof, by rw [phase]; exact Option.some_ne_none _, .claimed free⟩
  | denied | refused => cases (hput rfl).2.2
  | answered _ current _ present phase =>
    obtain ⟨rfl, hof, _⟩ := hput rfl
    exact absurd ⟨current, present, hof, by rw [phase]; rfl⟩ hno
  | unanswered _ current _ present phase =>
    obtain ⟨rfl, hof, _⟩ := hput rfl
    exact ⟨current, present, hof, by rw [phase]; exact Option.some_ne_none _, .failed⟩
  | skipped _ current look present phase broken =>
    obtain ⟨rfl, hof, _⟩ := hput rfl
    exact ⟨current, present, hof, by rw [phase]; exact Option.some_ne_none _,
      .skipped look phase broken⟩

/-! ## The key in Redis -/

theorem isLive_some (h : (now : ℚ) < e) : isLive now (some e) = true := by
  rw [isLive, Option.any_some, decide_eq_true_eq]
  exact h

/-- The key of the token is in Redis until the token expires. -/
def Covered (cfg : ReplayConfig) (idToken : String) (expiresAt : ℚ) (s : ReplayState) : Prop :=
  ∃ e, s.redis (cfg.replayKey idToken) = some e ∧ expiresAt ≤ e

theorem Covered.isLive (h : Covered cfg idToken expiresAt s) (hvalid : (s.now : ℚ) < expiresAt) :
    isLive s.now (s.redis (cfg.replayKey idToken)) = true := by
  obtain ⟨e, hkey, hlater⟩ := h
  rw [hkey]
  exact isLive_some (lt_of_lt_of_le hvalid hlater)

theorem Covered.step (h : Covered cfg idToken expiresAt s) (hvalid : (s.now : ℚ) < expiresAt)
    (move : ReplayMove cfg s label s') : Covered cfg idToken expiresAt s' := by
  cases move with
  | granted _ current _ _ _ _ free =>
    have hkey : cfg.replayKey idToken ≠ cfg.replayKey current.idToken := by
      intro hsame
      rw [← hsame, h.isLive hvalid] at free
      cases free
    obtain ⟨e, he, hlater⟩ := h
    exact ⟨e, (if_neg hkey).trans he, hlater⟩
  | _ => exact h

theorem ReplayMove.covered_of_claim (hlooks : LooksBack cfg s)
    (hexpires : ∀ exp, Expires cfg idToken exp → exp * 1000 = expiresAt)
    (move : ReplayMove cfg s (.claim call) s') (h : Granted idToken process s' call) :
    Covered cfg idToken expiresAt s' := by
  cases move with
  | granted _ current look present phase =>
    rcases ReplayState.has_put.mp h with ⟨_, ⟨htoken, _⟩, _⟩ | ⟨hother, _⟩
    · obtain ⟨hexp, htime⟩ := hlooks call current present look (by rw [phase]; rfl)
      have htoken : current.idToken = idToken := htoken
      rw [htoken] at hexp
      refine ⟨_, if_pos (by rw [htoken]), ?_⟩
      rw [← hexpires look.exp hexp]
      exact look.le_ttl htime
    · exact absurd rfl hother
  | denied =>
    rcases ReplayState.has_put.mp h with ⟨_, _, hgranted⟩ | ⟨hother, _⟩
    · cases hgranted
    · exact absurd rfl hother

/-! ## Any number of processes -/

/-- Redis answers: no call learns that it has failed. -/
def Answers (_ : ReplayState) (label : ReplayLabel) : Prop := ∀ call, label ≠ .fail call

/-- While the token is valid, a grant is covered by the key in Redis. -/
structure SharedGrants (cfg : ReplayConfig) (idToken : String) (expiresAt : ℚ)
    (s : ReplayState) : Prop where
  looks : LooksBack cfg s
  exclusive : Exclusive idToken none expiresAt s
  covered : (s.now : ℚ) < expiresAt → ∀ call, Granted idToken none s call →
    Covered cfg idToken expiresAt s

theorem SharedGrants.step (hexpires : ∀ exp, Expires cfg idToken exp → exp * 1000 = expiresAt)
    (hwhole : expiresAt.den = 1) (h : SharedGrants cfg idToken expiresAt s)
    (hanswers : Answers s label) (move : ReplayMove cfg s label s') :
    SharedGrants cfg idToken expiresAt s' := by
  -- a new grant is a claim, since the time to live is a whole number
  have hclaim : ∀ call, Granted idToken none s' call → ¬ Granted idToken none s call →
      label = .claim call ∧
        isLive s.now (s.redis (cfg.replayKey idToken)) = false := by
    intro call hgranted hno
    obtain ⟨current, hpresent, ⟨htoken, _⟩, _, hgrant⟩ := move.grant hgranted hno
    cases hgrant with
    | claimed free => exact ⟨rfl, htoken ▸ free⟩
    | failed => exact absurd rfl (hanswers call)
    | skipped look phase broken =>
      obtain ⟨hexp, _⟩ := h.looks call current hpresent look (by rw [phase]; rfl)
      rw [htoken] at hexp
      rw [← hexpires look.exp hexp] at hwhole
      exact absurd (look.whole_ttl hwhole) broken
  constructor
  · exact h.looks.step move
  · apply h.exclusive.step move
    intro hvalid call hgranted hno other hother
    have hlive := (h.covered hvalid other hother).isLive hvalid
    rw [(hclaim call hgranted hno).2] at hlive
    cases hlive
  · intro hvalid call hgranted
    have hvalid' := move.now_lt hvalid
    by_cases hbefore : Granted idToken none s call
    · exact (h.covered hvalid' call hbefore).step hvalid' move
    · obtain ⟨rfl, _⟩ := hclaim call hgranted hbefore
      exact move.covered_of_claim h.looks hexpires hgranted

/-! ## The record of a process -/

theorem lookup_filter {keep : String × ℚ → Bool} (h : cache.lookup key = some e)
    (hkeep : keep (key, e) = true) : (cache.filter keep).lookup key = some e := by
  induction cache with
  | nil => cases h
  | cons entry _ ih =>
    obtain ⟨k, v⟩ := entry
    by_cases hkey : key = k
    · subst hkey
      simp only [List.lookup_cons_self, Option.some.injEq] at h
      rw [List.filter_cons_of_pos (by rw [h]; exact hkeep), List.lookup_cons_self, h]
    · have hbeq : (key == k) = false := by simpa using hkey
      simp only [List.lookup_cons, hbeq] at h
      by_cases hfirst : keep (k, v) = true
      · rw [List.filter_cons_of_pos hfirst]
        simp only [List.lookup_cons, hbeq]
        exact ih h
      · rw [List.filter_cons_of_neg hfirst]
        exact ih h

theorem lookup_prune (h : cache.lookup key = some e) (hlive : (now : ℚ) < e) :
    (pruneExpiredReplayEntries now cache).lookup key = some e :=
  lookup_filter h (by simpa using hlive)

theorem lookup_recordReplayEntry_of_ne {other : String} {e' : ℚ} (h : cache.lookup key = some e)
    (hlive : (now : ℚ) < e) (hne : key ≠ other) :
    (recordReplayEntry now other e' cache).lookup key = some e := by
  unfold recordReplayEntry
  dsimp only
  split_ifs
  · exact lookup_prune h hlive
  · rw [Properties.lookup_set_of_ne hne]
    exact lookup_prune h hlive

/-- Fewer than the maximum of unexpired tokens are recorded in the process. -/
def HasRoom (p : ℕ) (s : ReplayState) : Prop :=
  (pruneExpiredReplayEntries s.now (s.caches p)).length < replayCacheMaxSize

theorem lookup_recordReplayEntry_self
    (hroom : (pruneExpiredReplayEntries now cache).length < replayCacheMaxSize) :
    (recordReplayEntry now key e cache).lookup key = some e := by
  unfold recordReplayEntry
  dsimp only
  rw [if_neg (not_le.mpr hroom), Properties.lookup_set_self]

/-- The cache of the process knows the token until it expires. -/
def Recorded (cfg : ReplayConfig) (idToken : String) (p : ℕ) (expiresAt : ℚ)
    (s : ReplayState) : Prop :=
  ∃ e, (s.caches p).lookup (cfg.replayKey idToken) = some e ∧ expiresAt ≤ e

variable {p : ℕ}

theorem Recorded.isLive (h : Recorded cfg idToken p expiresAt s)
    (hvalid : (s.now : ℚ) < expiresAt) :
    isLive s.now ((s.caches p).lookup (cfg.replayKey idToken)) = true := by
  obtain ⟨e, hkey, hlater⟩ := h
  rw [hkey]
  exact isLive_some (lt_of_lt_of_le hvalid hlater)

variable {current : ReplayCall}

theorem recorded_exchange (hroom : HasRoom p s) {look : Look} (hof : current.Of idToken (some p))
    (hlater : expiresAt ≤ look.expiresAtMs) :
    Recorded cfg idToken p expiresAt (s.exchange cfg call current look) := by
  obtain ⟨htoken, hprocess⟩ := hof
  refine ⟨look.expiresAtMs, ?_, hlater⟩
  have hcache : (s.exchange cfg call current look).caches p =
      recordReplayEntry s.now (cfg.replayKey current.idToken) look.expiresAtMs (s.caches p) :=
    if_pos (hprocess p rfl).symm
  rw [hcache, htoken]
  exact lookup_recordReplayEntry_self hroom

theorem Recorded.exchange (h : Recorded cfg idToken p expiresAt s)
    (hvalid : (s.now : ℚ) < expiresAt) {look : Look}
    (hother : current.process = p → cfg.replayKey idToken ≠ cfg.replayKey current.idToken) :
    Recorded cfg idToken p expiresAt (s.exchange cfg call current look) := by
  obtain ⟨e, hkey, hlater⟩ := h
  refine ⟨e, ?_, hlater⟩
  by_cases hprocess : p = current.process
  · have hcache : (s.exchange cfg call current look).caches p =
        recordReplayEntry s.now (cfg.replayKey current.idToken) look.expiresAtMs (s.caches p) :=
      if_pos hprocess
    rw [hcache]
    exact lookup_recordReplayEntry_of_ne hkey (lt_of_lt_of_le hvalid hlater)
      (hother hprocess.symm)
  · have hcache : (s.exchange cfg call current look).caches p = s.caches p := if_neg hprocess
    rw [hcache]
    exact hkey

/-! ## One process -/

/-- The call that a label lets through, if Redis has not refused it. -/
def ReplayLabel.letsThrough : ReplayLabel → Option ℕ
  | .answer call => some call
  | .fail call => some call
  | .skip call => some call
  | _ => none

/-- The calls of the process are let through while the cache has room. -/
def Roomy (p : ℕ) (s : ReplayState) (label : ReplayLabel) : Prop :=
  ∀ call current, label.letsThrough = some call → s.calls call = some current →
    current.process = p → HasRoom p s

/-- A call that goes on without an answer from Redis is the only one in flight for its
token, and the token has not been recorded since the call looked. -/
def Unraced (cfg : ReplayConfig) (idToken : String) (p : ℕ) (s : ReplayState)
    (label : ReplayLabel) : Prop :=
  ∀ call, label = .fail call ∨ label = .skip call → s.Has (·.Of idToken (some p)) call →
    (∀ other, other ≠ call → ¬ InFlight idToken (some p) s other) ∧
      isLive s.now ((s.caches p).lookup (cfg.replayKey idToken)) = false

/-- While the token is valid, the process has recorded it once it has been exchanged, and a
grant is covered by the key in Redis or there is nobody in flight. -/
structure LocalGrants (cfg : ReplayConfig) (idToken : String) (p : ℕ) (expiresAt : ℚ)
    (s : ReplayState) : Prop where
  looks : LooksBack cfg s
  exclusive : Exclusive idToken (some p) expiresAt s
  recorded : (s.now : ℚ) < expiresAt → ∀ call time, Exchanged idToken (some p) s call time →
    Recorded cfg idToken p expiresAt s
  covered : (s.now : ℚ) < expiresAt → ∀ call, Granted idToken (some p) s call →
    Covered cfg idToken expiresAt s ∨ ∀ other, ¬ InFlight idToken (some p) s other

theorem Granted.cases (h : Granted idToken process s call) :
    InFlight idToken process s call ∨ ∃ time, Exchanged idToken process s call time := by
  obtain ⟨current, hpresent, hof, hgranted⟩ := h
  cases hphase : current.phase with
  | looked =>
    rw [hphase] at hgranted
    cases hgranted
  | claimed => exact Or.inl ⟨current, hpresent, hof, by rw [hphase]; exact Option.some_ne_none _⟩
  | succeeded time verified => exact Or.inr ⟨time, current, hpresent, hof, verified, hphase⟩
  | refused =>
    rw [hphase] at hgranted
    cases hgranted

theorem ReplayMove.inFlight (move : ReplayMove cfg s label s')
    (h : InFlight idToken (some p) s' call) :
    InFlight idToken (some p) s call ∨
      isLive s.now ((s.caches p).lookup (cfg.replayKey idToken)) = false ∧
        ∃ env, label = .look p call env idToken := by
  have hput : ∀ {changed : ℕ} {current next : ReplayCall},
      s'.calls = (s.put changed next).calls → s.calls changed = some current →
        (next.Of idToken (some p) → current.Of idToken (some p)) →
          (next.phase.inFlight ≠ none → current.phase.inFlight ≠ none) →
            InFlight idToken (some p) s call := by
    intro changed current next hcalls hpresent hof hphase
    rcases (ReplayState.has_of_calls hcalls).mp h with ⟨rfl, hnext, hflying⟩ | ⟨_, hbefore⟩
    · exact ⟨current, hpresent, hof hnext, hphase hflying⟩
    · exact hbefore
  cases move with
  | tick | sweep => exact Or.inl h
  | turnedAway =>
    rcases ReplayState.has_put.mp h with ⟨_, _, hflying⟩ | ⟨_, hbefore⟩
    · exact absurd rfl hflying
    · exact Or.inl hbefore
  | looked _ _ env _ _ _ _ _ unknown =>
    rcases ReplayState.has_put.mp h with ⟨rfl, ⟨rfl, hprocess⟩, _⟩ | ⟨_, hbefore⟩
    · cases hprocess p rfl
      exact Or.inr ⟨unknown, env, rfl⟩
    · exact Or.inl hbefore
  | granted _ _ _ present phase | denied _ _ _ present phase =>
    exact Or.inl (hput rfl present id fun _ => by rw [phase]; exact Option.some_ne_none _)
  | refused _ _ _ present | answered _ _ _ present | unanswered _ _ _ present
  | skipped _ _ _ present => exact Or.inl (hput rfl present id fun hflying => absurd rfl hflying)

theorem ReplayMove.landed (move : ReplayMove cfg s label s')
    (hlabel : label = .fail call ∨ label = .skip call) : ¬ InFlight idToken process s' call := by
  intro hflying
  rcases hlabel with rfl | rfl
  · cases move with
    | unanswered =>
      rcases ReplayState.has_put.mp hflying with ⟨_, _, hnext⟩ | ⟨hother, _⟩
      · exact hnext rfl
      · exact hother rfl
  · cases move with
    | skipped =>
      rcases ReplayState.has_put.mp hflying with ⟨_, _, hnext⟩ | ⟨hother, _⟩
      · exact hnext rfl
      · exact hother rfl

section

variable (hexpires : ∀ exp, Expires cfg idToken exp → exp * 1000 = expiresAt)
  (hcollision : ∀ other, cfg.replayKey other = cfg.replayKey idToken → other = idToken)

include hexpires hcollision in
theorem LocalGrants.recorded_step (h : LocalGrants cfg idToken p expiresAt s)
    (hroomy : Roomy p s label) (move : ReplayMove cfg s label s') (hvalid : (s.now : ℚ) < expiresAt)
    (hexchanged : Exchanged idToken (some p) s' call time) :
    Recorded cfg idToken p expiresAt s' := by
  have hbefore : ∀ {changed : ℕ} {next : ReplayCall}, s'.calls = (s.put changed next).calls →
      (∀ verified, next.Of idToken (some p) → next.phase ≠ .succeeded time verified) →
        Recorded cfg idToken p expiresAt s := by
    intro changed next hcalls hother
    rcases (ReplayState.has_of_calls hcalls).mp hexchanged with
      ⟨_, hof, verified, hphase⟩ | ⟨_, hold⟩
    · exact absurd hphase (hother verified hof)
    · exact h.recorded hvalid call time hold
  -- the token is recorded by its own calls and left alone by the others
  have hexchange : ∀ {changed : ℕ} {current : ReplayCall} {look : Look},
      s.calls changed = some current → current.phase.inFlight = some look →
        label.letsThrough = some changed → s' = s.exchange cfg changed current look →
          Recorded cfg idToken p expiresAt s' := by
    intro changed current look hpresent hlook hlabel hs'
    by_cases hof : current.Of idToken (some p)
    · obtain ⟨hexp, _⟩ := h.looks changed current hpresent look hlook
      rw [hof.1] at hexp
      rw [hs']
      apply recorded_exchange (hroomy changed current hlabel hpresent (hof.2 p rfl)) hof
      rw [← hexpires look.exp hexp]
      exact look.le_ttl le_rfl
    · have hcalls : s'.calls = (s.put changed { current with
          phase := .succeeded s.now (extractClaims look.payload) }).calls := by
        rw [hs']
        rfl
      have hrecorded : Recorded cfg idToken p expiresAt s :=
        hbefore hcalls fun _ hof' _ => hof hof'
      rw [hs']
      refine hrecorded.exchange hvalid fun hprocess hkey => hof ⟨hcollision _ hkey.symm, ?_⟩
      rintro _ ⟨⟩
      exact hprocess
  cases move with
  | tick => exact h.recorded hvalid call time hexchanged
  | sweep _ _ pruned =>
    obtain ⟨e, hkey, hlater⟩ := h.recorded hvalid call time hexchanged
    refine ⟨e, ?_, hlater⟩
    rcases pruned p with hsame | hpruned
    · exact (congrArg (List.lookup _) hsame).trans hkey
    · exact (congrArg (List.lookup _) hpruned).trans
        (lookup_prune hkey (lt_of_lt_of_le hvalid hlater))
  | turnedAway | looked | granted | denied | refused => exact hbefore rfl fun _ _ h => by cases h
  | answered _ _ _ present phase => exact hexchange present (by rw [phase]; rfl) rfl rfl
  | unanswered _ _ _ present phase => exact hexchange present phase rfl rfl
  | skipped _ _ _ present phase => exact hexchange present (by rw [phase]; rfl) rfl rfl

theorem LocalGrants.sole_grant (h : LocalGrants cfg idToken p expiresAt s)
    (hunraced : Unraced cfg idToken p s label) (move : ReplayMove cfg s label s')
    (hvalid : (s.now : ℚ) < expiresAt) (hgranted : Granted idToken (some p) s' call)
    (hno : ¬ Granted idToken (some p) s call) (other : ℕ) : ¬ Granted idToken (some p) s other := by
  intro hother
  obtain ⟨current, hpresent, hof, hflying, hgrant⟩ := move.grant hgranted hno
  have halone : (∀ third, third ≠ call → ¬ InFlight idToken (some p) s third) ∧
      isLive s.now ((s.caches p).lookup (cfg.replayKey idToken)) = false → False := by
    rintro ⟨halone, hunknown⟩
    rcases hother.cases with hflying' | ⟨time, hexchanged⟩
    · refine halone other (fun hsame => hno ?_) hflying'
      rw [← hsame]
      exact hother
    · rw [(h.recorded hvalid other time hexchanged).isLive hvalid] at hunknown
      cases hunknown
  cases hgrant with
  | claimed free =>
    rcases h.covered hvalid other hother with hcovered | hnobody
    · rw [hof.1, hcovered.isLive hvalid] at free
      cases free
    · exact hnobody call ⟨current, hpresent, hof, hflying⟩
  | failed => exact halone (hunraced call (Or.inl rfl) ⟨current, hpresent, hof⟩)
  | skipped => exact halone (hunraced call (Or.inr rfl) ⟨current, hpresent, hof⟩)

include hexpires in
theorem LocalGrants.covered_step (h : LocalGrants cfg idToken p expiresAt s)
    (hunraced : Unraced cfg idToken p s label) (move : ReplayMove cfg s label s')
    (hvalid : (s.now : ℚ) < expiresAt) (hgranted : Granted idToken (some p) s' call) :
    Covered cfg idToken expiresAt s' ∨ ∀ other, ¬ InFlight idToken (some p) s' other := by
  by_cases hbefore : Granted idToken (some p) s call
  · rcases h.covered hvalid call hbefore with hcovered | hnobody
    · exact Or.inl (hcovered.step hvalid move)
    · refine Or.inr fun other hflying => ?_
      rcases move.inFlight hflying with hold | ⟨hunknown, _⟩
      · exact hnobody other hold
      · -- a call that has just looked would have found the record
        rcases hbefore.cases with hflying' | ⟨time, hexchanged⟩
        · exact hnobody call hflying'
        · rw [(h.recorded hvalid call time hexchanged).isLive hvalid] at hunknown
          cases hunknown
  · obtain ⟨current, hpresent, hof, _, hgrant⟩ := move.grant hgranted hbefore
    have hnobody : label = .fail call ∨ label = .skip call →
        ∀ other, ¬ InFlight idToken (some p) s' other := by
      intro hlabel other hflying
      by_cases hother : other = call
      · rw [hother] at hflying
        exact move.landed hlabel hflying
      · rcases move.inFlight hflying with hold | ⟨_, env, hlook⟩
        · exact (hunraced call hlabel ⟨current, hpresent, hof⟩).1 other hother hold
        · rw [hlook] at hlabel
          rcases hlabel with hlabel | hlabel
          · cases hlabel
          · cases hlabel
    cases hgrant with
    | claimed => exact Or.inl (move.covered_of_claim h.looks hexpires hgranted)
    | failed => exact Or.inr (hnobody (Or.inl rfl))
    | skipped => exact Or.inr (hnobody (Or.inr rfl))

include hexpires hcollision in
theorem LocalGrants.step (h : LocalGrants cfg idToken p expiresAt s)
    (hroomy : Roomy p s label) (hunraced : Unraced cfg idToken p s label)
    (move : ReplayMove cfg s label s') : LocalGrants cfg idToken p expiresAt s' where
  looks := h.looks.step move
  exclusive := by
    apply h.exclusive.step move
    intro hvalid call hgranted hno other
    exact h.sole_grant hunraced move hvalid hgranted hno other
  recorded := by
    intro hvalid call time hexchanged
    exact h.recorded_step hexpires hcollision hroomy move (move.now_lt hvalid) hexchanged
  covered := by
    intro hvalid call hgranted
    exact h.covered_step hexpires hunraced move (move.now_lt hvalid) hgranted

end

/-! ## Runs -/

/-- No call has been made yet. -/
def ReplayState.Fresh (s : ReplayState) : Prop := ∀ call, s.calls call = none

theorem ReplayState.Fresh.not_has (h : s.Fresh) {P : ReplayCall → Prop} : ¬ s.Has P call := by
  rintro ⟨current, hcall, _⟩
  rw [h call] at hcall
  cases hcall

theorem ReplayState.Fresh.looksBack (h : s.Fresh) : LooksBack cfg s := by
  intro call current hcall
  rw [h call] at hcall
  cases hcall

theorem ReplayState.Fresh.exclusive (h : s.Fresh) : Exclusive idToken process expiresAt s :=
  ⟨fun _ _ _ _ hcall => absurd hcall h.not_has, fun _ _ _ hcall => absurd hcall h.not_has⟩

theorem ReplayConfig.sha256_of_replayKey {other : String}
    (h : cfg.replayKey other = cfg.replayKey idToken) : cfg.sha256 other = cfg.sha256 idToken := by
  have hkeys : "fluxora:oidc_replay:".toList ++ (cfg.sha256 other).toList =
      "fluxora:oidc_replay:".toList ++ (cfg.sha256 idToken).toList := by
    rw [← String.toList_append, ← String.toList_append]
    exact congrArg String.toList h
  exact String.toList_inj.mp (List.append_cancel_left hkeys)

/-- Tokens that expire at a time. -/
def samplePayload (exp : ℚ) : Json :=
  .object [("exp", .number exp), ("aud", .string "client"), ("sub", .string "G1")]

/-- Every token is known, and the digest is the token. -/
def sampleReplayConfig (exp : ℚ) : ReplayConfig where
  decode _ := some ⟨some "kid", samplePayload exp⟩
  sha256 := id

def sampleProvider : ProviderEnv where
  oidcIssuerUrl := some "https://idp"
  oidcAudience := some "client"
  getJwks _ := .ok [⟨"kid", "n", "e"⟩]
  verifyWithJwk _ _ _ _ := .ok ()

/-- A look at time zero. -/
def sampleLook (exp : ℚ) : Look := ⟨exp, samplePayload exp, 0⟩

theorem replayStep_look_sample (hexp : 0 < exp) (hnow : s.now = 0) (hcache : s.caches p = [])
    (hcall : s.calls call = none) :
    replayStep (sampleReplayConfig exp) s (.look p call sampleProvider "id") =
      some (s.put call ⟨p, "id", .looked (sampleLook exp)⟩) := by
  have hphase : lookPhase (sampleReplayConfig exp) s p sampleProvider "id" =
      .looked (sampleLook exp) := by
    have hchecked : checkIdToken (sampleReplayConfig exp).decode sampleProvider "id" =
        .ok (exp, samplePayload exp) := rfl
    have httl : ¬ (sampleLook exp).ttl ≤ 0 := by
      simpa [sampleLook, Look.ttl] using hexp
    rw [lookPhase, hchecked]
    simp only [hnow, hcache]
    exact (if_neg httl).trans rfl
  simp only [replayStep, hcall, hphase]

/-- One call has looked. -/
def oneLooked (exp : ℚ) : ReplayState :=
  (ReplayState.initial 0).put 0 ⟨0, "id", .looked (sampleLook exp)⟩

theorem oneLooked_alone (label : ReplayLabel) :
    Roomy 0 (oneLooked exp) label ∧
      Unraced (sampleReplayConfig exp) "id" 0 (oneLooked exp) label := by
  apply And.intro
  · intro _ _ _ _ _
    exact show 0 < replayCacheMaxSize by decide
  · intro call _ hcall
    have hzero : call = 0 := by
      by_contra hother
      rcases ReplayState.has_put.mp hcall with ⟨hsame, _⟩ | ⟨_, _, hnone, _⟩
      · exact hother hsame
      · cases hnone
    refine ⟨fun other hother hflying => ?_, rfl⟩
    rcases ReplayState.has_put.mp hflying with ⟨hsame, _⟩ | ⟨_, _, hnone, _⟩
    · exact hother (hsame.trans hzero.symm)
    · cases hnone

/-- Redis has granted the claim of the call. -/
def oneClaimed (exp : ℚ) : ReplayState :=
  { (oneLooked exp).put 0 ⟨0, "id", .claimed (sampleLook exp) true⟩ with
    redis := fun other =>
      if other = (sampleReplayConfig exp).replayKey "id" then
        some ((oneLooked exp).now + (sampleLook exp).ttl * 1000)
      else none }

/-- Two calls have looked, in a process each. -/
def bothLooked (p q : ℕ) (exp : ℚ) : ReplayState :=
  ((ReplayState.initial 0).put 0 ⟨p, "id", .looked (sampleLook exp)⟩).put 1
    ⟨q, "id", .looked (sampleLook exp)⟩

/-- The first of them has gone on. -/
def firstExchanged (p q : ℕ) (exp : ℚ) : ReplayState :=
  (bothLooked p q exp).exchange (sampleReplayConfig exp) 0
    ⟨p, "id", .looked (sampleLook exp)⟩ (sampleLook exp)

/-- Both have gone on. -/
def bothExchanged (p q : ℕ) (exp : ℚ) : ReplayState :=
  (firstExchanged p q exp).exchange (sampleReplayConfig exp) 1
    ⟨q, "id", .looked (sampleLook exp)⟩ (sampleLook exp)

theorem reaches_bothExchanged {allowed : ReplayState → ReplayLabel → Prop} {q : ℕ} (hexp : 0 < exp)
    (unanswered : ℕ → ReplayLabel) (hgoesOn : ∀ s call process,
      s.calls call = some ⟨process, "id", .looked (sampleLook exp)⟩ →
        replayStep (sampleReplayConfig exp) s (unanswered call) =
          some (s.exchange (sampleReplayConfig exp) call
            ⟨process, "id", .looked (sampleLook exp)⟩ (sampleLook exp)))
    (hlook : ∀ s process call, allowed s (.look process call sampleProvider "id"))
    (hfirst : allowed (bothLooked p q exp) (unanswered 0))
    (hsecond : allowed (firstExchanged p q exp) (unanswered 1)) :
    Reaches (replayStep (sampleReplayConfig exp)) allowed (.initial 0)
      (bothExchanged p q exp) := by
  have hstart : Reaches (replayStep (sampleReplayConfig exp)) allowed (.initial 0)
      (.initial 0) := Reaches.refl _
  have hone := hstart.tail (hlook _ p 0) (replayStep_look_sample hexp rfl rfl rfl)
  have htwo := hone.tail (hlook _ q 1) (replayStep_look_sample hexp rfl rfl rfl)
  have hthree := htwo.tail hfirst (hgoesOn (bothLooked p q exp) 0 p rfl)
  exact hthree.tail hsecond (hgoesOn (firstExchanged p q exp) 1 q rfl)

theorem not_exchangedOnce_bothExchanged {q : ℕ} (hexp : 0 < exp) (hp : ∀ x ∈ process, p = x)
    (hq : ∀ x ∈ process, q = x) :
    ¬ ExchangedOnce "id" process (sampleReplayConfig exp) (bothExchanged p q exp) := by
  intro honce
  have hvalid : ((0 : ℕ) : ℚ) < exp * 1000 := by
    have hpos : 0 < exp * 1000 := by positivity
    exact_mod_cast hpos
  have hsame := honce exp ⟨"kid", samplePayload exp, rfl⟩ 0 1 0 0
    ⟨_, rfl, ⟨rfl, hp⟩, _, rfl⟩ ⟨_, rfl, ⟨rfl, hq⟩, _, rfl⟩ hvalid hvalid
  cases hsame

end Fluxora.Auth
