/-
# The half-open breaker

A breaker whose time has passed is to let one call through, and what becomes of that call
decides. But a half-open breaker admits every call; a probe that fails is counted like any
other failure, and the count may have been dropped meanwhile; and a call that was admitted
before the breaker opened closes it by its success.
-/

import Fluxora.Lib.Split
import Fluxora.Rpc.CircuitBreaker

namespace Fluxora.Rpc

open Lib.Transition

namespace RpcState

variable {opts : CircuitBreakerOptions} {s s' : RpcState} {label : RpcLabel}

/-! ## The rule -/

structure HalfOpenRule (opts : CircuitBreakerOptions) (s : RpcState) (label : RpcLabel)
    (s' : RpcState) : Prop where
  /-- While the breaker is half open it has admitted one call at most. -/
  oneProbe : s'.breaker.state = .halfOpen → s'.probes ≤ 1
  /-- The breaker is open when its probe has failed, for another reset time. -/
  reopens : ∀ i now call, label = .fail i now → s.calls[i]? = some call → s.IsProbe call →
    s'.breaker.state = .opened ∧
      ∀ time, now ≤ time → time < now + opts.resetTimeoutMs → s'.breaker.Refuses opts time
  /-- Calls that start within the reset time after the failure of a probe are refused. -/
  refuses : ∀ now time, label = .start now → s.probeFailed = some time →
    now < time + opts.resetTimeoutMs → s.breaker.Refuses opts now
  /-- It is closed by the success of a call that was admitted after it opened. -/
  closes : s.breaker.state ≠ .closed → s'.breaker.state = .closed →
    ∃ i now call, label = .succeed i now ∧ s.calls[i]? = some call ∧ call.openings = s.openings

/-- No call starts while the breaker is half open; when its probe fails, the failures that the
breaker has kept reach the threshold with this one; and while the breaker is not closed, no
call succeeds that was admitted before it opened. -/
def KeepsToProbe (opts : CircuitBreakerOptions) (s : RpcState) : RpcLabel → Prop
  | .start _ => s.breaker.state ≠ .halfOpen
  | .fail i _ => ∀ call, s.calls[i]? = some call → s.IsProbe call →
      opts.failureThreshold ≤ s.breaker.failures.length + 1
  | .succeed i _ => s.breaker.state ≠ .closed →
      ∀ call, s.calls[i]? = some call → call.openings = s.openings

/-! ## The invariant -/

/-- The calls that were admitted since the breaker was opened for the n-th time. -/
def ofOpening (n : ℕ) (calls : List RpcCall) : List RpcCall :=
  calls.filter fun call => call.openings = n

/-- What holds as long as the rule has been kept. -/
structure Probing (opts : CircuitBreakerOptions) (s : RpcState) : Prop where
  past : ∀ call ∈ s.calls, call.openings ≤ s.openings
  opened : s.breaker.state = .opened → s.probes = 0 ∧ ofOpening s.openings s.calls = []
  halfOpen : s.breaker.state = .halfOpen →
    s.probes = 1 ∧ (ofOpening s.openings s.calls).length ≤ 1
  closed : s.breaker.state = .closed → ∀ call ∈ s.calls, ¬ s.IsProbe call
  openedAt : s.breaker.openedAt ≤ s.clock
  failed : ∀ time, s.probeFailed = some time →
    s.breaker.state = .opened ∧ time ≤ s.breaker.openedAt ∨
      time + opts.resetTimeoutMs ≤ s.clock

theorem probing_start : Probing opts {} :=
  ⟨nofun, nofun, nofun, nofun, le_rfl, nofun⟩

variable {calls : List RpcCall}

theorem mem_ofOpening {n : ℕ} {call : RpcCall} :
    call ∈ ofOpening n calls ↔ call ∈ calls ∧ call.openings = n := by
  rw [ofOpening, List.mem_filter, decide_eq_true_iff]

theorem Probing.not_current (hprobing : Probing opts s) (hopened : s.breaker.state = .opened)
    {call : RpcCall} (hcall : call ∈ s.calls) : call.openings ≠ s.openings := by
  intro hcurrent
  have hmem := mem_ofOpening.mpr ⟨hcall, hcurrent⟩
  rw [(hprobing.opened hopened).2] at hmem
  exact List.not_mem_nil hmem

theorem Probing.none_next (hprobing : Probing opts s) :
    ofOpening (s.openings + 1) s.calls = [] := by
  refine List.filter_eq_nil_iff.mpr fun call hcall hnext => ?_
  have hpast := hprobing.past call hcall
  rw [decide_eq_true_iff] at hnext
  omega

theorem ofOpening_eraseIdx {n i : ℕ} {call : RpcCall} (hcall : calls[i]? = some call)
    (hcurrent : call.openings = n) (hone : (ofOpening n calls).length ≤ 1) :
    ofOpening n (calls.eraseIdx i) = [] := by
  obtain ⟨before, after, rfl, rfl⟩ := Lib.Split.exists_split hcall
  rw [Lib.Split.eraseIdx_split]
  rw [ofOpening, List.filter_append, List.filter_cons, if_pos (decide_eq_true hcurrent),
    List.length_append, List.length_cons] at hone
  rw [ofOpening, List.filter_append, List.append_eq_nil_iff, ← List.length_eq_zero_iff,
    ← List.length_eq_zero_iff]
  omega

/-! ## A call starts -/

theorem start_calls (now : ℤ) :
    (s.start opts now).calls = if (s.breaker.callStart opts now).2 = true then
      s.calls ++ [⟨s.openings, (s.breaker.callStart opts now).1.state = .halfOpen⟩]
    else s.calls := rfl

theorem start_probes (now : ℤ) :
    (s.start opts now).probes = if ((s.breaker.callStart opts now).2 &&
      (s.breaker.callStart opts now).1.state = .halfOpen) = true then s.probes + 1
    else s.probes := rfl

theorem start_of_not_opened (opts : CircuitBreakerOptions) (now : ℤ)
    (hstate : s.breaker.state ≠ .opened) :
    (s.start opts now).breaker.state = s.breaker.state ∧
      (s.start opts now).calls =
        s.calls ++ [⟨s.openings, decide (s.breaker.state = .halfOpen)⟩] ∧
      (s.start opts now).probes =
        if s.breaker.state = .halfOpen then s.probes + 1 else s.probes := by
  obtain ⟨hadmitted, hkept⟩ :=
    CircuitBreaker.callStart_of_not_opened opts now hstate
  refine ⟨hkept, ?_, ?_⟩
  · rw [start_calls, hadmitted, hkept, if_pos rfl]
  · rw [start_probes, hadmitted, hkept, Bool.true_and]
    simp only [decide_eq_true_eq]

theorem start_of_opened (opts : CircuitBreakerOptions) (now : ℤ)
    (hstate : s.breaker.state = .opened) :
    (now - s.breaker.openedAt < opts.resetTimeoutMs ∧ s.breaker.Refuses opts now ∧
        (s.start opts now).breaker.state = .opened ∧ (s.start opts now).calls = s.calls ∧
        (s.start opts now).probes = s.probes) ∨
      (opts.resetTimeoutMs ≤ now - s.breaker.openedAt ∧
        (s.start opts now).breaker.state = .halfOpen ∧
        (s.start opts now).calls = s.calls ++ [⟨s.openings, true⟩] ∧
        (s.start opts now).probes = s.probes + 1) := by
  rcases CircuitBreaker.callStart_of_opened opts now hstate with
    ⟨hearly, hrefuses, hkept⟩ | ⟨hlate, hadmitted, hhalf⟩
  · have hnot : (s.breaker.callStart opts now).2 = false := hrefuses
    refine Or.inl ⟨hearly, hrefuses, hkept, ?_, ?_⟩
    · rw [start_calls, hnot, if_neg Bool.false_ne_true]
    · rw [start_probes, hnot, Bool.false_and, if_neg Bool.false_ne_true]
  · refine Or.inr ⟨hlate, hhalf, ?_, ?_⟩
    · rw [start_calls, hadmitted, hhalf, if_pos rfl, decide_eq_true rfl]
    · rw [start_probes, hadmitted, hhalf, Bool.true_and, decide_eq_true rfl, if_pos rfl]

theorem Probing.start_rule (hprobing : Probing opts s) {now : ℤ} (hclock : s.clock ≤ now) :
    HalfOpenRule opts s (.start now) (s.start opts now) ↔ s.breaker.state ≠ .halfOpen := by
  apply Iff.intro
  · intro hrule hhalf
    obtain ⟨hstate, -, hprobes⟩ :=
      start_of_not_opened opts now (by rw [hhalf]; decide)
    have hone := hrule.oneProbe (hstate.trans hhalf)
    rw [hprobes, if_pos hhalf, (hprobing.halfOpen hhalf).1] at hone
    omega
  · intro hnot
    refine ⟨?_, nofun, ?_, ?_⟩
    · intro hhalf
      by_cases hopened : s.breaker.state = .opened
      · rcases start_of_opened opts now hopened with
          ⟨-, -, hstate, -⟩ | ⟨-, -, -, hprobes⟩
        · exact absurd (hstate.symm.trans hhalf) (by decide)
        · exact Nat.le_of_eq (hprobes.trans (congrArg (· + 1) (hprobing.opened hopened).1))
      · exact absurd ((start_of_not_opened opts now hopened).1.symm.trans hhalf) hnot
    · rintro time t hlabel hfailed hearly
      cases hlabel
      rcases hprobing.failed t hfailed with ⟨hopened, hbefore⟩ | hover
      · rcases start_of_opened opts now hopened with
          ⟨-, hrefuses, -⟩ | ⟨hlate, -⟩
        · exact hrefuses
        · omega
      · omega
    · intro hstate hclosed
      by_cases hopened : s.breaker.state = .opened
      · rcases start_of_opened opts now hopened with
          ⟨-, -, hkept, -⟩ | ⟨-, hhalf, -⟩
        · exact absurd (hkept.symm.trans hclosed) (by decide)
        · exact absurd (hhalf.symm.trans hclosed) (by decide)
      · exact absurd ((start_of_not_opened opts now hopened).1.symm.trans hclosed) hstate

theorem Probing.start (hprobing : Probing opts s) {now : ℤ} (hclock : s.clock ≤ now)
    (hkeeps : s.breaker.state ≠ .halfOpen) : Probing opts (s.start opts now) := by
  have hpast : ∀ call ∈ (s.start opts now).calls, call.openings ≤ s.openings := by
    intro call hcall
    rw [start_calls] at hcall
    split_ifs at hcall
    · rcases List.mem_append.mp hcall with hold | hnew
      · exact hprobing.past call hold
      · cases List.mem_singleton.mp hnew
        exact Nat.le_refl s.openings
    · exact hprobing.past call hcall
  have hopenedAt : (s.start opts now).breaker.openedAt = s.breaker.openedAt :=
    CircuitBreaker.callStart_openedAt
  have hbefore : (s.start opts now).breaker.openedAt ≤ now := by
    rw [hopenedAt]
    exact le_trans hprobing.openedAt hclock
  by_cases hopened : s.breaker.state = .opened
  · obtain ⟨hprobes, hcurrent⟩ := hprobing.opened hopened
    rcases start_of_opened opts now hopened with
      ⟨hearly, -, hstate, hcalls, hsame⟩ | ⟨hlate, hstate, hcalls, hmore⟩
    · refine ⟨hpast, fun _ => ?_, ?_, ?_, hbefore, ?_⟩
      · rw [hcalls, hsame]
        exact ⟨hprobes, hcurrent⟩
      · exact fun hhalf => absurd (hstate.symm.trans hhalf) (by decide)
      · exact fun hclosed => absurd (hstate.symm.trans hclosed) (by decide)
      · intro time hfailed
        rcases hprobing.failed time hfailed with ⟨-, htime⟩ | hover
        · exact Or.inl ⟨hstate, hopenedAt ▸ htime⟩
        · exact Or.inr (le_trans hover hclock)
    · refine ⟨hpast, ?_, fun _ => ⟨?_, ?_⟩, ?_, hbefore, ?_⟩
      · exact fun hstill => absurd (hstate.symm.trans hstill) (by decide)
      · rw [hmore, hprobes]
      · change (ofOpening s.openings (s.start opts now).calls).length ≤ 1
        rw [hcalls, ofOpening, List.filter_append]
        change (ofOpening s.openings s.calls ++ _).length ≤ 1
        rw [hcurrent]
        exact List.length_filter_le _ _
      · exact fun hclosed => absurd (hstate.symm.trans hclosed) (by decide)
      · intro time hfailed
        refine Or.inr ?_
        change time + opts.resetTimeoutMs ≤ now
        rcases hprobing.failed time hfailed with ⟨-, htime⟩ | hover
        · omega
        · exact le_trans hover hclock
  · have hclosed : s.breaker.state = .closed := by
      cases hstate : s.breaker.state with
      | closed => rfl
      | opened => exact absurd hstate hopened
      | halfOpen => exact absurd hstate hkeeps
    obtain ⟨hstate, hcalls, -⟩ := start_of_not_opened opts now hopened
    rw [hclosed] at hstate hcalls
    refine ⟨hpast, ?_, ?_, fun _ call hcall hprobe => ?_, hbefore, ?_⟩
    · exact fun hstill => absurd (hstate.symm.trans hstill) (by decide)
    · exact fun hhalf => absurd (hstate.symm.trans hhalf) (by decide)
    · rw [hcalls] at hcall
      rcases List.mem_append.mp hcall with hold | hnew
      · exact hprobing.closed hclosed call hold hprobe
      · cases List.mem_singleton.mp hnew
        exact absurd hprobe.1 Bool.false_ne_true
    · intro time hfailed
      rcases hprobing.failed time hfailed with ⟨hnot, -⟩ | hover
      · exact absurd hnot hopened
      · exact Or.inr (le_trans hover hclock)

/-! ## A call succeeds -/

theorem succeed_rule {i : ℕ} {now : ℤ} {call : RpcCall} (hcall : s.calls[i]? = some call) :
    HalfOpenRule opts s (.succeed i now) (s.succeed i now) ↔
      (s.breaker.state ≠ .closed → call.openings = s.openings) := by
  apply Iff.intro
  · intro hrule hnot
    obtain ⟨j, time, other, hlabel, hother, hcurrent⟩ := hrule.closes hnot rfl
    cases hlabel
    rw [hcall] at hother
    cases hother
    exact hcurrent
  · intro hcurrent
    exact ⟨nofun, nofun, nofun, fun hnot _ => ⟨i, now, call, rfl, hcall, hcurrent hnot⟩⟩

theorem Probing.succeed (hprobing : Probing opts s) {i : ℕ} {now : ℤ} {call : RpcCall}
    (hclock : s.clock ≤ now) (hcall : s.calls[i]? = some call)
    (hcurrent : s.breaker.state ≠ .closed → call.openings = s.openings) :
    Probing opts (s.succeed i now) := by
  refine ⟨?_, nofun, nofun, ?_, le_trans hprobing.openedAt hclock, nofun⟩
  · exact fun other hother => hprobing.past other (List.mem_of_mem_eraseIdx hother)
  · intro _ other hother hprobe
    have hmem : other ∈ s.calls := List.mem_of_mem_eraseIdx hother
    cases hstate : s.breaker.state with
    | closed => exact hprobing.closed hstate other hmem hprobe
    | opened => exact hprobing.not_current hstate hmem hprobe.2
    | halfOpen =>
      have hnone := ofOpening_eraseIdx hcall (hcurrent (by rw [hstate]; decide))
        (hprobing.halfOpen hstate).2
      have hleft := mem_ofOpening.mpr ⟨hother, hprobe.2⟩
      rw [show (s.succeed i now).openings = s.openings from rfl,
        show (s.succeed i now).calls = s.calls.eraseIdx i from rfl, hnone] at hleft
      exact List.not_mem_nil hleft

/-! ## A call fails -/

variable {i : ℕ} {now : ℤ} {call : RpcCall}

theorem fail_trips (i : ℕ) (call : RpcCall) (now : ℤ)
    (htrips : opts.failureThreshold ≤ s.breaker.failures.length + 1) :
    (s.fail opts i call now).breaker = ⟨.opened, s.breaker.failures ++ [now], now⟩ ∧
      (s.fail opts i call now).openings =
        (if s.breaker.state ≠ .opened then s.openings + 1 else s.openings) ∧
      (s.fail opts i call now).probes = 0 := by
  have hbreaker := CircuitBreaker.onFailure_trips now htrips
  refine ⟨hbreaker, ?_, ?_⟩
  · rw [fail, hbreaker]
    simp only [and_true]
  · rw [fail, hbreaker]
    rfl

theorem fail_counts (i : ℕ) (call : RpcCall) (now : ℤ)
    (hcounts : ¬ opts.failureThreshold ≤ s.breaker.failures.length + 1) :
    (s.fail opts i call now).breaker.state = s.breaker.state ∧
      (s.fail opts i call now).breaker.openedAt = s.breaker.openedAt ∧
      (s.fail opts i call now).openings = s.openings ∧
      (s.fail opts i call now).probes =
        if s.breaker.state = .halfOpen then s.probes else 0 := by
  have hbreaker := CircuitBreaker.onFailure_counts now hcounts
  refine ⟨?_, ?_, ?_, ?_⟩
  · rw [fail, hbreaker]
  · rw [fail, hbreaker]
  · rw [fail, hbreaker]
    exact if_neg fun hopens => hopens.1 hopens.2
  · rw [fail, hbreaker]

theorem Probing.fail_rule (hprobing : Probing opts s) (hcall : s.calls[i]? = some call) :
    HalfOpenRule opts s (.fail i now) (s.fail opts i call now) ↔
      (s.IsProbe call → opts.failureThreshold ≤ s.breaker.failures.length + 1) := by
  apply Iff.intro
  · intro hrule hprobe
    have hopened := (hrule.reopens i now call rfl hcall hprobe).1
    by_contra hcounts
    rw [(fail_counts i call now hcounts).1] at hopened
    exact hprobing.not_current hopened (List.mem_of_getElem? hcall) hprobe.2
  · intro htrips
    refine ⟨?_, ?_, nofun, ?_⟩
    · intro hhalf
      by_cases hcount : opts.failureThreshold ≤ s.breaker.failures.length + 1
      · rw [(fail_trips i call now hcount).1] at hhalf
        cases hhalf
      · obtain ⟨hstate, -, -, hprobes⟩ :=
          fail_counts i call now hcount
        rw [hstate] at hhalf
        rw [hprobes, if_pos hhalf]
        exact Nat.le_of_eq (hprobing.halfOpen hhalf).1
    · rintro j t other hlabel hother hprobe
      cases hlabel
      rw [hcall] at hother
      cases hother
      rw [(fail_trips i call now (htrips hprobe)).1]
      refine ⟨rfl, fun time hfrom huntil => ?_⟩
      rcases CircuitBreaker.callStart_of_opened opts time
        (show (CircuitBreaker.mk .opened (s.breaker.failures ++ [now]) now).state = .opened
          from rfl) with
        ⟨-, hrefuses, -⟩ | ⟨hlate, -⟩
      · exact hrefuses
      · change (opts.resetTimeoutMs : ℤ) ≤ time - now at hlate
        omega
    · intro hnot hclosed
      by_cases hcount : opts.failureThreshold ≤ s.breaker.failures.length + 1
      · rw [(fail_trips i call now hcount).1] at hclosed
        cases hclosed
      · exact absurd ((fail_counts i call now hcount).1.symm.trans hclosed) hnot

theorem Probing.failed_le (hprobing : Probing opts s) (hclock : s.clock ≤ now) {time : ℤ}
    (hfailed : s.probeFailed = some time) : time ≤ now := by
  have hopenedAt := hprobing.openedAt
  rcases hprobing.failed time hfailed with ⟨-, hbefore⟩ | hover
  · omega
  · omega

theorem Probing.fail (hprobing : Probing opts s) (hclock : s.clock ≤ now)
    (htrips : s.IsProbe call → opts.failureThreshold ≤ s.breaker.failures.length + 1) :
    Probing opts (s.fail opts i call now) := by
  have hmem : ∀ other ∈ s.calls.eraseIdx i, other ∈ s.calls :=
    fun other => List.mem_of_mem_eraseIdx
  have hfewer : ∀ n, (ofOpening n (s.calls.eraseIdx i)).Sublist (ofOpening n s.calls) :=
    fun n => (List.eraseIdx_sublist s.calls i).filter _
  by_cases hcount : opts.failureThreshold ≤ s.breaker.failures.length + 1
  · obtain ⟨hbreaker, hopenings, hprobes⟩ :=
      fail_trips i call now hcount
    have hnone : ofOpening (s.fail opts i call now).openings (s.calls.eraseIdx i) = [] := by
      rw [hopenings]
      split_ifs with hopened
      · exact List.sublist_nil.mp (hprobing.none_next ▸ hfewer _)
      · exact List.sublist_nil.mp ((hprobing.opened (not_not.mp hopened)).2 ▸ hfewer _)
    refine ⟨?_, fun _ => ⟨hprobes, hnone⟩, ?_, ?_, ?_, ?_⟩
    · intro other hother
      have hpast := hprobing.past other (hmem other hother)
      rw [hopenings]
      split_ifs <;> omega
    · rw [hbreaker]
      exact nofun
    · rw [hbreaker]
      exact nofun
    · rw [hbreaker]
      exact le_rfl
    · intro time hfailed
      rw [hbreaker]
      refine Or.inl ⟨rfl, ?_⟩
      change (if s.IsProbe call then some now else s.probeFailed) = some time at hfailed
      split_ifs at hfailed
      · cases hfailed
        exact le_rfl
      · exact hprobing.failed_le hclock hfailed
  · obtain ⟨hstate, hopenedAt, hopenings, hprobes⟩ :=
      fail_counts i call now hcount
    have hnot : ¬ s.IsProbe call := fun hprobe => hcount (htrips hprobe)
    refine ⟨?_, ?_, ?_, ?_, ?_, ?_⟩
    · intro other hother
      rw [hopenings]
      exact hprobing.past other (hmem other hother)
    · rw [hstate, hopenings, hprobes]
      intro hopened
      rw [if_neg (by rw [hopened]; decide)]
      exact ⟨rfl, List.sublist_nil.mp ((hprobing.opened hopened).2 ▸ hfewer _)⟩
    · rw [hstate, hopenings, hprobes]
      intro hhalf
      rw [if_pos hhalf]
      exact ⟨(hprobing.halfOpen hhalf).1,
        Nat.le_trans (hfewer _).length_le (hprobing.halfOpen hhalf).2⟩
    · rw [hstate]
      intro hclosed other hother hprobe
      refine hprobing.closed hclosed other (hmem other hother) ⟨hprobe.1, ?_⟩
      rw [← hopenings]
      exact hprobe.2
    · rw [hopenedAt]
      exact le_trans hprobing.openedAt hclock
    · intro time hfailed
      change (if s.IsProbe call then some now else s.probeFailed) = some time at hfailed
      rw [if_neg hnot] at hfailed
      rw [hstate, hopenedAt]
      exact (hprobing.failed time hfailed).imp_right fun hover => le_trans hover hclock

/-! ## Runs -/

theorem Probing.rule_iff (hprobing : Probing opts s) (hstep : s.step opts label = some s') :
    HalfOpenRule opts s label s' ↔ KeepsToProbe opts s label := by
  obtain ⟨hclock, heffect⟩ := effect hstep
  cases heffect with
  | starts => exact hprobing.start_rule hclock
  | succeeds _ _ call hcall =>
    rw [succeed_rule hcall, KeepsToProbe]
    exact forall_congr' fun _ => ⟨fun h other hother => by
      rw [hcall] at hother
      cases hother
      exact h, fun h => h call hcall⟩
  | fails _ _ call hcall =>
    rw [hprobing.fail_rule hcall, KeepsToProbe]
    exact ⟨fun h other hother => by
      rw [hcall] at hother
      cases hother
      exact h, fun h => h call hcall⟩

theorem Probing.step (hprobing : Probing opts s) (hstep : s.step opts label = some s')
    (hkeeps : KeepsToProbe opts s label) : Probing opts s' := by
  obtain ⟨hclock, heffect⟩ := effect hstep
  cases heffect with
  | starts => exact hprobing.start hclock hkeeps
  | succeeds _ _ call hcall =>
    exact hprobing.succeed hclock hcall fun hnot => hkeeps hnot call hcall
  | fails _ _ call hcall => exact hprobing.fail hclock (hkeeps call hcall)

/-- **Half-open rule.** Along a run of overlapping calls the breaker keeps the rule just if no
call starts while it is half open, every failure of a probe completes a count that reaches the
threshold, and no call admitted before the breaker opened succeeds before it is closed. -/
theorem halfOpen_iff (opts : CircuitBreakerOptions) (labels : List RpcLabel) :
    EveryStep (RpcState.step opts) (HalfOpenRule opts) {} labels ↔
      EveryStep (RpcState.step opts) (fun s label _ => KeepsToProbe opts s label) {} labels := by
  apply Iff.intro
  · refine EveryStep.imp (Probing opts) ?_ probing_start
    intro s label s' hprobing hstep hrule
    have hkeeps := (hprobing.rule_iff hstep).mp hrule
    exact ⟨hkeeps, hprobing.step hstep hkeeps⟩
  · refine EveryStep.imp (Probing opts) ?_ probing_start
    exact fun s label s' hprobing hstep hkeeps =>
      ⟨(hprobing.rule_iff hstep).mpr hkeeps, hprobing.step hstep hkeeps⟩

end RpcState

/-- With the default options the failures that opened the breaker have left the window when
its probe starts. The probe fails, is counted as the first failure, and the breaker stays half
open. -/
theorem halfOpen_fails :
    ¬ ∀ labels : List RpcLabel,
      EveryStep (RpcState.step {}) (RpcState.HalfOpenRule {}) {} labels := by
  intro h
  have hevery := h (List.replicate 5 (.start 0) ++ List.replicate 5 (.fail 0 0) ++
    [.start 60000] ++ [.fail 0 60000])
  have hrule := (EveryStep.of_run rfl hevery _ rfl).1
  exact absurd (hrule.reopens 0 60000 ⟨1, true⟩ rfl rfl ⟨rfl, rfl⟩).1 (by decide)

end Fluxora.Rpc
