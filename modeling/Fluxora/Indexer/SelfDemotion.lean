/-
# Self-demotion

A leader that is cut off from Redis is to give leadership up by itself. The guard of a heartbeat
compares its clock with that of the heartbeat before, and the heartbeat before counts also when
it failed: as long as ticks keep coming and failing, no tick finds more than a lease behind it.

A run keeps, for each instance, when it last took or renewed the lease, and which of its ticks
came more than a lease after that.
-/

import Fluxora.Indexer.LeaderElection

namespace Fluxora.Indexer

open Lib Lib.Transition

/-! ## When a lease was last renewed -/

/-- What is known of the renewals of an instance. -/
structure RenewalRecord where
  /-- The instance's clock when it last took the lease or renewed it. -/
  lastSuccess : ℤ := 0
  /-- The ticks under way that began more than a lease after that. -/
  overdue : List ℕ := []
  /-- Such a tick is behind the instance, and leadership was not given anew since. -/
  expired : Bool := false

/-- Time that has passed, a clock that went back counts as no time. -/
def elapsedMs (since now : ℤ) : ℤ := if since ≤ now then now - since else 0

namespace RenewalRecord

variable (r : RenewalRecord)

/-- A tick begins as an operation; one that is overdue is over at once when it sends nothing, and
one that is still unanswered is behind the instance now. -/
def ticked (i : ℕ) (late sends : Bool) : RenewalRecord :=
  { r with
    overdue := if late && sends then i :: r.overdue else r.overdue
    expired := r.expired || !r.overdue.isEmpty || (late && !sends) }

/-- An operation is over. -/
def ended (i : ℕ) : RenewalRecord :=
  { r with
    overdue := r.overdue.filter (· ≠ i)
    expired := r.expired || r.overdue.contains i }

/-- An operation goes on with a reply, and may send the next command. Where the lease is found to
be held already, leadership starts again only if there was no heartbeat. Deleting the lease ends
a release, which is no tick. -/
def resumed (i : ℕ) (now : ℤ) (heartbeat sends : Bool) : ElectionReply → RenewalRecord
  | .incr _ _ => { lastSuccess := now }
  | .fence _ _ => if heartbeat then { r with expired := false } else { lastSuccess := now }
  | .peexpire true => { lastSuccess := now, expired := r.overdue.contains i }
  | .del => r
  | _ => if sends then r else r.ended i

end RenewalRecord

structure DemotionRun where
  world : ElectionWorld
  records : ℕ → RenewalRecord := fun _ => {}

namespace DemotionRun

variable (leaseMs : ℕ → ℕ) (r : DemotionRun)

/-- The records after a step from this world. -/
def recordsAfter : ElectionStep → ℕ → RenewalRecord
  | .renew caller now =>
    Function.update r.records caller ((r.records caller).ticked r.world.calls.length
      (leaseMs caller < elapsedMs (r.records caller).lastSuccess now)
      ((r.world.instances caller).renew (leaseMs caller) now).2.isSome)
  | .resume i now =>
    match r.world.calls[i]? with
    | some { caller, method, progress := .answered reply } =>
      let e := r.world.instances caller
      Function.update r.records caller ((r.records caller).resumed i now e.heartbeat
        (e.resume caller method now reply).2.isSome reply)
    | _ => r.records
  | .fail i =>
    match r.world.calls[i]? with
    | some call => Function.update r.records call.caller ((r.records call.caller).ended i)
    | none => r.records
  | _ => r.records

def step (label : ElectionStep) : Option DemotionRun :=
  (r.world.step leaseMs label).map fun w' => ⟨w', r.recordsAfter leaseMs label⟩

def init (clock : ℤ) (fence : ℕ) : DemotionRun := { world := .init clock fence }

/-- An instance whose last tick came more than a lease after its last success is not leader. -/
def Demoted : Prop :=
  ∀ caller, (r.records caller).expired = true → (r.world.instances caller).isLeader = false

/-- An overdue tick of a leader does not fail, nor extends the lease after all, nor waits for an
answer when the next tick comes within a lease. -/
def LosesOverdue : ElectionStep → Prop
  | .renew caller now =>
    (r.records caller).overdue ≠ [] → (r.world.instances caller).isLeader = true →
      leaseMs caller < elapsedMs (r.world.instances caller).lastRenewAttemptMs now
  | .resume i _ => ∀ call ∈ r.world.calls[i]?, call.progress = .answered (.peexpire true) →
      i ∈ (r.records call.caller).overdue → (r.world.instances call.caller).isLeader = false
  | .fail i => ∀ call ∈ r.world.calls[i]?, i ∈ (r.records call.caller).overdue →
      (r.world.instances call.caller).isLeader = false
  | _ => True

end DemotionRun

/-! ## Overdue ticks -/

namespace RenewalRecord

variable {r : RenewalRecord} {i j : ℕ}

theorem mem_overdue_ticked {late sends : Bool} (h : j ∈ (r.ticked i late sends).overdue) :
    j = i ∧ sends = true ∨ j ∈ r.overdue := by
  rw [ticked] at h
  dsimp only at h
  split_ifs at h with hsent
  · rcases List.mem_cons.mp h with hnew | hold
    · exact .inl ⟨hnew, (Bool.and_eq_true_iff.mp hsent).2⟩
    · exact .inr hold
  · exact .inr h

theorem mem_overdue_ended (h : j ∈ (r.ended i).overdue) : j ∈ r.overdue :=
  (List.mem_filter.mp h).1

theorem mem_overdue_resumed {now : ℤ} {heartbeat sends : Bool} {reply : ElectionReply}
    (h : j ∈ (r.resumed i now heartbeat sends reply).overdue) : j ∈ r.overdue := by
  have hrest : j ∈ (if sends then r else r.ended i).overdue → j ∈ r.overdue := by
    intro hmem
    split_ifs at hmem
    · exact hmem
    · exact mem_overdue_ended hmem
  cases reply with
  | incr => cases h
  | fence =>
    rw [resumed] at h
    split_ifs at h
    · exact h
    · cases h
  | peexpire renewed =>
    cases renewed with
    | true => cases h
    | false => exact hrest h
  | setNx | leader => exact hrest h
  | del => exact h

end RenewalRecord

namespace DemotionRun

variable {leaseMs : ℕ → ℕ} {r r' : DemotionRun} {w' : ElectionWorld} {i : ℕ}
  {record : RenewalRecord} {e : RedisIndexerLeaderElection}

/-- Overdue operations are heartbeats of the instance. -/
def OverdueTicks (r : DemotionRun) : Prop :=
  ∀ caller, ∀ i ∈ (r.records caller).overdue,
    ∃ call, r.world.calls[i]? = some call ∧ call.caller = caller ∧ call.method = .renew

/-- Operations stay in the list, with their instance and method. -/
def KeepsCalls (w w' : ElectionWorld) : Prop :=
  ∀ (i : ℕ) (call : ElectionCall), w.calls[i]? = some call →
    ∃ call', w'.calls[i]? = some call' ∧ call'.caller = call.caller ∧ call'.method = call.method

variable {w : ElectionWorld}

theorem keepsCalls_append {new : List ElectionCall} (hcalls : w'.calls = w.calls ++ new) :
    KeepsCalls w w' := by
  intro i call hcall
  have hlt : i < w.calls.length := (List.getElem?_eq_some_iff.mp hcall).1
  exact ⟨call, by rw [hcalls, List.getElem?_append_left hlt, hcall], rfl, rfl⟩

theorem keepsCalls_set {call : ElectionCall} {progress : ElectionProgress}
    (hcall : w.calls[i]? = some call)
    (hcalls : w'.calls = w.calls.set i { call with progress := progress }) : KeepsCalls w w' := by
  intro j other hother
  rw [hcalls, List.getElem?_set]
  split_ifs with hij hlt
  · subst hij
    rw [hcall] at hother
    cases hother
    exact ⟨_, rfl, rfl, rfl⟩
  · exact absurd (List.getElem?_eq_some_iff.mp hother).1 (hij ▸ hlt)
  · exact ⟨other, hother, rfl, rfl⟩

theorem OverdueTicks.mono (h : r.OverdueTicks) (hcalls : KeepsCalls r.world w')
    {records : ℕ → RenewalRecord}
    (hmem : ∀ caller, ∀ i ∈ (records caller).overdue, i ∈ (r.records caller).overdue) :
    OverdueTicks ⟨w', records⟩ := by
  intro caller i hi
  obtain ⟨call, hcall, hcaller, hmethod⟩ := h caller i (hmem caller i hi)
  obtain ⟨call', hcall', hcaller', hmethod'⟩ := hcalls i call hcall
  exact ⟨call', hcall', hcaller'.trans hcaller, hmethod'.trans hmethod⟩

variable {caller : ℕ}

theorem OverdueTicks.update (h : r.OverdueTicks) (hcalls : KeepsCalls r.world w')
    (hmem : ∀ i ∈ record.overdue, i ∈ (r.records caller).overdue) :
    OverdueTicks ⟨w', Function.update r.records caller record⟩ := by
  apply h.mono hcalls
  intro other j hj
  rw [Function.update_apply] at hj
  split_ifs at hj with hother
  · exact hother ▸ hmem j hj
  · exact hj

theorem OverdueTicks.renew (h : r.OverdueTicks) {late : Bool}
    {begun : RedisIndexerLeaderElection × Option ElectionCommand} :
    OverdueTicks ⟨r.world.start caller .renew begun, Function.update r.records caller
      ((r.records caller).ticked r.world.calls.length late begun.2.isSome)⟩ := by
  have hcalls : KeepsCalls r.world (r.world.start caller .renew begun) := keepsCalls_append rfl
  intro other j hj
  dsimp only at hj ⊢
  rw [Function.update_apply] at hj
  split_ifs at hj with hother
  · rcases RenewalRecord.mem_overdue_ticked hj with ⟨hnew, -⟩ | hold
    · refine ⟨⟨caller, .renew, .next begun.2⟩, ?_, hother.symm, rfl⟩
      rw [hnew]
      exact List.getElem?_concat_length
    · exact h.mono hcalls (fun _ _ hmem => hmem) other j (hother ▸ hold)
  · exact h.mono hcalls (fun _ _ hmem => hmem) other j hj

variable {label : ElectionStep}

theorem OverdueTicks.step (h : r.OverdueTicks) (hstep : r.step leaseMs label = some r') :
    r'.OverdueTicks := by
  obtain ⟨w', hworld, rfl⟩ := Option.map_eq_some_iff.mp hstep
  cases label with
  | tryAcquire =>
    cases hworld
    exact h.mono (keepsCalls_append rfl) fun _ _ hmem => hmem
  | renew =>
    rw [ElectionWorld.step] at hworld
    split_ifs at hworld
    cases hworld
    exact h.renew
  | release =>
    cases hworld
    exact h.mono (keepsCalls_append rfl) fun _ _ hmem => hmem
  | execute =>
    obtain ⟨call, hcall, hexecute⟩ := Option.bind_eq_some_iff.mp hworld
    rcases ElectionWorld.eq_of_execute hexecute with ⟨command, -, rfl⟩ | ⟨command, -, rfl⟩
    · exact h.mono (keepsCalls_set hcall rfl) fun _ _ hmem => hmem
    · exact h.mono (keepsCalls_set hcall rfl) fun _ _ hmem => hmem
  | resume =>
    obtain ⟨call, hcall, hresume⟩ := Option.bind_eq_some_iff.mp hworld
    obtain ⟨reply, next, hanswered, -, rfl⟩ := ElectionWorld.eq_of_resume hresume
    obtain ⟨caller, method, progress⟩ := call
    cases hanswered
    rw [recordsAfter, hcall]
    exact h.update (keepsCalls_set hcall rfl) fun j => RenewalRecord.mem_overdue_resumed
  | fail =>
    obtain ⟨call, hcall, hfail⟩ := Option.bind_eq_some_iff.mp hworld
    obtain ⟨progress, -, rfl⟩ := ElectionWorld.eq_of_fail hfail
    rw [recordsAfter, hcall]
    exact h.update (keepsCalls_set hcall rfl) fun j => RenewalRecord.mem_overdue_ended
  | tick =>
    cases hworld
    exact h.mono (keepsCalls_append (List.append_nil _).symm) fun _ _ hmem => hmem

/-! ## What one step does to a leader -/

theorem demoted_update (h : r.Demoted)
    (hinstances : w'.instances = Function.update r.world.instances caller e) :
    Demoted ⟨w', Function.update r.records caller record⟩ ↔
      (record.expired = true → e.isLeader = false) := by
  rw [Demoted]
  dsimp only
  rw [hinstances]
  apply Iff.intro
  · intro hnext
    have hcaller := hnext caller
    rwa [Function.update_self, Function.update_self] at hcaller
  · intro hcaller other
    rw [Function.update_apply, Function.update_apply]
    split_ifs
    · exact hcaller
    · exact h other

theorem demoted_of_instance (h : r.Demoted)
    (hinstances : w'.instances = Function.update r.world.instances caller e)
    (hleader : e.isLeader = true → (r.world.instances caller).isLeader = true) :
    Demoted ⟨w', r.records⟩ := by
  rw [← Function.update_eq_self caller r.records, demoted_update h hinstances]
  intro hexpired
  have hbefore := h caller hexpired
  cases hafter : e.isLeader with
  | false => rfl
  | true => rw [hleader hafter] at hbefore; cases hbefore

theorem renew_eq (e : RedisIndexerLeaderElection) (leaseMs : ℕ) (now : ℤ) :
    e.renew leaseMs now =
      if leaseMs < elapsedMs e.lastRenewAttemptMs now then (e.revoked, none)
      else ({ e with lastRenewAttemptMs := now }, some .getLeader) := rfl

theorem expired_ticked_iff {leaseMs : ℕ} {now : ℤ} {late : Bool}
    (h : record.expired = true → e.isLeader = false) :
    ((record.ticked i late (e.renew leaseMs now).2.isSome).expired = true →
        (e.renew leaseMs now).1.isLeader = false) ↔
      (record.overdue ≠ [] → e.isLeader = true →
        leaseMs < elapsedMs e.lastRenewAttemptMs now) := by
  rw [renew_eq]
  by_cases hstale : leaseMs < elapsedMs e.lastRenewAttemptMs now
  · rw [if_pos hstale]
    exact ⟨fun _ _ _ => hstale, fun _ _ => rfl⟩
  · rw [if_neg hstale, RenewalRecord.ticked]
    dsimp only
    rw [Option.isSome_some, Bool.not_true, Bool.and_false, Bool.or_false, Bool.or_eq_true_iff,
      Bool.not_eq_true', List.isEmpty_eq_false_iff]
    apply Iff.intro
    · intro hnext hoverdue hleader
      rw [hnext (.inr hoverdue)] at hleader
      cases hleader
    · rintro hlost (hexpired | hoverdue)
      · exact h hexpired
      · exact Bool.eq_false_iff.mpr fun hleader => hstale (hlost hoverdue hleader)

variable {method : ElectionMethod}

theorem expired_resumed_iff {now : ℤ} {reply : ElectionReply}
    (hmethod : i ∈ record.overdue → method = .renew)
    (h : record.expired = true → e.isLeader = false) :
    ((record.resumed i now e.heartbeat (e.resume caller method now reply).2.isSome
        reply).expired = true → (e.resume caller method now reply).1.isLeader = false) ↔
      (reply = .peexpire true → i ∈ record.overdue → e.isLeader = false) := by
  cases reply with
  | incr => exact ⟨nofun, nofun⟩
  | fence =>
    refine ⟨fun _ => nofun, ?_⟩
    intro _ hexpired
    rw [RenewalRecord.resumed] at hexpired
    split_ifs at hexpired
  | peexpire renewed =>
    cases renewed with
    | true =>
      rw [RenewalRecord.resumed, List.contains_iff_mem]
      exact ⟨fun hnext _ => hnext, fun hnext => hnext rfl⟩
    | false => exact ⟨nofun, fun _ _ => rfl⟩
  | setNx started =>
    cases started with
    | some | none => exact ⟨nofun, fun _ => h⟩
  | leader current =>
    refine ⟨fun _ => nofun, ?_⟩
    intro _
    rw [RedisIndexerLeaderElection.resume]
    cases current.filter (·.holder = caller) with
    | some => cases method <;> exact h
    | none =>
      cases method with
      | tryAcquire | renew => exact fun _ => rfl
      | release =>
        intro hexpired
        rcases Bool.or_eq_true_iff.mp hexpired with hbefore | hoverdue
        · exact h hbefore
        · cases hmethod (List.contains_iff_mem.mp hoverdue)
  | del => exact ⟨nofun, fun _ => h⟩

theorem expired_ended_iff (hmethod : i ∈ record.overdue → method = .renew)
    (h : record.expired = true → e.isLeader = false) :
    ((record.ended i).expired = true → (e.failed method).isLeader = false) ↔
      (i ∈ record.overdue → e.isLeader = false) := by
  have hkeeps : e.isLeader = false → (e.failed method).isLeader = false := by
    intro hleader
    cases method with
    | tryAcquire => rfl
    | renew | release => exact hleader
  rw [RenewalRecord.ended, Bool.or_eq_true_iff, List.contains_iff_mem]
  apply Iff.intro
  · intro hnext hoverdue
    have hafter := hnext (.inr hoverdue)
    rwa [hmethod hoverdue] at hafter
  · rintro hlost (hexpired | hoverdue)
    · exact hkeeps (h hexpired)
    · exact hkeeps (hlost hoverdue)

theorem demoted_step_iff (hticks : r.OverdueTicks) (h : r.Demoted)
    (hstep : r.step leaseMs label = some r') : r'.Demoted ↔ r.LosesOverdue leaseMs label := by
  obtain ⟨w', hworld, rfl⟩ := Option.map_eq_some_iff.mp hstep
  have hmethod : ∀ (i : ℕ) (call : ElectionCall), r.world.calls[i]? = some call →
      i ∈ (r.records call.caller).overdue → call.method = .renew := by
    intro i call hcall hoverdue
    obtain ⟨other, hother, -, hrenew⟩ := hticks call.caller i hoverdue
    rw [hcall] at hother
    cases hother
    exact hrenew
  cases label with
  | tryAcquire =>
    cases hworld
    exact iff_of_true (demoted_of_instance h rfl fun hleader => hleader) trivial
  | renew caller =>
    rw [ElectionWorld.step] at hworld
    split_ifs at hworld
    cases hworld
    exact (demoted_update h rfl).trans (expired_ticked_iff (h caller))
  | release =>
    cases hworld
    exact iff_of_true (demoted_of_instance h rfl nofun) trivial
  | execute =>
    obtain ⟨call, hcall, hexecute⟩ := Option.bind_eq_some_iff.mp hworld
    apply iff_of_true _ trivial
    rcases ElectionWorld.eq_of_execute hexecute with ⟨command, -, rfl⟩ | ⟨command, -, rfl⟩
    · exact h
    · exact h
  | resume i =>
    obtain ⟨call, hcall, hresume⟩ := Option.bind_eq_some_iff.mp hworld
    obtain ⟨reply, next, hanswered, rfl, rfl⟩ := ElectionWorld.eq_of_resume hresume
    obtain ⟨caller, method, progress⟩ := call
    cases hanswered
    rw [recordsAfter, hcall, LosesOverdue, hcall]
    dsimp only
    rw [demoted_update h rfl, expired_resumed_iff (hmethod i _ hcall) (h caller)]
    apply Iff.intro
    · intro hlost call hsome hanswered
      cases hsome
      exact hlost (ElectionProgress.answered.inj hanswered)
    · exact fun hlost hreply => hlost _ rfl (congrArg _ hreply)
  | fail i =>
    obtain ⟨call, hcall, hfail⟩ := Option.bind_eq_some_iff.mp hworld
    obtain ⟨progress, -, rfl⟩ := ElectionWorld.eq_of_fail hfail
    rw [recordsAfter, hcall, LosesOverdue, hcall]
    dsimp only
    rw [demoted_update h rfl, expired_ended_iff (hmethod i call hcall) (h call.caller)]
    exact ⟨fun hlost _ hsome => Option.some.inj hsome ▸ hlost, fun hlost => hlost call rfl⟩
  | tick =>
    cases hworld
    exact iff_of_true h trivial

end DemotionRun

/-! ## Every run -/

/-- Along every run, an instance whose last tick came more than a lease after its last success is
not leader exactly as long as no such tick of a leader fails, extends the lease after all, or is
still unanswered at the next tick. -/
theorem demoted_iff_losesOverdue (leaseMs : ℕ → ℕ) (clock : ℤ) (fence : ℕ)
    (labels : List ElectionStep) :
    EveryStep (DemotionRun.step leaseMs) (fun _ _ r' => r'.Demoted) (.init clock fence) labels ↔
      EveryStep (DemotionRun.step leaseMs) (fun r label _ => r.LosesOverdue leaseMs label)
        (.init clock fence) labels := by
  apply everyStep_iff_of_step DemotionRun.OverdueTicks
  · intro r label r' hticks h hstep
    exact ⟨DemotionRun.demoted_step_iff hticks h hstep, hticks.step hstep⟩
  · exact fun caller i hi => nomatch hi
  · exact fun caller => nofun

/-- The instance takes the lease at once, and each of its ticks gets an error. -/
def failingTicks (instants : List ℤ) : List ElectionStep :=
  [.tryAcquire 0, .execute 0, .resume 0 0, .execute 0, .resume 0 0] ++
    instants.zipIdx.flatMap fun tick => [.renew 0 tick.1, .fail (tick.2 + 1)]

/-- Redis fails from the first tick on, and after the fourth the instance is still leader. -/
theorem failingTicks_leads : ¬ ∀ (leaseMs : ℕ → ℕ) (labels : List ElectionStep),
    EveryStep (DemotionRun.step leaseMs) (fun _ _ r' => r'.Demoted) (.init 0 0) labels := by
  intro hdemoted
  obtain ⟨r, hrun, hexpired, hleader⟩ : ∃ r, run (DemotionRun.step fun _ => 15000) (.init 0 0)
      (failingTicks [5000, 10000, 15000] ++ [.renew 0 20000] ++ [.fail 4]) = some r ∧
        (r.records 0).expired = true ∧ (r.world.instances 0).isLeader = true :=
    ⟨_, rfl, rfl, rfl⟩
  obtain ⟨_, hlast⟩ := EveryStep.last hrun (hdemoted _ _)
  have hdown := hlast 0 hexpired
  rw [hleader] at hdown
  cases hdown

end Fluxora.Indexer
