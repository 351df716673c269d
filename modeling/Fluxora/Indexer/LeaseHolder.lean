/-
# Who touches the lease

An instance that releases or renews the lease reads the leader key first, and deletes or extends
it with a second command when it has found its own id. In between the lease can run out and
another instance can take it; the second command then deletes or extends that instance's lease.

A run keeps, for each operation, how many leases had been taken when its check was answered.
-/

import Fluxora.Indexer.FencingTokens

namespace Fluxora.Indexer

open Lib Lib.TtlTable Lib.Transition

/-! ## The rule and its condition -/

/-- The command deletes or extends the lease. -/
def ElectionCommand.touches : ElectionCommand → Bool
  | .peexpire => true
  | .del => true
  | _ => false

/-- The command reads whose the lease is. -/
def ElectionCommand.checks : ElectionCommand → Bool
  | .getLeader => true
  | _ => false

/-- A lease that is deleted or extended holds the id of the instance that does it. -/
def TouchesOwn (w : ElectionWorld) : ElectionStep → Prop
  | .execute i => ∀ call ∈ w.calls[i]?, ∀ command ∈ call.progress.command,
      command.touches = true → ∀ lease ∈ w.redis.current, lease.holder = call.caller
  | _ => True

/-- A world with the number of terms at the time each operation's check was answered. -/
structure LeaseRun where
  world : ElectionWorld
  seen : ℕ → ℕ := fun _ => 0

namespace LeaseRun

variable (leaseMs : ℕ → ℕ) (r : LeaseRun)

/-- The command that Redis carries out for an operation. -/
def command (i : ℕ) : Option ElectionCommand := r.world.calls[i]?.bind (·.progress.command)

def seenAfter : ElectionStep → ℕ → ℕ
  | .execute i =>
    if (r.command i).any (·.checks) then
      Function.update r.seen i r.world.redis.holders.length
    else r.seen
  | _ => r.seen

def step (label : ElectionStep) : Option LeaseRun :=
  (r.world.step leaseMs label).map fun w' => ⟨w', r.seenAfter label⟩

/-- A lease that another instance has taken since the check is over when the lease is deleted
or extended. -/
def NotTakenOver : ElectionStep → Prop
  | .execute i => ∀ call ∈ r.world.calls[i]?, ∀ command ∈ call.progress.command,
      command.touches = true → ∀ term, r.seen i ≤ term → ∀ holder ∈ r.world.redis.holders[term]?,
        holder ≠ call.caller → ∀ lease ∈ r.world.redis.current, lease.term ≠ term
  | _ => True

def init (clock : ℤ) (fence : ℕ) : LeaseRun := { world := .init clock fence }

end LeaseRun

/-! ## Operations that have found the lease their own -/

/-- The operation has found the lease its own and is to delete or extend it, or reads so next. -/
def ElectionCall.Owns (call : ElectionCall) : Prop :=
  (∃ command ∈ call.progress.command, command.touches = true) ∨
    ∃ lease, call.progress = .answered (.leader (some lease)) ∧ lease.holder = call.caller

/-- The lease that an operation has found its own, if it is still there, is its own. -/
structure LeaseRun.Checked (r : LeaseRun) : Prop where
  backed : TokensBacked r.world
  seen_le : ∀ i, r.seen i ≤ r.world.redis.holders.length
  found : ∀ (i : ℕ) (call : ElectionCall), r.world.calls[i]? = some call → call.Owns → ∀ entry,
    r.world.redis.leaderKey () = some entry → entry.value.term < r.seen i →
      entry.value.holder = call.caller

theorem owns_resume {e : RedisIndexerLeaderElection} {call : ElectionCall} {now : ℤ}
    {reply : ElectionReply} (hanswered : call.progress = .answered reply)
    (howns : ElectionCall.Owns { call with
      progress := .next (e.resume call.caller call.method now reply).2 }) : call.Owns := by
  have htouches : ∃ command, (e.resume call.caller call.method now reply).2 = some command ∧
      command.touches = true := by
    rcases howns with ⟨command, hcommand, htouches⟩ | ⟨lease, hlease, -⟩
    · refine ⟨command, ?_, htouches⟩
      cases hnext : (e.resume call.caller call.method now reply).2 with
      | some =>
        rw [hnext] at hcommand
        exact hcommand
      | none =>
        rw [hnext] at hcommand
        cases hcommand
    · cases hnext : (e.resume call.caller call.method now reply).2 with
      | some | none =>
        rw [hnext] at hlease
        cases hlease
  obtain ⟨command, hnext, htouches⟩ := htouches
  cases reply with
  | leader current =>
    rw [RedisIndexerLeaderElection.resume] at hnext
    cases hown : current.filter (·.holder = call.caller) with
    | some own =>
      obtain ⟨hcurrent, hholder⟩ := Option.filter_eq_some_iff.mp hown
      exact .inr ⟨own, by rw [hanswered, hcurrent], of_decide_eq_true hholder⟩
    | none =>
      rw [hown] at hnext
      cases hmethod : call.method <;> rw [hmethod] at hnext <;> cases hnext
  | setNx started =>
    cases started <;> cases hnext <;> cases htouches
  | incr | fence => cases hnext
  | peexpire renewed => cases renewed <;> cases hnext
  | del => cases hnext

namespace ElectionStore

variable {s : ElectionStore} {caller leaseMs : ℕ}

theorem leaderKey_perform (command : ElectionCommand) {entry : Entry LeaderLease}
    (hentry : (s.perform caller leaseMs command).2.leaderKey () = some entry) :
    (∃ old, s.leaderKey () = some old ∧ old.value = entry.value) ∨
      entry.value.term = s.holders.length := by
  cases command with
  | setNx =>
    rw [perform] at hentry
    cases hcurrent : s.current with
    | some =>
      rw [hcurrent] at hentry
      exact .inl ⟨entry, hentry, rfl⟩
    | none =>
      rw [hcurrent] at hentry
      dsimp only at hentry
      rw [set_self] at hentry
      cases hentry
      exact .inr rfl
  | peexpire =>
    rw [perform] at hentry
    cases hcurrent : s.current with
    | some =>
      rw [hcurrent] at hentry
      dsimp only at hentry
      rw [set_self] at hentry
      cases hentry
      obtain ⟨time, hold, -⟩ := get_eq_some_iff.mp hcurrent
      exact .inl ⟨_, hold, rfl⟩
    | none =>
      rw [hcurrent] at hentry
      exact .inl ⟨entry, hentry, rfl⟩
  | del =>
    dsimp only [perform] at hentry
    rw [del_self] at hentry
    cases hentry
  | getLeader | incr | getFence => exact .inl ⟨entry, hentry, rfl⟩

end ElectionStore

/-! ## Every step keeps what was found -/

namespace LeaseRun.Checked

variable {leaseMs : ℕ → ℕ} {r r' : LeaseRun} {w' : ElectionWorld} {i : ℕ} {call : ElectionCall}

theorem init (clock : ℤ) (fence : ℕ) : (LeaseRun.init clock fence).Checked where
  backed := .init clock fence
  seen_le _ := le_rfl
  found _ _ hcall := nomatch hcall

theorem mono (h : r.Checked) (hbacked : TokensBacked w')
    (hholders : r.world.redis.holders.length ≤ w'.redis.holders.length)
    (hlease : ∀ entry, w'.redis.leaderKey () = some entry →
      (∃ old, r.world.redis.leaderKey () = some old ∧ old.value = entry.value) ∨
        entry.value.term = r.world.redis.holders.length)
    (hcalls : ∀ (i : ℕ) (call : ElectionCall), w'.calls[i]? = some call → call.Owns →
      ∃ old : ElectionCall, r.world.calls[i]? = some old ∧ old.Owns ∧ old.caller = call.caller) :
    LeaseRun.Checked ⟨w', r.seen⟩ := by
  refine ⟨hbacked, fun i => (h.seen_le i).trans hholders, ?_⟩
  intro i call hcall howns entry hentry hbefore
  obtain ⟨old, hold, hownsOld, hcaller⟩ := hcalls i call hcall howns
  rcases hlease entry hentry with ⟨oldEntry, holdEntry, hvalue⟩ | hnew
  · rw [← hvalue] at hbefore ⊢
    rw [← hcaller]
    exact h.found i old hold hownsOld oldEntry holdEntry hbefore
  · rw [hnew] at hbefore
    exact absurd (h.seen_le i) (not_le.mpr hbefore)

variable {progress : ElectionProgress}

theorem put (h : r.Checked) (hcall : r.world.calls[i]? = some call)
    (hredis : w'.redis = r.world.redis)
    (hcalls : w'.calls = r.world.calls.set i { call with progress := progress })
    (howns : ElectionCall.Owns { call with progress := progress } → call.Owns)
    (hbacked : TokensBacked w') : LeaseRun.Checked ⟨w', r.seen⟩ := by
  refine h.mono hbacked (by rw [hredis]) (fun entry hentry => ?_)
    fun j other hother hownsOther => ?_
  · rw [hredis] at hentry
    exact .inl ⟨entry, hentry, rfl⟩
  · rw [hcalls, List.getElem?_set] at hother
    split_ifs at hother with hij hlt
    · cases hother
      subst hij
      exact ⟨call, hcall, howns hownsOther, rfl⟩
    · exact ⟨other, hother, hownsOther, rfl⟩

theorem start (h : r.Checked) {caller : ℕ} {method : ElectionMethod}
    {begun : RedisIndexerLeaderElection × Option ElectionCommand}
    (hbacked : TokensBacked (r.world.start caller method begun))
    (hbegun : ∀ command ∈ begun.2, command.touches = false) :
    LeaseRun.Checked ⟨r.world.start caller method begun, r.seen⟩ := by
  refine h.mono hbacked le_rfl (fun entry hentry => .inl ⟨entry, hentry, rfl⟩) ?_
  intro j other hother howns
  change (r.world.calls ++ [_])[j]? = some other at hother
  rw [List.getElem?_append] at hother
  split_ifs at hother with hold
  · exact ⟨other, hother, howns, rfl⟩
  · obtain rfl := List.mem_singleton.mp (List.mem_of_getElem? hother)
    obtain ⟨e, next⟩ := begun
    cases next with
    | none =>
      rcases howns with ⟨command, hcommand, -⟩ | ⟨lease, hlease, -⟩
      · cases hcommand
      · cases hlease
    | some =>
      rcases howns with ⟨command, hcommand, htouches⟩ | ⟨lease, hlease, -⟩
      · cases hcommand
        rw [hbegun _ rfl] at htouches
        cases htouches
      · cases hlease

theorem not_owns_answered {s : ElectionStore} {ms : ℕ} {command : ElectionCommand}
    (hchecks : command.checks = false) :
    ¬ ElectionCall.Owns
      { call with progress := .answered (s.perform call.caller ms command).1 } := by
  rintro (⟨command', hcommand, -⟩ | ⟨lease, hlease, -⟩)
  · cases hcommand
  · have hreply : (s.perform call.caller ms command).1 = .leader (some lease) :=
      ElectionProgress.answered.inj hlease
    cases command with
    | getLeader => cases hchecks
    | setNx | peexpire =>
      rw [ElectionStore.perform] at hreply
      cases hcurrent : s.current <;> rw [hcurrent] at hreply <;> cases hreply
    | incr | getFence | del => cases hreply

theorem not_owns_done : ¬ ElectionCall.Owns { call with progress := .done } := by
  rintro (⟨command, hcommand, -⟩ | ⟨lease, hlease, -⟩)
  · cases hcommand
  · cases hlease

theorem perform (h : r.Checked) {command : ElectionCommand} {ms : ℕ}
    (hnot : ¬ ElectionCall.Owns { call with progress := progress })
    (hbacked : TokensBacked { r.world.put i call progress with redis := (r.world.redis.perform
      call.caller ms command).2 }) :
    LeaseRun.Checked ⟨{ r.world.put i call progress with
      redis := (r.world.redis.perform call.caller ms command).2 }, r.seen⟩ := by
  have hextends : r.world.redis.Extends (r.world.redis.perform call.caller ms command).2 :=
    ElectionStore.extends_perform command
  refine h.mono hbacked hextends.holders.length_le
    (fun entry hentry => ElectionStore.leaderKey_perform command hentry) ?_
  intro j other hother howns
  change (r.world.calls.set i _)[j]? = some other at hother
  rw [List.getElem?_set] at hother
  split_ifs at hother with hij hlt
  · cases hother
    exact absurd howns hnot
  · exact ⟨other, hother, howns, rfl⟩

theorem check (h : r.Checked)
    (hprogress : progress = .answered (.leader r.world.redis.current) ∨ progress = .done)
    (hbacked : TokensBacked (r.world.put i call progress)) :
    LeaseRun.Checked ⟨r.world.put i call progress,
      Function.update r.seen i r.world.redis.holders.length⟩ := by
  refine ⟨hbacked, fun j => ?_, fun j other hother howns entry hentry hbefore => ?_⟩
  · change Function.update r.seen i r.world.redis.holders.length j ≤ r.world.redis.holders.length
    rw [Function.update_apply]
    split_ifs
    · exact le_rfl
    · exact h.seen_le j
  · change (r.world.calls.set i _)[j]? = some other at hother
    rw [List.getElem?_set] at hother
    dsimp only at hbefore
    split_ifs at hother with hij hlt
    · cases hother
      rcases hprogress with rfl | rfl
      · rcases howns with ⟨command, hcommand, -⟩ | ⟨lease, hlease, hholder⟩
        · cases hcommand
        · have hcurrent : r.world.redis.current = some lease :=
            ElectionReply.leader.inj (ElectionProgress.answered.inj hlease)
          obtain ⟨time, htable, -⟩ := get_eq_some_iff.mp hcurrent
          rw [show r.world.redis.leaderKey () = some entry from hentry] at htable
          cases htable
          exact hholder
      · exact absurd howns not_owns_done
    · rw [Function.update_of_ne (Ne.symm hij)] at hbefore
      exact h.found j other hother howns entry hentry hbefore

theorem execute (h : r.Checked) (hcall : r.world.calls[i]? = some call)
    (hstep : r.world.execute leaseMs i call = some w') :
    LeaseRun.Checked ⟨w', r.seenAfter (.execute i)⟩ := by
  have hbacked := h.backed.execute (List.mem_of_getElem? hcall) hstep
  have hseen : ∀ command, call.progress.command = some command → r.seenAfter (.execute i) =
      if command.checks then Function.update r.seen i r.world.redis.holders.length
      else r.seen := by
    intro command hcommand
    rw [seenAfter, LeaseRun.command, hcall, Option.bind_some, hcommand, Option.any_some]
  rcases ElectionWorld.eq_of_execute hstep with ⟨command, hsent, rfl⟩ | ⟨command, hleft, rfl⟩
  · rw [hseen command (by rw [hsent, ElectionProgress.command])]
    cases hchecks : command.checks with
    | true =>
      cases command <;> cases hchecks
      exact h.check (.inl rfl) hbacked
    | false => exact h.perform (not_owns_answered hchecks) hbacked
  · rw [hseen command (by rw [hleft, ElectionProgress.command])]
    cases hchecks : command.checks with
    | true =>
      cases command <;> cases hchecks
      exact h.check (.inr rfl) hbacked
    | false => exact h.perform not_owns_done hbacked

theorem fail (h : r.Checked) (hcall : r.world.calls[i]? = some call)
    (hstep : r.world.fail i call = some w') : LeaseRun.Checked ⟨w', r.seen⟩ := by
  have hbacked := h.backed.fail hstep
  rw [ElectionWorld.fail] at hstep
  cases hprogress : call.progress with
  | sent =>
    rw [hprogress] at hstep
    cases hstep
    refine h.put hcall rfl rfl (fun howns => ?_) hbacked
    rcases howns with ⟨command', hcommand, htouches⟩ | ⟨lease, hlease, -⟩
    · exact .inl ⟨command', by rw [hprogress]; exact hcommand, htouches⟩
    · cases hlease
  | answered =>
    rw [hprogress] at hstep
    cases hstep
    exact h.put hcall rfl rfl (fun howns => absurd howns not_owns_done) hbacked
  | abandoned | done =>
    rw [hprogress] at hstep
    cases hstep

theorem step (h : r.Checked) {label : ElectionStep} (hstep : r.step leaseMs label = some r') :
    r'.Checked := by
  obtain ⟨w', hworld, rfl⟩ := Option.map_eq_some_iff.mp hstep
  have hbacked := h.backed.step hworld
  cases label with
  | tryAcquire =>
    cases hworld
    exact h.start hbacked fun command hcommand => by cases hcommand; rfl
  | renew =>
    rw [ElectionWorld.step] at hworld
    split_ifs at hworld
    cases hworld
    refine h.start hbacked fun command hcommand => ?_
    rw [RedisIndexerLeaderElection.renew] at hcommand
    split_ifs at hcommand <;> cases hcommand <;> rfl
  | release =>
    cases hworld
    exact h.start hbacked fun command hcommand => by cases hcommand; rfl
  | execute =>
    obtain ⟨call, hcall, hexecute⟩ := Option.bind_eq_some_iff.mp hworld
    exact h.execute hcall hexecute
  | resume =>
    obtain ⟨call, hcall, hresume⟩ := Option.bind_eq_some_iff.mp hworld
    obtain ⟨reply, next, hanswered, rfl, rfl⟩ := ElectionWorld.eq_of_resume hresume
    exact h.put hcall rfl rfl (owns_resume hanswered) hbacked
  | fail =>
    obtain ⟨call, hcall, hfail⟩ := Option.bind_eq_some_iff.mp hworld
    exact h.fail hcall hfail
  | tick =>
    cases hworld
    exact h.mono hbacked le_rfl (fun entry hentry => .inl ⟨entry, hentry, rfl⟩)
      fun j other hother howns => ⟨other, hother, howns, rfl⟩

theorem touchesOwn_iff (h : r.Checked) (label : ElectionStep) :
    TouchesOwn r.world label ↔ r.NotTakenOver label := by
  cases label with
  | execute i =>
    apply Iff.intro
    · intro hown call hcall command hcommand htouches term _ holder hholder hother lease hlease
      rintro rfl
      have hheld := ElectionStore.heldBy_of_current h.backed.lease hlease
      rw [ElectionStore.HeldBy, Option.mem_def.mp hholder] at hheld
      exact hother ((Option.some.inj hheld).trans
        (hown call hcall command hcommand htouches lease hlease))
    · intro hfree call hcall command hcommand htouches lease hlease
      have hheld := ElectionStore.heldBy_of_current h.backed.lease hlease
      by_cases hbefore : lease.term < r.seen i
      · obtain ⟨time, hentry, -⟩ := get_eq_some_iff.mp hlease
        exact h.found i call hcall (.inl ⟨command, hcommand, htouches⟩) _ hentry hbefore
      · by_contra hother
        exact hfree call hcall command hcommand htouches lease.term (not_lt.mp hbefore)
          lease.holder hheld hother lease hlease rfl
  | _ => exact Iff.rfl

end LeaseRun.Checked

/-- Along every run, leases are touched by their holders alone exactly as long as no lease is
taken by another instance, and still lasts, between the check and the command. -/
theorem touchesOwn_iff_notTakenOver (leaseMs : ℕ → ℕ) (clock : ℤ) (fence : ℕ)
    (labels : List ElectionStep) :
    EveryStep (LeaseRun.step leaseMs) (fun r label _ => TouchesOwn r.world label)
        (.init clock fence) labels ↔
      EveryStep (LeaseRun.step leaseMs) (fun r label _ => r.NotTakenOver label)
        (.init clock fence) labels := by
  have hinit := LeaseRun.Checked.init clock fence
  apply Iff.intro
  · exact EveryStep.imp LeaseRun.Checked (fun r label _ h hstep hown =>
      ⟨(h.touchesOwn_iff label).mp hown, h.step hstep⟩) hinit
  · exact EveryStep.imp LeaseRun.Checked (fun r label _ h hstep hfree =>
      ⟨(h.touchesOwn_iff label).mpr hfree, h.step hstep⟩) hinit

/-! ## A lease that changes hands behind a check -/

/-- An instance takes the lease and releases it, and goes on some time after its check. -/
def releaseLate (ms : ℕ) : List ElectionStep :=
  takeLease 0 0 ++ [.release 0, .execute 1, .tick ms, .resume 1 0]

/-- The lease runs out behind the check, another instance takes it, and it is deleted. -/
theorem releaseLate_deletes : ∃ (leaseMs : ℕ → ℕ) (labels : List ElectionStep)
    (w w' : ElectionWorld), run (ElectionWorld.step leaseMs) (.init 0 0) labels = some w ∧
      w.step leaseMs (.execute 1) = some w' ∧ ¬ TouchesOwn w (.execute 1) ∧
        w.redis.current.map (·.holder) = some 1 ∧ w'.redis.current.map (·.holder) = none := by
  refine ⟨fun _ => 15000, releaseLate 15001 ++ takeLease 1 2, _, _, rfl, rfl, ?_, rfl, rfl⟩
  intro hown
  exact absurd (hown ⟨0, .release, .sent .del⟩ rfl .del rfl rfl ⟨1, 1⟩ rfl) (by decide)

end Fluxora.Indexer
