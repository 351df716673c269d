/-
# Fencing tokens order the leaders

A term starts with the lease and draws its token later, and an instance that finds the lease its
own reads the token again later still. In between the lease may pass to another. As long as the
terms are served by the counter in their order, and nobody else was served before a token is read
again, a later term has the larger token and two leaders never have the same.
-/

import Fluxora.Indexer.LeaderElection

namespace Fluxora.Indexer

open Lib Lib.TtlTable Lib.Transition

/-! ## The rule and its condition -/

/-- Terms are numbered as they start, and a term starts after the lease of the one before is
over. -/
def TokensOrdered (w : ElectionWorld) : Prop :=
  (∀ p ∈ w.held, ∀ q ∈ w.held, p.1 < q.1 → p.2 < q.2) ∧
    ∀ i j, i ≠ j → (w.instances i).isLeader = true → (w.instances j).isLeader = true →
      (w.instances i).fencingToken ≠ (w.instances j).fencingToken

/-- The command that Redis may carry out for an operation. -/
def ElectionProgress.command : ElectionProgress → Option ElectionCommand
  | .sent command => some command
  | .abandoned command => some command
  | .answered _ => none
  | .done => none

/-- The counter has served no later term when a token is drawn, and last served the same term
when it is read again. -/
def ElectionStore.ServesInOrder (s : ElectionStore) : ElectionCommand → Prop
  | .incr term => ∀ p ∈ s.fenceKey.issued, p.1 ≤ term
  | .getFence term => ∀ p ∈ s.fenceKey.issued.head?, p.1 = term
  | _ => True

instance (s : ElectionStore) : DecidablePred s.ServesInOrder := fun command => by
  unfold ElectionStore.ServesInOrder
  split <;> infer_instance

def ServedInOrder (w : ElectionWorld) : ElectionStep → Prop
  | .execute i => ∀ call ∈ w.calls[i]?, ∀ command ∈ call.progress.command,
      w.redis.ServesInOrder command
  | _ => True

instance (w : ElectionWorld) : DecidablePred (ServedInOrder w) := fun label => by
  unfold ServedInOrder
  split <;> infer_instance

/-! ## What the commands do -/

namespace ElectionStore

/-- The term is one of the instance. -/
def HeldBy (s : ElectionStore) (term caller : ℕ) : Prop := s.holders[term]? = some caller

/-- The lease is that of the instance of its term. -/
def LeaseSound (s : ElectionStore) : Prop :=
  ∀ entry, s.leaderKey () = some entry → s.HeldBy entry.value.term entry.value.holder

/-- Terms and tokens are never taken back. -/
structure Extends (s s' : ElectionStore) : Prop where
  holders : s.holders <+: s'.holders
  issued : s.fenceKey.issued ⊆ s'.fenceKey.issued

variable {s s' : ElectionStore} {caller leaseMs : ℕ}

theorem Extends.refl (s : ElectionStore) : s.Extends s := ⟨List.prefix_refl _, fun _ h => h⟩

theorem HeldBy.mono {term : ℕ} (h : s.HeldBy term caller) (hextends : s.Extends s') :
    s'.HeldBy term caller := by
  obtain ⟨later, hlater⟩ := hextends.holders
  rw [HeldBy, ← hlater, List.getElem?_append_left (List.getElem?_eq_some_iff.mp h).1]
  exact h

theorem extends_perform (command : ElectionCommand) :
    s.Extends (s.perform caller leaseMs command).2 := by
  cases command with
  | setNx =>
    rw [perform]
    cases s.current with
    | some => exact .refl s
    | none => exact ⟨List.prefix_append _ _, fun _ h => h⟩
  | getLeader => exact .refl s
  | incr | getFence => exact ⟨List.prefix_refl _, fun _ h => List.mem_cons_of_mem _ h⟩
  | peexpire =>
    rw [perform]
    cases s.current with
    | some => exact ⟨List.prefix_refl _, fun _ h => h⟩
    | none => exact .refl s
  | del => exact ⟨List.prefix_refl _, fun _ h => h⟩

theorem sound_perform (h : s.fenceKey.Sound) (command : ElectionCommand) :
    (s.perform caller leaseMs command).2.fenceKey.Sound := by
  cases command with
  | setNx =>
    rw [perform]
    cases s.current <;> exact h
  | incr => exact h.draw
  | getFence => exact h.reread
  | peexpire =>
    rw [perform]
    cases s.current <;> exact h
  | getLeader | del => exact h

theorem ordered_perform_iff (h : s.fenceKey.Sound) (command : ElectionCommand) :
    (s.perform caller leaseMs command).2.fenceKey.Ordered ↔
      s.fenceKey.Ordered ∧ s.ServesInOrder command := by
  cases command with
  | setNx =>
    unfold perform
    cases s.current <;> exact (and_iff_left trivial).symm
  | incr => exact FencingCounter.ordered_draw_iff h
  | getFence => exact FencingCounter.ordered_reread_iff h
  | peexpire =>
    unfold perform
    cases s.current <;> exact (and_iff_left trivial).symm
  | getLeader | del => exact (and_iff_left trivial).symm

theorem heldBy_of_current (h : s.LeaseSound) {lease : LeaderLease}
    (hcurrent : s.current = some lease) : s.HeldBy lease.term lease.holder := by
  obtain ⟨time, hentry, -⟩ := get_eq_some_iff.mp hcurrent
  exact h _ hentry

theorem heldBy_started : HeldBy { s with holders := s.holders ++ [caller] } s.holders.length
    caller := List.getElem?_concat_length

theorem leaseSound_set {holders : List ℕ} {lease : LeaderLease}
    (h : holders[lease.term]? = some lease.holder) :
    LeaseSound { s with
      leaderKey := set s.leaderKey s.clock () lease leaseMs, holders := holders } := by
  intro entry hentry
  dsimp only at hentry
  rw [set_self] at hentry
  cases hentry
  exact h

theorem leaseSound_perform (h : s.LeaseSound) (command : ElectionCommand) :
    (s.perform caller leaseMs command).2.LeaseSound := by
  cases command with
  | setNx =>
    rw [perform]
    cases s.current with
    | some => exact h
    | none => exact leaseSound_set List.getElem?_concat_length
  | peexpire =>
    rw [perform]
    cases hcurrent : s.current with
    | some => exact leaseSound_set (heldBy_of_current h hcurrent)
    | none => exact h
  | del =>
    intro entry hentry
    dsimp only [perform] at hentry
    rw [del_self] at hentry
    cases hentry
  | incr | getFence | getLeader => exact h

end ElectionStore

/-! ## Tokens are backed -/

/-- A command asks for a token of a term of its own instance. -/
def ElectionCommand.BackedBy (s : ElectionStore) (caller : ℕ) : ElectionCommand → Prop
  | .incr term => s.HeldBy term caller
  | .getFence term => s.HeldBy term caller
  | _ => True

/-- A reply tells of terms and tokens that there are. -/
def ElectionReply.BackedBy (s : ElectionStore) (caller : ℕ) : ElectionReply → Prop
  | .setNx started => ∀ term ∈ started, s.HeldBy term caller
  | .leader current => ∀ lease ∈ current, s.HeldBy lease.term lease.holder
  | .incr term token => s.HeldBy term caller ∧ (term, token) ∈ s.fenceKey.issued
  | .fence term token => s.HeldBy term caller ∧ (term, token) ∈ s.fenceKey.issued
  | .peexpire _ => True
  | .del => True

def ElectionProgress.BackedBy (s : ElectionStore) (caller : ℕ) : ElectionProgress → Prop
  | .sent command => command.BackedBy s caller
  | .answered reply => reply.BackedBy s caller
  | .abandoned _ => True
  | .done => True

/-- Leaders have tokens that the counter handed out for a term of theirs. -/
structure TokensBacked (w : ElectionWorld) : Prop where
  sound : w.redis.fenceKey.Sound
  lease : w.redis.LeaseSound
  calls : ∀ call ∈ w.calls, call.progress.BackedBy w.redis call.caller
  held : ∀ p ∈ w.held, p ∈ w.redis.fenceKey.issued
  leaders : ∀ i, (w.instances i).isLeader = true →
    ((w.instances i).term, (w.instances i).fencingToken) ∈ w.held ∧
      w.redis.HeldBy (w.instances i).term i

section Backing

variable {s s' : ElectionStore} {caller : ℕ}

theorem ElectionCommand.BackedBy.mono {command : ElectionCommand}
    (h : command.BackedBy s caller) (hextends : s.Extends s') : command.BackedBy s' caller := by
  cases command with
  | incr | getFence => exact ElectionStore.HeldBy.mono h hextends
  | setNx | getLeader | peexpire | del => trivial

variable {reply : ElectionReply}

theorem ElectionReply.BackedBy.mono (h : reply.BackedBy s caller) (hextends : s.Extends s') :
    reply.BackedBy s' caller := by
  cases reply with
  | setNx => exact fun term hterm => (h term hterm).mono hextends
  | leader => exact fun lease hlease => (h lease hlease).mono hextends
  | incr | fence => exact ⟨h.1.mono hextends, hextends.issued h.2⟩
  | peexpire | del => trivial

theorem ElectionReply.BackedBy.of_token (h : reply.BackedBy s caller) {p : ℕ × ℕ}
    (htoken : reply.token = some p) : s.HeldBy p.1 caller ∧ p ∈ s.fenceKey.issued := by
  cases reply with
  | incr | fence =>
    cases htoken
    exact h
  | setNx | leader | peexpire | del => cases htoken

theorem ElectionProgress.BackedBy.mono {progress : ElectionProgress}
    (h : progress.BackedBy s caller) (hextends : s.Extends s') :
    progress.BackedBy s' caller := by
  cases progress with
  | sent => exact ElectionCommand.BackedBy.mono h hextends
  | answered => exact ElectionReply.BackedBy.mono h hextends
  | abandoned | done => trivial

theorem backedBy_perform {leaseMs : ℕ} (hlease : s.LeaseSound) {command : ElectionCommand}
    (h : command.BackedBy s caller) :
    (s.perform caller leaseMs command).1.BackedBy (s.perform caller leaseMs command).2 caller := by
  cases command with
  | setNx =>
    rw [ElectionStore.perform]
    cases s.current with
    | some => exact fun term hterm => nomatch hterm
    | none =>
      intro term hterm
      cases hterm
      exact ElectionStore.heldBy_started
  | getLeader => exact fun lease hcurrent => ElectionStore.heldBy_of_current hlease hcurrent
  | incr | getFence => exact ⟨h, List.mem_cons_self⟩
  | peexpire =>
    rw [ElectionStore.perform]
    cases s.current <;> trivial
  | del => trivial

end Backing

/-! ## What an instance does with a reply -/

namespace RedisIndexerLeaderElection

/-- Leadership is kept or dropped, and its token stays. -/
def KeepsToken (e e' : RedisIndexerLeaderElection) : Prop :=
  e'.isLeader = true → e.isLeader = true ∧ e'.term = e.term ∧ e'.fencingToken = e.fencingToken

variable {e : RedisIndexerLeaderElection}

theorem keepsToken_refl : e.KeepsToken e := fun h => ⟨h, rfl, rfl⟩

theorem keepsToken_notLeader : e.KeepsToken e.notLeader := fun h => nomatch h

theorem keepsToken_revoked : e.KeepsToken e.revoked := fun h => nomatch h

theorem keepsToken_failed (method : ElectionMethod) : e.KeepsToken (e.failed method) := by
  cases method with
  | tryAcquire => exact keepsToken_notLeader
  | renew | release => exact keepsToken_refl

theorem keepsToken_renew (leaseMs : ℕ) (now : ℤ) : e.KeepsToken (e.renew leaseMs now).1 := by
  rw [renew]
  generalize (if e.lastRenewAttemptMs ≤ now then now - e.lastRenewAttemptMs else 0) = elapsed
  split_ifs
  · exact keepsToken_revoked
  · exact fun h => ⟨h, rfl, rfl⟩

variable {s : ElectionStore}

theorem backedBy_renew {caller : ℕ} (leaseMs : ℕ) (now : ℤ) :
    (ElectionProgress.next (e.renew leaseMs now).2).BackedBy s caller := by
  rw [renew]
  generalize (if e.lastRenewAttemptMs ≤ now then now - e.lastRenewAttemptMs else 0) = elapsed
  split_ifs <;> trivial

theorem keepsToken_checked (method : ElectionMethod) (own : Option LeaderLease) :
    e.KeepsToken (e.checked method own).1 := by
  cases method <;> cases own
  case tryAcquire.none => exact keepsToken_notLeader
  case renew.none => exact keepsToken_revoked
  all_goals exact keepsToken_refl

variable {instanceId : ℕ} {method : ElectionMethod} {now : ℤ} {reply : ElectionReply}

theorem resume_of_token (e : RedisIndexerLeaderElection) (instanceId : ℕ)
    (method : ElectionMethod) (now : ℤ) {p : ℕ × ℕ} (h : reply.token = some p) :
    p = ((e.resume instanceId method now reply).1.term,
      (e.resume instanceId method now reply).1.fencingToken) := by
  cases reply with
  | incr | fence =>
    cases h
    rfl
  | setNx | leader | peexpire | del => cases h

theorem keepsToken_resume (h : reply.token = none) :
    e.KeepsToken (e.resume instanceId method now reply).1 := by
  cases reply with
  | setNx started => cases started <;> exact keepsToken_refl
  | leader => exact keepsToken_checked method _
  | peexpire renewed =>
    cases renewed
    · exact keepsToken_revoked
    · exact keepsToken_refl
  | del => exact keepsToken_refl
  | incr | fence => cases h

theorem backedBy_resume (h : reply.BackedBy s instanceId) :
    (ElectionProgress.next (e.resume instanceId method now reply).2).BackedBy s instanceId := by
  cases reply with
  | setNx started =>
    cases started with
    | some term => exact h term rfl
    | none => trivial
  | leader current =>
    rw [resume]
    cases hown : current.filter (·.holder = instanceId) with
    | some own =>
      obtain ⟨hcurrent, hholder⟩ := Option.filter_eq_some_iff.mp hown
      have hterm := h own hcurrent
      rw [of_decide_eq_true hholder] at hterm
      cases method with
      | tryAcquire => exact hterm
      | renew | release => trivial
    | none => cases method <;> trivial
  | peexpire renewed => cases renewed <;> trivial
  | incr | fence | del => trivial

end RedisIndexerLeaderElection

/-! ## Every step keeps the backing -/

namespace TokensBacked

theorem init (clock : ℤ) (fence : ℕ) : TokensBacked (.init clock fence) where
  sound := .init fence
  lease _ h := nomatch h
  calls _ h := absurd h List.not_mem_nil
  held _ h := absurd h List.not_mem_nil
  leaders _ h := nomatch h

variable {w w' : ElectionWorld} {e : RedisIndexerLeaderElection} {i : ℕ}

theorem withRedis (h : TokensBacked w) {s : ElectionStore} (hextends : w.redis.Extends s)
    (hsound : s.fenceKey.Sound) (hlease : s.LeaseSound) : TokensBacked { w with redis := s } where
  sound := hsound
  lease := hlease
  calls call hcall := (h.calls call hcall).mono hextends
  held p hp := hextends.issued (h.held p hp)
  leaders i hleads := ⟨(h.leaders i hleads).1, (h.leaders i hleads).2.mono hextends⟩

theorem setInstance (h : TokensBacked w) {caller : ℕ} (hleads : e.isLeader = true →
      (e.term, e.fencingToken) ∈ w.held ∧ w.redis.HeldBy e.term caller) :
    TokensBacked { w with instances := Function.update w.instances caller e } := by
  refine ⟨h.sound, h.lease, h.calls, h.held, fun i => ?_⟩
  dsimp only
  by_cases hself : i = caller
  · subst hself
    rw [Function.update_self]
    exact hleads
  · rw [Function.update_of_ne hself]
    exact h.leaders i

theorem keepToken (h : TokensBacked w) {caller : ℕ} (hkeeps : (w.instances caller).KeepsToken e) :
    TokensBacked { w with instances := Function.update w.instances caller e } :=
  h.setInstance fun hleads => by
    obtain ⟨hled, hterm, htoken⟩ := hkeeps hleads
    rw [hterm, htoken]
    exact h.leaders caller hled

theorem start (h : TokensBacked w) {caller : ℕ} {method : ElectionMethod}
    {begun : RedisIndexerLeaderElection × Option ElectionCommand}
    (hkeeps : (w.instances caller).KeepsToken begun.1)
    (hcommand : (ElectionProgress.next begun.2).BackedBy w.redis caller) :
    TokensBacked (w.start caller method begun) := by
  have hnext := h.keepToken hkeeps
  refine ⟨hnext.sound, hnext.lease, fun call hcall => ?_, hnext.held, hnext.leaders⟩
  rcases List.mem_append.mp hcall with hold | hnew
  · exact h.calls call hold
  · rw [List.mem_singleton.mp hnew]
    exact hcommand

theorem put (h : TokensBacked w) {call : ElectionCall} {progress : ElectionProgress}
    (hprogress : progress.BackedBy w.redis call.caller) : TokensBacked (w.put i call progress) := by
  refine ⟨h.sound, h.lease, fun other hother => ?_, h.held, h.leaders⟩
  rcases List.mem_or_eq_of_mem_set hother with hold | rfl
  · exact h.calls other hold
  · exact hprogress

theorem perform (h : TokensBacked w) (caller leaseMs : ℕ) (command : ElectionCommand) :
    TokensBacked { w with redis := (w.redis.perform caller leaseMs command).2 } :=
  h.withRedis (ElectionStore.extends_perform command) (ElectionStore.sound_perform h.sound command)
    (ElectionStore.leaseSound_perform h.lease command)

variable {leaseMs : ℕ → ℕ}

theorem execute (h : TokensBacked w) {call : ElectionCall} (hcall : call ∈ w.calls)
    (hstep : w.execute leaseMs i call = some w') : TokensBacked w' := by
  rcases ElectionWorld.eq_of_execute hstep with ⟨command, hsent, rfl⟩ | ⟨command, -, rfl⟩
  · have hbacked := h.calls call hcall
    rw [hsent] at hbacked
    exact (h.perform _ _ command).put (backedBy_perform h.lease hbacked)
  · exact (h.perform _ _ command).put trivial

theorem takeToken (h : TokensBacked w) {caller : ℕ} (hheld : w.redis.HeldBy e.term caller)
    (hissued : (e.term, e.fencingToken) ∈ w.redis.fenceKey.issued) :
    TokensBacked { w with
      instances := Function.update w.instances caller e
      held := (e.term, e.fencingToken) :: w.held } := by
  have hmore : TokensBacked { w with held := (e.term, e.fencingToken) :: w.held } := by
    refine ⟨h.sound, h.lease, h.calls, fun p hp => ?_, fun i hleads => ?_⟩
    · rcases List.mem_cons.mp hp with rfl | hp
      · exact hissued
      · exact h.held p hp
    · exact ⟨List.mem_cons_of_mem _ (h.leaders i hleads).1, (h.leaders i hleads).2⟩
  exact hmore.setInstance fun _ => ⟨List.mem_cons_self, hheld⟩

theorem resume (h : TokensBacked w) {now : ℤ} {call : ElectionCall} (hcall : call ∈ w.calls)
    (hstep : w.resume i now call = some w') : TokensBacked w' := by
  obtain ⟨reply, next, hanswered, rfl, rfl⟩ := ElectionWorld.eq_of_resume hstep
  have hbacked := h.calls call hcall
  rw [hanswered] at hbacked
  refine put (w := { w with instances := _, held := _ }) ?_
    (RedisIndexerLeaderElection.backedBy_resume hbacked)
  cases htoken : reply.token with
  | none => exact h.keepToken (RedisIndexerLeaderElection.keepsToken_resume htoken)
  | some =>
    obtain ⟨hheld, hissued⟩ := hbacked.of_token htoken
    obtain rfl := RedisIndexerLeaderElection.resume_of_token (w.instances call.caller)
      call.caller call.method now htoken
    exact h.takeToken hheld hissued

theorem fail (h : TokensBacked w) {call : ElectionCall}
    (hstep : w.fail i call = some w') : TokensBacked w' := by
  obtain ⟨progress, hended, rfl⟩ := ElectionWorld.eq_of_fail hstep
  have hfailed := h.keepToken
    (RedisIndexerLeaderElection.keepsToken_failed (e := w.instances call.caller) call.method)
  rcases hended with rfl | ⟨command, rfl⟩
  · exact hfailed.put trivial
  · exact hfailed.put trivial

theorem step (h : TokensBacked w) {label : ElectionStep} (hstep : w.step leaseMs label = some w') :
    TokensBacked w' := by
  cases label with
  | tryAcquire =>
    cases hstep
    exact h.start RedisIndexerLeaderElection.keepsToken_refl trivial
  | renew _ now =>
    rw [ElectionWorld.step] at hstep
    split_ifs at hstep
    cases hstep
    exact h.start (RedisIndexerLeaderElection.keepsToken_renew _ now)
      (RedisIndexerLeaderElection.backedBy_renew _ now)
  | release =>
    cases hstep
    exact h.start RedisIndexerLeaderElection.keepsToken_revoked trivial
  | execute =>
    obtain ⟨call, hcall, hexecute⟩ := Option.bind_eq_some_iff.mp hstep
    exact h.execute (List.mem_of_getElem? hcall) hexecute
  | resume =>
    obtain ⟨call, hcall, hresume⟩ := Option.bind_eq_some_iff.mp hstep
    exact h.resume (List.mem_of_getElem? hcall) hresume
  | fail =>
    obtain ⟨call, -, hfail⟩ := Option.bind_eq_some_iff.mp hstep
    exact h.fail hfail
  | tick =>
    cases hstep
    exact h.withRedis ⟨List.prefix_refl _, fun _ hp => hp⟩ h.sound h.lease

end TokensBacked

/-! ## Runs -/

section Runs

variable {leaseMs : ℕ → ℕ} {w w' : ElectionWorld}

theorem servedInOrder_execute_iff {i : ℕ} {call : ElectionCall} (hcall : w.calls[i]? = some call)
    {command : ElectionCommand} (hcommand : call.progress.command = some command) :
    ServedInOrder w (.execute i) ↔ w.redis.ServesInOrder command := by
  apply Iff.intro
  · exact fun h => h call hcall command hcommand
  · intro h other hother command' hcommand'
    rw [hcall] at hother
    cases hother
    rw [hcommand] at hcommand'
    cases hcommand'
    exact h

theorem ordered_execute_iff (h : TokensBacked w) {i : ℕ} {call : ElectionCall}
    (hcall : w.calls[i]? = some call) (hstep : w.execute leaseMs i call = some w') :
    w'.redis.fenceKey.Ordered ↔ w.redis.fenceKey.Ordered ∧ ServedInOrder w (.execute i) := by
  rcases ElectionWorld.eq_of_execute hstep with ⟨command, hsent, rfl⟩ | ⟨command, hleft, rfl⟩
  · rw [servedInOrder_execute_iff hcall (congrArg _ hsent)]
    exact ElectionStore.ordered_perform_iff h.sound command
  · rw [servedInOrder_execute_iff hcall (congrArg _ hleft)]
    exact ElectionStore.ordered_perform_iff h.sound command

theorem ordered_step_iff (h : TokensBacked w) {label : ElectionStep}
    (hstep : w.step leaseMs label = some w') :
    w'.redis.fenceKey.Ordered ↔ w.redis.fenceKey.Ordered ∧ ServedInOrder w label := by
  cases label with
  | execute =>
    obtain ⟨call, hcall, hexecute⟩ := Option.bind_eq_some_iff.mp hstep
    exact ordered_execute_iff h hcall hexecute
  | tryAcquire =>
    cases hstep
    exact (and_iff_left trivial).symm
  | renew =>
    rw [ElectionWorld.step] at hstep
    split_ifs at hstep
    cases hstep
    exact (and_iff_left trivial).symm
  | release =>
    cases hstep
    exact (and_iff_left trivial).symm
  | resume =>
    obtain ⟨call, -, hresume⟩ := Option.bind_eq_some_iff.mp hstep
    obtain ⟨_, _, -, -, rfl⟩ := ElectionWorld.eq_of_resume hresume
    exact (and_iff_left trivial).symm
  | fail =>
    obtain ⟨call, -, hfail⟩ := Option.bind_eq_some_iff.mp hstep
    obtain ⟨_, -, rfl⟩ := ElectionWorld.eq_of_fail hfail
    exact (and_iff_left trivial).symm
  | tick =>
    cases hstep
    exact (and_iff_left trivial).symm

/-- Tokens are backed and were handed out in order. -/
structure TokensServed (w : ElectionWorld) : Prop extends TokensBacked w where
  ordered : w.redis.fenceKey.Ordered

namespace TokensServed

theorem init (clock : ℤ) (fence : ℕ) : TokensServed (.init clock fence) :=
  ⟨.init clock fence, FencingCounter.ordered_init fence⟩

theorem step (h : TokensServed w) {label : ElectionStep} (hserved : ServedInOrder w label)
    (hstep : w.step leaseMs label = some w') : TokensServed w' :=
  ⟨h.toTokensBacked.step hstep, (ordered_step_iff h.toTokensBacked hstep).mpr ⟨h.ordered, hserved⟩⟩

theorem tokensOrdered (h : TokensServed w) : TokensOrdered w := by
  have hheld : ∀ p ∈ w.held, ∀ q ∈ w.held, p.1 < q.1 → p.2 < q.2 := fun p hp q hq =>
    h.ordered p (h.held p hp) q (h.held q hq)
  refine ⟨hheld, fun i j hne hi hj htoken => ?_⟩
  obtain ⟨hithTaken, hithHeld⟩ := h.leaders i hi
  obtain ⟨hjthTaken, hjthHeld⟩ := h.leaders j hj
  rcases lt_trichotomy (w.instances i).term (w.instances j).term with hlt | heq | hgt
  · exact absurd htoken (Nat.ne_of_lt (hheld _ hithTaken _ hjthTaken hlt))
  · rw [heq, ElectionStore.HeldBy, hjthHeld] at hithHeld
    exact hne (Option.some.inj hithHeld).symm
  · exact absurd htoken.symm (Nat.ne_of_lt (hheld _ hjthTaken _ hithTaken hgt))

end TokensServed

/-- Leaders are ordered by their tokens as long as the counter serves the terms in order. -/
theorem tokensOrdered_of_servedInOrder {clock : ℤ} {fence : ℕ}
    (hrun : Reaches (ElectionWorld.step leaseMs) ServedInOrder (.init clock fence) w) :
    TokensOrdered w :=
  (hrun.invariant (fun _ _ _ h hserved hstep => h.step hserved hstep)
    (TokensServed.init clock fence)).tokensOrdered

/-- In every run a leader has a token of the counter that was given to its term, and no two
instances lead for one term. -/
theorem leaders_have_issued_tokens (leaseMs : ℕ → ℕ) (clock : ℤ) (fence : ℕ)
    (labels : List ElectionStep) :
    EveryStep (ElectionWorld.step leaseMs) (fun _ _ w' =>
      (∀ i, (w'.instances i).isLeader = true →
        ((w'.instances i).term, (w'.instances i).fencingToken) ∈ w'.redis.fenceKey.issued ∧
          (w'.instances i).fencingToken ≤ w'.redis.fenceKey.value) ∧
      ∀ i j, (w'.instances i).isLeader = true → (w'.instances j).isLeader = true →
        (w'.instances i).term = (w'.instances j).term → i = j) (.init clock fence) labels := by
  refine everyStep_of_invariant TokensBacked (fun w label w' hbacked hstep => ?_) labels
    (.init clock fence)
  have h := hbacked.step hstep
  refine ⟨⟨fun i hleads => ?_, fun i j hleads hleads' hterm => ?_⟩, h⟩
  · have hissued := h.held _ (h.leaders i hleads).1
    exact ⟨hissued, h.sound.le_value _ hissued⟩
  · have hfirst := (h.leaders i hleads).2
    rw [hterm] at hfirst
    exact Option.some.inj (hfirst.symm.trans (h.leaders j hleads').2)

end Runs

/-! ## Leaders in turn, and out of turn -/

/-- An instance takes the lease and draws a token. -/
def takeLease (caller i : ℕ) : List ElectionStep :=
  [.tryAcquire caller, .execute i, .resume i 0, .execute i, .resume i 0]

/-- The lease of a leader that is paused runs out, and another instance takes over. -/
theorem takenOver_tokensOrdered : ∃ w, TokensOrdered w ∧
    (w.instances 0).fencingToken = 1 ∧ (w.instances 1).fencingToken = 2 := by
  obtain ⟨w, hrun, hfirst, hsecond⟩ :
      ∃ w, runUnder (ElectionWorld.step fun _ => 15000) ServedInOrder (.init 0 0)
          (takeLease 0 0 ++ [.tick 15001] ++ takeLease 1 1) = some w ∧
        (w.instances 0).fencingToken = 1 ∧ (w.instances 1).fencingToken = 2 :=
    ⟨_, rfl, rfl, rfl⟩
  exact ⟨w, tokensOrdered_of_servedInOrder (Reaches.of_runUnder hrun), hfirst, hsecond⟩

/-- The leader finds the lease its own and is paused before it reads the token again; in between
another instance takes over, and both have its token. -/
theorem confirmedLate_sameToken : ¬ ∀ (leaseMs : ℕ → ℕ) (clock : ℤ) (fence : ℕ) (w : ElectionWorld),
    Reaches (ElectionWorld.step leaseMs) (fun _ _ => True) (.init clock fence) w →
      TokensOrdered w := by
  intro h
  let labels : List ElectionStep := takeLease 0 0 ++
    [.tryAcquire 0, .execute 1, .resume 1 0, .execute 1, .resume 1 0, .tick 15001] ++
      takeLease 1 2 ++ [.execute 1, .resume 1 15001]
  obtain ⟨w, hrun, hfirst, hsecond, hsame⟩ :
      ∃ w, run (ElectionWorld.step fun _ => 15000) (.init 0 0) labels = some w ∧
        (w.instances 0).isLeader = true ∧ (w.instances 1).isLeader = true ∧
          (w.instances 0).fencingToken = (w.instances 1).fencingToken :=
    ⟨_, rfl, rfl, rfl, rfl⟩
  have hreached := Reaches.of_run (fun _ _ (_ : _ ∈ labels) => trivial) hrun
  exact (h _ 0 0 w hreached).2 0 1 (by decide) hfirst hsecond hsame

end Fluxora.Indexer
