/-
# Bans last as long as ordered

Under the condition every answer of every check is right, and the condition is exact: it holds
at a step just if after the step every check that is answered next, and every check that is
made alone, gets an answer that is right.
-/

import Fluxora.Redis.BanReplies

namespace Fluxora.Redis.Bans

open Lib.Transition Lib.Split

variable {digest : Digest} {s s' : BanState} {label : BanLabel} {p q : Process} {ip ip' : String}
  {now : ℤ} {i : ℕ} {call : BanCall}

/-! ## The cache at a check -/

variable {store : InMemoryBanStore} {time : ℤ}

theorem InMemoryBanStore.isBanned_hit (hentry : store.bans ip = some time) (hlasts : now < time)
    (hnow : 0 ≤ now) : store.isBanned now ip = (⟨true, some time⟩, store) := by
  have hne : time ≠ 0 := by omega
  simp only [isBanned, hentry, if_neg hne, if_pos hlasts]

theorem InMemoryBanStore.isBanned_miss (hover : ∀ time, store.bans ip = some time → time ≤ now) :
    (store.isBanned now ip).1 = ⟨false, none⟩ ∧ ∀ other time, now < time →
      ((store.isBanned now ip).2.bans other = some time ↔ store.bans other = some time) := by
  cases hentry : store.bans ip with
  | none =>
    simp only [isBanned, hentry]
    exact ⟨trivial, fun _ _ _ => trivial⟩
  | some expiry =>
    have hexpiry := hover expiry hentry
    simp only [isBanned, hentry, if_neg (not_lt.mpr hexpiry)]
    split_ifs with hzero
    · exact ⟨rfl, fun _ _ _ => Iff.rfl⟩
    · refine ⟨rfl, fun other time htime => ?_⟩
      change Function.update store.bans ip none other = some time ↔ _
      rw [Function.update_apply]
      split_ifs with hother
      · rw [hother, hentry]
        refine iff_of_false nofun fun h => ?_
        cases h
        omega
      · rfl

namespace BanState

theorem isBanned_hit (hcached : s.cached p ip = some time) (hlasts : now < time) (hnow : 0 ≤ now) :
    s.isBanned p ip now = (s.setCache p (s.stores p).localCache).tell p ip ⟨true, some time⟩ := by
  rw [isBanned, InMemoryBanStore.isBanned_hit hcached hlasts hnow]
  rfl

theorem isBanned_miss (hover : ∀ time, s.cached p ip = some time → time ≤ now) :
    s.isBanned p ip now =
      (s.setCache p ((s.stores p).localCache.isBanned now ip).2).send p ip .check := by
  have hmiss := (InMemoryBanStore.isBanned_miss hover).1
  rw [isBanned]
  generalize (s.stores p).localCache.isBanned now ip = checked at hmiss
  obtain ⟨result, cache⟩ := checked
  cases hmiss
  rfl

theorem hit_or_miss (s : BanState) (p : Process) (ip : String) (now : ℤ) :
    (∃ time, s.cached p ip = some time ∧ now < time) ∨
      ∀ time, s.cached p ip = some time → time ≤ now := by
  by_cases h : ∃ time, s.cached p ip = some time ∧ now < time
  · exact Or.inl h
  · exact Or.inr fun time hcached => not_lt.mp fun hlasts => h ⟨time, hcached, hlasts⟩

theorem quiet_setCache {cache : InMemoryBanStore} (hcache : ∀ ip time, s.clock < time →
    (cache.bans ip = some time ↔ s.cached p ip = some time)) : Quiet s (s.setCache p cache) := by
  refine ⟨⟨le_rfl, rfl, rfl, fun _ => Or.inl⟩, fun q other time htime => ?_⟩
  rw [setCache, cached_setStore]
  split_ifs with hq
  · subst hq
    exact hcache other time htime
  · rfl

theorem Quiet.send (hquiet : Quiet s s') (p : Process) (ip : String) :
    Quiet s (s'.send p ip .check) := by
  refine ⟨⟨hquiet.clock, hquiet.redis, hquiet.ledger, fun call hcall => ?_⟩, hquiet.cached⟩
  rcases List.mem_append.mp hcall with hold | hnew
  · exact hquiet.calls call hold
  · cases List.mem_singleton.mp hnew
    exact Or.inr ⟨rfl, Or.inl rfl⟩

theorem quiet_isBanned (hnow : s.clock = now) (hzero : 0 ≤ now) :
    Quiet s (s.isBanned p ip now) := by
  rcases hit_or_miss s p ip now with ⟨time, hcached, hlasts⟩ | hover
  · rw [isBanned_hit hcached hlasts hzero]
    exact (quiet_setCache fun _ _ _ => Iff.rfl).tell _ _ _
  · rw [isBanned_miss hover]
    refine (quiet_setCache fun other time htime => ?_).send p ip
    rw [hnow] at htime
    exact (InMemoryBanStore.isBanned_miss hover).2 other time htime

/-! ## What a step does -/

/-- Time has passed since the last step. -/
def passed (s : BanState) (now : ℤ) : BanState := { s with clock := now, answer := none }

theorem quiet_passed (hclock : s.clock ≤ now) : Quiet s (s.passed now) :=
  ⟨⟨hclock, rfl, rfl, fun _ => Or.inl⟩, fun _ _ _ _ => Iff.rfl⟩

inductive Effect (digest : Digest) (s : BanState) : BanLabel → BanState → Prop
  | checks (p : Process) (ip : String) (now : ℤ) :
      Effect digest s (.isBanned p ip now) (s.isBanned p ip now)
  | bans (p : Process) (ip : String) (ttlSeconds now : ℤ) :
      Effect digest s (.ban p ip ttlSeconds now) (s.ban p ip now ttlSeconds)
  | unbans (p : Process) (ip : String) (now : ℤ) :
      Effect digest s (.unban p ip now) (s.unban p ip)
  | executes (i : ℕ) (now : ℤ) (call : BanCall) (hcall : s.calls[i]? = some call)
      (hreply : call.reply = none) :
      Effect digest s (.execute i now) (s.execute digest now i call)
  | replies (i : ℕ) (now : ℤ) (call : BanCall) (result : Option ℤ)
      (hcall : s.calls[i]? = some call) (hreply : call.reply = some result) :
      Effect digest s (.reply i now) (s.reply now i call result)
  | fails (i : ℕ) (now : ℤ) (call : BanCall) (hcall : s.calls[i]? = some call) :
      Effect digest s (.fail i now) (s.fail now i call)

theorem effect (hstep : s.step digest label = some s') :
    s.clock ≤ label.now ∧ Effect digest (s.passed label.now) label s' := by
  unfold step at hstep
  split_ifs at hstep with hclock
  refine ⟨not_lt.mp hclock, ?_⟩
  cases label with
  | isBanned p ip now =>
    cases hstep
    exact .checks p ip now
  | ban p ip ttlSeconds now =>
    cases hstep
    exact .bans p ip ttlSeconds now
  | unban p ip now =>
    cases hstep
    exact .unbans p ip now
  | execute i now =>
    obtain ⟨call, hcall, hrest⟩ := Option.bind_eq_some_iff.mp hstep
    split_ifs at hrest with hreply
    cases hrest
    exact .executes i now call hcall hreply
  | reply i now =>
    obtain ⟨call, hcall, hrest⟩ := Option.bind_eq_some_iff.mp hstep
    obtain ⟨result, hreply, rfl⟩ := Option.map_eq_some_iff.mp hrest
    exact .replies i now call result hcall hreply
  | fail i now =>
    obtain ⟨call, hcall, rfl⟩ := Option.map_eq_some_iff.mp hstep
    exact .fails i now call hcall

/-! ## What every step keeps -/

theorem quiet_over (hop : call.op = .check) (hcall : s.calls[i]? = some call) (hover : time ≤ now) :
    Quiet s (s.reply now i call (some time)) := by
  rw [reply_check_over hop hover]
  refine ⟨⟨le_rfl, rfl, rfl, fun other hother => ?_⟩, fun _ _ _ _ => Iff.rfl⟩
  rcases mem_modify hcall hother with rfl | hold
  · exact Or.inr ⟨rfl, Or.inr rfl⟩
  · exact Or.inl hold

theorem quiet_unban_none (hop : call.op = .unban none) (result : Option ℤ) :
    Quiet s (s.reply now i call result) := by
  rw [reply_unban hop]
  exact ⟨⟨le_rfl, rfl, rfl, fun other hother => Or.inl (List.mem_of_mem_eraseIdx hother)⟩,
    fun _ _ _ _ => Iff.rfl⟩

variable {result : Option ℤ}

theorem Kept.reply (hkept : Kept digest s) (hcall : s.calls[i]? = some call)
    (hreply : call.reply = some result) : Kept digest (s.reply now i call result) := by
  cases hop : call.op with
  | check =>
    cases result with
    | none =>
      rw [reply_check_none hop]
      exact hkept.still ((quiet_recovered i call.process).tell _ _ _).toStill
    | some time =>
      rcases le_or_gt time now with hover | hlasts
      · exact hkept.still (quiet_over hop hcall hover).toStill
      · exact hkept.still (found_still hop hlasts)
  | cleanUp =>
    rw [reply_cleanUp hop]
    exact hkept.still ((quiet_recovered i call.process).tell _ _ _).toStill
  | ban =>
    rw [reply_ban hop]
    exact hkept.still (quiet_recovered i call.process).toStill
  | unban bans =>
    cases bans with
    | none => exact hkept.still (quiet_unban_none hop result).toStill
    | some => exact hkept.lift hcall hop (by rw [hreply]; exact nofun) result

theorem Kept.step (hkept : Kept digest s) (hstep : s.step digest label = some s') :
    Kept digest s' := by
  obtain ⟨hclock, heffect⟩ := effect hstep
  have hpassed := hkept.still (quiet_passed hclock).toStill
  cases heffect with
  | checks => exact hpassed.still (quiet_isBanned rfl hpassed.clock).toStill
  | bans _ _ ttlSeconds now =>
    have hnow : (s.passed now).clock = now := rfl
    exact hpassed.ban hnow ttlSeconds
  | unbans => exact hpassed.unban
  | executes _ _ _ hcall => exact hpassed.execute rfl hcall
  | replies _ _ _ _ hcall hreply => exact hpassed.reply hcall hreply
  | fails i _ call => exact hpassed.still (quiet_fail i call).toStill

/-! ## What keeps a state sound -/

theorem Sound.reply_iff (hsound : Sound digest s) (hnow : s.clock = now)
    (hcall : s.calls[i]? = some call) (hreply : call.reply = some result) :
    Sound digest (s.reply now i call result) ↔ s.RepliesWell digest now call result := by
  unfold RepliesWell
  cases hop : call.op with
  | check =>
    cases result with
    | none =>
      rw [reply_check_none hop]
      exact iff_of_true (hsound.quiet ((quiet_recovered i call.process).tell _ _ _)) trivial
    | some time =>
      rcases le_or_gt time now with hover | hlasts
      · exact iff_of_true (hsound.quiet (quiet_over hop hcall hover))
          fun hlasts => absurd hlasts (not_lt.mpr hover)
      · exact (hsound.found_iff hnow hcall ⟨hop, hreply⟩ hlasts).trans
          ⟨fun h _ => h, fun h => h hlasts⟩
  | cleanUp =>
    rw [reply_cleanUp hop]
    exact iff_of_true (hsound.quiet ((quiet_recovered i call.process).tell _ _ _)) trivial
  | ban =>
    rw [reply_ban hop]
    exact iff_of_true (hsound.quiet (quiet_recovered i call.process)) trivial
  | unban bans =>
    cases bans with
    | none => exact iff_of_true (hsound.quiet (quiet_unban_none hop result)) trivial
    | some => exact hsound.lift_iff hnow hcall hop result

theorem Sound.step_iff (hkept : Kept digest s) (hsound : Sound digest s)
    (hstep : s.step digest label = some s') :
    Sound digest s' ↔ KeepsBans digest s label := by
  obtain ⟨hclock, heffect⟩ := effect hstep
  have hquiet := quiet_passed hclock
  have hkept' := hkept.still hquiet.toStill
  have hsound' := hsound.quiet hquiet
  cases heffect with
  | checks => exact iff_of_true (hsound'.quiet (quiet_isBanned rfl hkept'.clock)) trivial
  | bans _ _ ttlSeconds now =>
    rcases lt_or_ge 0 ttlSeconds with hpos | hnonpos
    · have hnow : (s.passed now).clock = now := rfl
      exact (hsound'.ban_iff hkept' hnow hpos).trans ⟨fun h _ => h, fun h => h hpos⟩
    · rw [ban_of_nonpos hnonpos]
      exact iff_of_true hsound' fun hpos => absurd hpos (not_lt.mpr hnonpos)
  | unbans => exact iff_of_true hsound'.unban trivial
  | executes _ now call hcall hreply =>
    have hnow : (s.passed now).clock = now := rfl
    refine (hsound'.execute_iff hkept' hnow hcall).trans ⟨?_, ?_⟩
    · intro hwell other hother _
      cases Option.some.inj (hcall.symm.trans hother)
      exact hwell
    · exact fun hwell => hwell call hcall hreply
  | replies _ now call result hcall hreply =>
    have hnow : (s.passed now).clock = now := rfl
    refine (hsound'.reply_iff hnow hcall hreply).trans ⟨?_, ?_⟩
    · intro hwell other result' hother hreply'
      cases Option.some.inj (hcall.symm.trans hother)
      cases Option.some.inj (hreply.symm.trans hreply')
      exact hwell
    · exact fun hwell => hwell call result hcall hreply
  | fails i _ call => exact iff_of_true (hsound'.quiet (quiet_fail i call)) trivial

/-! ## Answers in sound states -/

theorem Sound.rule_isBanned (hkept : Kept digest s) (hsound : Sound digest s)
    (hnow : s.clock = now) (hsilent : s.answer = none) :
    BanRule (.isBanned p ip now) (s.isBanned p ip now) := by
  rcases hit_or_miss s p ip now with ⟨time, hcached, hlasts⟩ | hover
  · obtain ⟨⟨expiry, hmem, hlong⟩, hnot⟩ :=
      hsound.cached p ip time hcached (lt_of_le_of_lt (le_of_eq hnow) hlasts)
    rw [isBanned_hit hcached hlasts (le_of_le_of_eq hkept.clock hnow)]
    exact BanRule.of_banned rfl rfl ⟨expiry, hmem, lt_of_lt_of_le hlasts hlong⟩ hnot
  · rw [isBanned_miss hover]
    exact BanRule.of_silent hsilent

theorem Sound.rule_reply (hkept : Kept digest s) (hsound : Sound digest s) (hnow : s.clock = now)
    (hsilent : s.answer = none) (hcall : s.calls[i]? = some call)
    (hreply : call.reply = some result) : BanRule (.reply i now) (s.reply now i call result) := by
  have hmem := List.mem_of_getElem? hcall
  have hfree : call.ToldNothing → ∀ expiry,
      s.ledger.ordered call.process call.ip = some expiry → expiry ≤ now := by
    intro htold expiry hordered
    have hnot := hsound.told call hmem htold expiry
    exact not_lt.mp fun hlater => hnot ⟨hordered, lt_of_le_of_lt (le_of_eq hnow) hlater⟩
  cases hop : call.op with
  | check =>
    cases result with
    | none =>
      rw [reply_check_none hop]
      exact BanRule.of_free rfl rfl (hfree (Or.inl ⟨hop, hreply⟩))
    | some time =>
      rcases le_or_gt time now with hover | hlasts
      · rw [reply_check_over hop hover]
        exact BanRule.of_silent hsilent
      · have hfound : call.Found time := ⟨hop, hreply⟩
        have hnot := hsound.found call hmem time hfound
          (lt_of_le_of_lt (le_of_eq hnow) hlasts)
        rw [reply_check_found hop hlasts]
        exact BanRule.of_banned rfl rfl ⟨time, hkept.found call hmem time hfound, hlasts⟩ hnot
  | cleanUp =>
    rw [reply_cleanUp hop]
    exact BanRule.of_free rfl rfl (hfree (Or.inr ⟨hop, by rw [hreply]; exact nofun⟩))
  | ban =>
    rw [reply_ban hop]
    exact BanRule.of_silent hsilent
  | unban =>
    rw [reply_unban hop]
    exact BanRule.of_silent hsilent

theorem rule_fail (hsilent : s.answer = none) (i : ℕ) (now : ℤ) (call : BanCall) :
    BanRule (.fail i now) (s.fail now i call) := by
  have hrefused : ∀ answer : BanAnswer, (s.fail now i call).answer = some answer →
      answer.result.banned = true := by
    intro answer hanswer
    rw [fail] at hanswer
    cases hop : call.op with
    | check | cleanUp =>
      rw [hop] at hanswer
      cases hanswer
      rfl
    | ban | unban =>
      rw [hop] at hanswer
      cases hsilent.symm.trans hanswer
  refine ⟨fun answer hanswer hfree => ?_, fun answer _ _ hfail => ?_, fun answer _ _ hfail => ?_⟩
  · cases (hrefused answer hanswer).symm.trans hfree
  · exact absurd rfl (hfail i now)
  · exact absurd rfl (hfail i now)

theorem Sound.rule (hkept : Kept digest s) (hsound : Sound digest s)
    (hstep : s.step digest label = some s') : BanRule label s' := by
  obtain ⟨hclock, heffect⟩ := effect hstep
  have hquiet := quiet_passed hclock
  have hkept' := hkept.still hquiet.toStill
  have hsound' := hsound.quiet hquiet
  cases heffect with
  | checks _ _ now =>
    have hnow : (s.passed now).clock = now := rfl
    exact hsound'.rule_isBanned hkept' hnow rfl
  | bans _ _ ttlSeconds =>
    rcases lt_or_ge 0 ttlSeconds with hpos | hnonpos
    · rw [ban_of_pos hpos]
      exact BanRule.of_silent rfl
    · rw [ban_of_nonpos hnonpos]
      exact BanRule.of_silent rfl
  | unbans | executes => exact BanRule.of_silent rfl
  | replies _ now _ _ hcall hreply =>
    have hnow : (s.passed now).clock = now := rfl
    exact hsound'.rule_reply hkept' hnow rfl hcall hreply
  | fails i now call => exact rule_fail rfl i now call

/-! ## Runs -/

/-- **Bans last.** For any number of processes, in every run whose steps meet the condition every
check is answered right. And the condition is exact: it is met just as long as no state is
reached in which a ban is unprotected, a copy outlasts the bans that were recorded, or a check
is on its way back with an answer that has become wrong. -/
theorem bans_last (digest : Digest) (labels : List BanLabel) :
    (EveryStep (BanState.step digest) (fun s label _ => KeepsBans digest s label) {} labels →
      EveryStep (BanState.step digest) (fun _ label s' => BanRule label s') {} labels) ∧
    (EveryStep (BanState.step digest) (fun s label _ => KeepsBans digest s label) {} labels ↔
      EveryStep (BanState.step digest) (fun _ label s' => BanRule label s' ∧ Sound digest s')
        {} labels) := by
  have hkeeps : ∀ s label s', Kept digest s ∧ Sound digest s → s.step digest label = some s' →
      KeepsBans digest s label →
        (BanRule label s' ∧ Sound digest s') ∧ Kept digest s' ∧ Sound digest s' := by
    rintro s label s' ⟨hkept, hsound⟩ hstep hmeets
    have hsound' := (hsound.step_iff hkept hstep).mpr hmeets
    exact ⟨⟨hsound.rule hkept hstep, hsound'⟩, hkept.step hstep, hsound'⟩
  refine ⟨?_, ?_, ?_⟩
  · refine EveryStep.imp (fun s => Kept digest s ∧ Sound digest s) ?_ ⟨kept_start, sound_start⟩
    intro s label s' hinv hstep hmeets
    obtain ⟨⟨hrule, -⟩, hinv'⟩ := hkeeps s label s' hinv hstep hmeets
    exact ⟨hrule, hinv'⟩
  · exact EveryStep.imp (fun s => Kept digest s ∧ Sound digest s) hkeeps
      ⟨kept_start, sound_start⟩
  · refine EveryStep.imp (fun s => Kept digest s ∧ Sound digest s) ?_ ⟨kept_start, sound_start⟩
    rintro s label s' ⟨hkept, hsound⟩ hstep ⟨-, hsound'⟩
    exact ⟨(hsound.step_iff hkept hstep).mp hsound', hkept.step hstep, hsound'⟩

/-- In every run Redis has and answers only ends of bans that were ordered for the address, and it
has each of them to its end. -/
theorem bans_ordered (digest : Digest) (labels : List BanLabel) :
    EveryStep (BanState.step digest) (fun _ _ s' =>
      (∀ ip entry, s'.redis (buildKey digest ip) = some entry →
        entry.value ∈ s'.ledger.recorded ip ∧ entry.value ≤ entry.expireAt) ∧
      ∀ call ∈ s'.calls, ∀ time, call.Found time → time ∈ s'.ledger.recorded call.ip)
      {} labels := by
  refine everyStep_of_invariant (Kept digest) (fun s label s' hkept hstep => ?_) labels kept_start
  have h := hkept.step hstep
  exact ⟨⟨h.stored, h.found⟩, h⟩

end BanState

/-- A digest in the place of SHA-256. -/
def plainDigest : Digest where
  hex ip := "#" ++ ip
  injective ip ip' h := by
    rw [← String.toList_inj, String.toList_append, String.toList_append] at h
    exact String.toList_inj.mp (List.append_cancel_left h)
  ne_unknown ip h := by
    rw [← String.toList_inj, String.toList_append] at h
    cases h

/-- A process bans an address for ten seconds. Another one asks half a second later and copies
what is left, rounded up to ten seconds; so it still answers "banned" when the ban is over. -/
theorem bans_outlast :
    ¬ ∀ (digest : Digest) (labels : List BanLabel),
      EveryStep (BanState.step digest) (fun _ label s' => BanRule label s') {} labels := by
  intro h
  let labels : List BanLabel := [.ban 0 "ip" 10 0, .execute 0 0, .reply 0 0, .isBanned 1 "ip" 500,
    .execute 0 500, .reply 0 500]
  have hcached : (run (BanState.step plainDigest) {} (labels ++ [.isBanned 1 "ip" 10200])).map
      (fun s => (s.answer, s.ledger.recorded "ip")) =
        some (some ⟨1, "ip", ⟨true, some 10500⟩⟩, [10000]) := by decide +kernel
  obtain ⟨s, hrun, hs⟩ := Option.map_eq_some_iff.mp hcached
  obtain ⟨hanswer, hrecorded⟩ := Prod.mk.inj hs
  obtain ⟨-, hrule⟩ := EveryStep.last hrun (h plainDigest _)
  obtain ⟨expiry, hmem, hlasts⟩ := hrule.ends _ hanswer rfl nofun
  rw [hrecorded] at hmem
  cases List.mem_singleton.mp hmem
  exact absurd hlasts (by decide)

end Fluxora.Redis.Bans
