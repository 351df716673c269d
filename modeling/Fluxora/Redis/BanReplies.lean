/-
# Answers of Redis and failures

An answer ends a call or turns a check to the deletion of an entry that is over. Two kinds of
answers need a condition: the one that brings a ban to the cache, and the one that ends an
unban. A failure ends a call and touches only the fallback, which no check reads.
-/

import Fluxora.Redis.BanSteps

namespace Fluxora.Redis.Bans

open Lib.Transition Lib.Split

variable {digest : Digest} {s s' : BanState} {label : BanLabel} {p q : Process} {ip ip' : String}
  {now : ℤ} {i : ℕ} {call : BanCall}

namespace BanState

/-! ## Calls that end quietly -/

theorem quiet_setStore (i : ℕ) {store : HybridBanStore}
    (hcache : store.localCache = (s.stores p).localCache) :
    Quiet s ((s.finish i).setStore p store) := by
  refine ⟨⟨le_rfl, rfl, rfl, fun call hcall => Or.inl (List.mem_of_mem_eraseIdx hcall)⟩, ?_⟩
  intro q ip time htime
  rw [cached_setStore, hcache]
  split_ifs with hq
  · subst hq
    rfl
  · rfl

theorem quiet_recovered (i : ℕ) (p : Process) :
    Quiet s ((s.finish i).setStore p (s.stores p).recovered) := quiet_setStore i rfl

theorem Quiet.tell (hquiet : Quiet s s') (p : Process) (ip : String) (result : BanCheckResult) :
    Quiet s (s'.tell p ip result) :=
  ⟨⟨hquiet.clock, hquiet.redis, hquiet.ledger, hquiet.calls⟩, hquiet.cached⟩

theorem quiet_fail (i : ℕ) (call : BanCall) : Quiet s (s.fail now i call) := by
  have hended : Quiet s ((s.finish i).setStore call.process (s.stores call.process).failed) :=
    quiet_setStore i rfl
  have hrefused := hended.tell call.process call.ip ⟨true, none⟩
  rw [fail]
  cases call.op with
  | check | cleanUp => exact hrefused
  | ban ttlSeconds =>
    refine quiet_setStore i ?_
    rw [HybridBanStore.banFallback]
    cases (s.stores call.process).fallback.ban now call.ip ttlSeconds <;> rfl
  | unban => exact quiet_setStore i rfl

/-! ## Answers -/

theorem reply_check_none (hop : call.op = .check) :
    s.reply now i call none =
      ((s.finish i).setStore call.process (s.stores call.process).recovered).tell call.process
        call.ip ⟨false, none⟩ := by
  simp only [reply, hop]
  rfl

variable {time : ℤ}

theorem reply_check_over (hop : call.op = .check) (hover : time ≤ now) :
    s.reply now i call (some time) =
      { s with calls := s.calls.modify i fun call =>
        { call with op := .cleanUp, reply := none } } := by
  simp only [reply, hop, RedisBanStore.checked, if_pos hover]

theorem copied_pos (hlasts : now < time) : 0 < ⌈((time - now : ℤ) : ℚ) / 1000⌉ := by
  refine Int.ceil_pos.mpr (div_pos ?_ (by norm_num))
  exact_mod_cast sub_pos.mpr hlasts

theorem le_copied (now time : ℤ) : time ≤ copied now time := by
  have hceil : ((time - now : ℤ) : ℚ) / 1000 ≤ ⌈((time - now : ℤ) : ℚ) / 1000⌉ := Int.le_ceil _
  have hscaled : ((time - now : ℤ) : ℚ) ≤ ⌈((time - now : ℤ) : ℚ) / 1000⌉ * 1000 :=
    (div_le_iff₀ (by norm_num)).mp hceil
  have hint : time - now ≤ ⌈((time - now : ℤ) : ℚ) / 1000⌉ * 1000 := by exact_mod_cast hscaled
  rw [copied]
  omega

/-- The store of a process with a copy of a ban. -/
def withCopy (store : HybridBanStore) (ip : String) (time : ℤ) : HybridBanStore :=
  { store with localCache := ⟨Function.update store.localCache.bans ip (some time)⟩ }.recovered

theorem reply_check_found (hop : call.op = .check) (hlasts : now < time) :
    s.reply now i call (some time) =
      ((s.finish i).setStore call.process
        (withCopy (s.stores call.process) call.ip (copied now time))).tell call.process call.ip
          ⟨true, some time⟩ := by
  have hchecked : RedisBanStore.checked now (some time) = some ⟨true, some time⟩ := by
    rw [RedisBanStore.checked, if_neg (not_le.mpr hlasts)]
  simp only [reply, hop, hchecked, HybridBanStore.accept, InMemoryBanStore.ban,
    if_neg (not_le.mpr (copied_pos hlasts))]
  rfl

theorem reply_cleanUp (hop : call.op = .cleanUp) (result : Option ℤ) :
    s.reply now i call result =
      ((s.finish i).setStore call.process (s.stores call.process).recovered).tell call.process
        call.ip ⟨false, none⟩ := by
  simp only [reply, hop]

theorem reply_ban {ttlSeconds expiry : ℤ} (hop : call.op = .ban ttlSeconds expiry)
    (result : Option ℤ) :
    s.reply now i call result =
      (s.finish i).setStore call.process (s.stores call.process).recovered := by
  simp only [reply, hop]

theorem reply_unban {bans : Option ℕ} (hop : call.op = .unban bans) (result : Option ℤ) :
    s.reply now i call result =
      { s.finish i with ledger := s.ledger.lift call.process call.ip bans } := by
  simp only [reply, hop]

/-! ## A copy to the cache -/

theorem found_cached (hop : call.op = .check) (hlasts : now < time) :
    (s.reply now i call (some time)).cached q ip =
      if q = call.process ∧ ip = call.ip then some (copied now time) else s.cached q ip := by
  rw [reply_check_found hop hlasts]
  change ((s.finish i).setStore call.process _).cached q ip = _
  rw [cached_setStore]
  by_cases hq : q = call.process
  · subst hq
    rw [if_pos rfl]
    change Function.update (s.stores call.process).localCache.bans call.ip _ ip = _
    rw [Function.update_apply]
    simp only [true_and, cached]
  · rw [if_neg hq, if_neg fun h => hq h.1]
    rfl

theorem found_still (hop : call.op = .check) (hlasts : now < time) :
    Still s (s.reply now i call (some time)) := by
  rw [reply_check_found hop hlasts]
  exact ⟨le_rfl, rfl, rfl, fun other hother => Or.inl (List.mem_of_mem_eraseIdx hother)⟩

theorem Sound.found_iff (hsound : Sound digest s) (hnow : s.clock = now)
    (hcall : s.calls[i]? = some call) (hfound : call.Found time) (hlasts : now < time) :
    Sound digest (s.reply now i call (some time)) ↔
      (∃ expiry ∈ s.ledger.recorded call.ip, copied now time ≤ expiry) ∧
        ∀ expiry, s.Owes now call.process call.ip expiry →
          expiry ≤ copied now time ∨ s.StoredUntil digest call.ip expiry := by
  have hcached : ∀ q ip, (s.reply now i call (some time)).cached q ip =
      if q = call.process ∧ ip = call.ip then some (copied now time) else s.cached q ip :=
    fun q ip => found_cached hfound.1 hlasts
  have hreply := reply_check_found (s := s) (i := i) hfound.1 hlasts
  have hclock : (s.reply now i call (some time)).clock = s.clock := by rw [hreply]; rfl
  have hredis : (s.reply now i call (some time)).redis = s.redis := by rw [hreply]; rfl
  have hledger : (s.reply now i call (some time)).ledger = s.ledger := by rw [hreply]; rfl
  have hcalls : ∀ other ∈ (s.reply now i call (some time)).calls, other ∈ s.calls := by
    rw [hreply]
    exact fun other => List.mem_of_mem_eraseIdx
  have howed : ∀ q other expiry, (s.reply now i call (some time)).Owes
      (s.reply now i call (some time)).clock q other expiry ↔ s.Owes now q other expiry := by
    intro q other expiry
    rw [Owes, Owes, hledger, hclock, hnow]
  apply Iff.intro
  · intro hnew
    apply And.intro
    · have hlonger : (s.reply now i call (some time)).clock < copied now time := by
        rw [hclock, hnow]
        exact lt_of_lt_of_le hlasts (le_copied now time)
      have hbound := (hnew.cached call.process call.ip (copied now time)
        (by rw [hcached, if_pos ⟨rfl, rfl⟩]) hlonger).1
      rwa [hledger] at hbound
    · intro expiry howes
      refine (hnew.guarded call.process call.ip expiry ((howed _ _ _).mpr howes)).imp ?_ ?_
      · rintro ⟨last, hlast, hlong⟩
        rw [hcached, if_pos ⟨rfl, rfl⟩] at hlast
        cases hlast
        exact hlong
      · rw [StoredUntil, StoredUntil, hredis]
        exact id
  · rintro ⟨hbound, hlonger⟩
    refine ⟨?_, ?_, ?_, ?_⟩
    · intro q other expiry howes
      rw [howed] at howes
      by_cases hsame : q = call.process ∧ other = call.ip
      · obtain ⟨rfl, rfl⟩ := hsame
        refine (hlonger expiry howes).imp ?_ ?_
        · exact fun hlong => ⟨copied now time, by rw [hcached, if_pos ⟨rfl, rfl⟩], hlong⟩
        · rw [StoredUntil, StoredUntil, hredis]
          exact id
      · rw [← hnow] at howes
        refine (hsound.guarded q other expiry howes).imp ?_ ?_
        · rw [CachedUntil, CachedUntil, hcached, if_neg hsame]
          exact id
        · rw [StoredUntil, StoredUntil, hredis]
          exact id
    · intro other hother htold expiry howes
      rw [howed, ← hnow] at howes
      exact hsound.told other (hcalls other hother) htold expiry howes
    · intro q other last hlast htime
      rw [hclock] at htime
      rw [hcached] at hlast
      rw [hledger]
      split_ifs at hlast with hsame
      · obtain ⟨rfl, rfl⟩ := hsame
        cases hlast
        exact ⟨hbound, hsound.found call (List.mem_of_getElem? hcall) time hfound
          (by rw [hnow]; exact hlasts)⟩
      · exact hsound.cached q other last hlast htime
    · intro other hother last hlast htime
      rw [hclock] at htime
      rw [hledger]
      exact hsound.found other (hcalls other hother) last hlast htime

/-! ## The end of an unban -/

variable (ledger : BanLedger) (bans : Option ℕ)

theorem lift_recorded : (ledger.lift p ip bans).recorded = ledger.recorded := by
  rw [BanLedger.lift]
  split_ifs <;> rfl

theorem lift_ordered : (ledger.lift p ip bans).ordered = ledger.ordered := by
  rw [BanLedger.lift]
  split_ifs <;> rfl

theorem lift_apply (bans : ℕ) :
    (ledger.lift p ip (some bans)).lifted q ip' =
      if q = p ∧ ip' = ip then some bans else ledger.lifted q ip' := by
  rw [BanLedger.lift, if_neg nofun]
  exact update_update _ _

theorem lift_lifted (bans : ℕ) :
    (ledger.lift p ip (some bans)).Lifted q ip' ↔
      if q = p ∧ ip' = ip then bans = (ledger.recorded ip).length else ledger.Lifted q ip' := by
  rw [BanLedger.Lifted, lift_apply, lift_recorded]
  split_ifs with hsame
  · rw [hsame.2]
    exact Option.some_inj
  · rfl

theorem Kept.lift (hkept : Kept digest s) (hcall : s.calls[i]? = some call) {bans : ℕ}
    (hop : call.op = .unban (some bans)) (hreply : call.reply ≠ none) (result : Option ℤ) :
    Kept digest (s.reply now i call result) := by
  have hmem := List.mem_of_getElem? hcall
  have hnot : ∀ other, s.NotBanning other → (s.reply now i call result).NotBanning other := by
    rw [reply_unban hop]
    exact fun other hnot c hc => hnot c (List.mem_of_mem_eraseIdx hc)
  rw [reply_unban hop] at hnot ⊢
  have hrecorded : (s.ledger.lift call.process call.ip (some bans)).recorded =
      s.ledger.recorded := lift_recorded _ _
  refine ⟨hkept.clock, ?_, ?_, ?_, ?_, ?_⟩
  · exact hrecorded ▸ hkept.stored
  · intro c hc time hfound
    exact hrecorded ▸ hkept.found c (List.mem_of_mem_eraseIdx hc) time hfound
  · intro c hc ttlSeconds expiry hban
    exact hrecorded ▸ hkept.bans c (List.mem_of_mem_eraseIdx hc) ttlSeconds expiry hban
  · intro c hc n hunban
    change n ≤ ((s.ledger.lift call.process call.ip (some bans)).recorded c.ip).length ∧
      (n = ((s.ledger.lift call.process call.ip (some bans)).recorded c.ip).length → _)
    obtain ⟨hle, hlast⟩ := hkept.unbans c (List.mem_of_mem_eraseIdx hc) n hunban
    rw [hrecorded]
    exact ⟨hle, fun heq => ⟨hnot _ (hlast heq).1, (hlast heq).2⟩⟩
  · intro q other n hlifted
    change n ≤ ((s.ledger.lift call.process call.ip (some bans)).recorded other).length ∧
      (n = ((s.ledger.lift call.process call.ip (some bans)).recorded other).length → _)
    change (s.ledger.lift call.process call.ip (some bans)).lifted q other = some n at hlifted
    rw [hrecorded]
    rw [lift_apply] at hlifted
    split_ifs at hlifted with hsame
    · obtain ⟨rfl, rfl⟩ := hsame
      cases hlifted
      obtain ⟨hle, hlast⟩ := hkept.unbans call hmem bans hop
      exact ⟨hle, fun heq => ⟨hnot _ (hlast heq).1, (hlast heq).2 hreply⟩⟩
    · obtain ⟨hle, hlast⟩ := hkept.lifted q other n hlifted
      exact ⟨hle, fun heq => ⟨hnot _ (hlast heq).1, (hlast heq).2⟩⟩

theorem Sound.lift_iff (hsound : Sound digest s) (hnow : s.clock = now)
    (hcall : s.calls[i]? = some call) {bans : ℕ} (hop : call.op = .unban (some bans))
    (result : Option ℤ) :
    Sound digest (s.reply now i call result) ↔
      (bans = (s.ledger.recorded call.ip).length →
        (∀ time, s.cached call.process call.ip = some time → time ≤ now) ∧
          ∀ other ∈ s.calls, other.process = call.process → other.ip = call.ip →
            ∀ time, other.Found time → time ≤ now) := by
  have hrecorded : (s.ledger.lift call.process call.ip (some bans)).recorded =
      s.ledger.recorded := lift_recorded _ _
  have hordered : (s.ledger.lift call.process call.ip (some bans)).ordered =
      s.ledger.ordered := lift_ordered _ _
  rw [reply_unban hop]
  apply Iff.intro
  · intro hnew heq
    have hlifted :
        (s.ledger.lift call.process call.ip (some bans)).Lifted call.process call.ip := by
      rw [lift_lifted, if_pos ⟨rfl, rfl⟩]
      exact heq
    apply And.intro
    · intro time hcached
      by_contra hlater
      exact (hnew.cached call.process call.ip time hcached
        (lt_of_le_of_lt (le_of_eq hnow) (not_le.mp hlater))).2 hlifted
    · intro other hother hprocess hip time hfound
      by_contra hlater
      have hne : other ≠ call := by
        rintro rfl
        exact absurd (hop.symm.trans hfound.1) nofun
      refine hnew.found other (mem_eraseIdx_of_ne hcall hother hne) time hfound
        (lt_of_le_of_lt (le_of_eq hnow) (not_le.mp hlater)) ?_
      rw [hprocess, hip]
      exact hlifted
  · intro hover
    have howed : ∀ q other expiry, s.Owes s.clock q other expiry ↔
        (s.ledger.lift call.process call.ip (some bans)).ordered q other = some expiry ∧
          s.clock < expiry := by
      intro q other expiry
      rw [hordered]
      rfl
    refine ⟨?_, ?_, ?_, ?_⟩
    · exact fun q other expiry howes =>
        hsound.guarded q other expiry ((howed q other expiry).mpr howes)
    · exact fun other hother htold expiry howes =>
        hsound.told other (List.mem_of_mem_eraseIdx hother) htold expiry ((howed _ _ _).mpr howes)
    · intro q other time hcached htime
      obtain ⟨hbound, hnot⟩ := hsound.cached q other time hcached htime
      refine ⟨hrecorded ▸ hbound, fun hlifted => ?_⟩
      rw [lift_lifted] at hlifted
      split_ifs at hlifted with hsame
      · obtain ⟨rfl, rfl⟩ := hsame
        have hend := (hover hlifted).1 time hcached
        exact absurd htime (not_lt.mpr (le_trans hend (le_of_eq hnow.symm)))
      · exact hnot hlifted
    · intro other hother time hfound htime hlifted
      have hmem := List.mem_of_mem_eraseIdx hother
      rw [lift_lifted] at hlifted
      split_ifs at hlifted with hsame
      · have hend := (hover hlifted).2 other hmem hsame.1 hsame.2 time hfound
        exact absurd htime (not_lt.mpr (le_trans hend (le_of_eq hnow.symm)))
      · exact hsound.found other hmem time hfound htime hlifted

end BanState

end Fluxora.Redis.Bans
