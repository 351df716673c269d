/-
# The steps of the ban store

What each step does to what is ordered, cached and stored, and what it must meet so that the
state stays sound: a ban, an unban, a command that Redis carries out, a copy to the cache, and
the end of an unban.
-/

import Fluxora.Redis.BanRules

namespace Fluxora.Redis.Bans

open Lib.Transition Lib.Split

variable {digest : Digest} {s s' : BanState} {label : BanLabel} {p q : Process} {ip ip' : String}
  {now : ℤ}

/-! ## Entries of one process and one address -/

theorem buildKey_inj (h : buildKey digest ip = buildKey digest ip') : ip = ip' := by
  have hsanitised : sanitiseIp digest ip = sanitiseIp digest ip' := by
    rw [← String.toList_inj, buildKey, buildKey, String.toList_append, String.toList_append] at h
    exact String.toList_inj.mp (List.append_cancel_left h)
  rw [sanitiseIp, sanitiseIp] at hsanitised
  split_ifs at hsanitised with hempty hempty' hempty'
  · rw [hempty, hempty']
  · exact absurd hsanitised.symm (digest.ne_unknown ip')
  · exact absurd hsanitised (digest.ne_unknown ip)
  · exact digest.injective hsanitised

theorem update_update {α : Type} (table : Process → String → α) (value : α) :
    Function.update table p (Function.update (table p) ip value) q ip' =
      if q = p ∧ ip' = ip then value else table q ip' := by
  by_cases hq : q = p
  · subst hq
    rw [Function.update_self, Function.update_apply]
    simp only [true_and]
  · rw [Function.update_of_ne hq, if_neg fun h => hq h.1]

namespace BanState

theorem cached_setStore (store : HybridBanStore) :
    (s.setStore p store).cached q ip =
      if q = p then store.localCache.bans ip else s.cached q ip := by
  change (Function.update s.stores p store q).localCache.bans ip = _
  rw [Function.update_apply]
  split_ifs <;> rfl

theorem cached_put (value : Option ℤ) :
    (s.setCache p ⟨Function.update (s.stores p).localCache.bans ip value⟩).cached q ip' =
      if q = p ∧ ip' = ip then value else s.cached q ip' := by
  rw [setCache, cached_setStore]
  by_cases hq : q = p
  · subst hq
    rw [if_pos rfl]
    change Function.update (s.stores q).localCache.bans ip value ip' = _
    rw [Function.update_apply]
    simp only [true_and, cached]
  · rw [if_neg hq, if_neg fun h => hq h.1]

/-! ## A ban -/

variable {ttlSeconds : ℤ}

theorem ban_of_nonpos (hnonpos : ttlSeconds ≤ 0) : s.ban p ip now ttlSeconds = s := by
  rw [ban, InMemoryBanStore.ban, if_pos hnonpos]

theorem ban_of_pos (hpos : 0 < ttlSeconds) :
    s.ban p ip now ttlSeconds =
      { (s.setCache p ⟨Function.update (s.stores p).localCache.bans ip
          (some (now + ttlSeconds * 1000))⟩).send p ip
            (.ban ttlSeconds (now + ttlSeconds * 1000)) with
        ledger := s.ledger.record p ip (now + ttlSeconds * 1000) } := by
  rw [ban, InMemoryBanStore.ban, if_neg (not_le.mpr hpos)]

theorem ban_cached (hpos : 0 < ttlSeconds) :
    (s.ban p ip now ttlSeconds).cached q ip' =
      if q = p ∧ ip' = ip then some (now + ttlSeconds * 1000) else s.cached q ip' := by
  rw [ban_of_pos hpos]
  exact cached_put _

theorem ban_ordered (hpos : 0 < ttlSeconds) :
    (s.ban p ip now ttlSeconds).ledger.ordered q ip' =
      if q = p ∧ ip' = ip then some (now + ttlSeconds * 1000) else s.ledger.ordered q ip' := by
  rw [ban_of_pos hpos]
  exact update_update _ _

theorem ban_recorded (hpos : 0 < ttlSeconds) :
    (s.ban p ip now ttlSeconds).ledger.recorded ip' =
      if ip' = ip then s.ledger.recorded ip ++ [now + ttlSeconds * 1000]
      else s.ledger.recorded ip' := by
  rw [ban_of_pos hpos]
  exact Function.update_apply _ _ _ _

theorem mem_ban_recorded {expiry : ℤ} (hpos : 0 < ttlSeconds) (h : expiry ∈ s.ledger.recorded ip') :
    expiry ∈ (s.ban p ip now ttlSeconds).ledger.recorded ip' := by
  rw [ban_recorded hpos]
  split_ifs with hip
  · subst hip
    exact List.mem_append_left _ h
  · exact h

theorem ban_recorded_length (hpos : 0 < ttlSeconds) :
    ((s.ban p ip now ttlSeconds).ledger.recorded ip').length =
      if ip' = ip then (s.ledger.recorded ip').length + 1
      else (s.ledger.recorded ip').length := by
  rw [ban_recorded hpos]
  split_ifs with hip
  · subst hip
    exact List.length_append
  · rfl

theorem mem_ban_calls (hpos : 0 < ttlSeconds) {call : BanCall} :
    call ∈ (s.ban p ip now ttlSeconds).calls ↔
      call ∈ s.calls ∨ call = ⟨p, ip, .ban ttlSeconds (now + ttlSeconds * 1000), none⟩ := by
  rw [ban_of_pos hpos]
  exact List.mem_append.trans (or_congr Iff.rfl List.mem_singleton)

theorem Kept.ban (hkept : Kept digest s) (hnow : s.clock = now) (ttlSeconds : ℤ) :
    Kept digest (s.ban p ip now ttlSeconds) := by
  rcases lt_or_ge 0 ttlSeconds with hpos | hnonpos
  swap
  · rw [ban_of_nonpos hnonpos]
    exact hkept
  have hsame : (s.ban p ip now ttlSeconds).clock = s.clock ∧
      (s.ban p ip now ttlSeconds).redis = s.redis ∧
      (s.ban p ip now ttlSeconds).ledger.lifted = s.ledger.lifted := by
    rw [ban_of_pos hpos]
    exact ⟨rfl, rfl, rfl⟩
  obtain ⟨hclock, hredis, hlifts⟩ := hsame
  have hlast : ∀ other bans, bans ≤ (s.ledger.recorded other).length →
      bans = ((s.ban p ip now ttlSeconds).ledger.recorded other).length →
        other ≠ ip ∧ bans = (s.ledger.recorded other).length := by
    intro other bans hle heq
    rw [ban_recorded_length hpos] at heq
    split_ifs at heq with hother
    · omega
    · exact ⟨hother, heq⟩
  have hle : ∀ other bans, bans ≤ (s.ledger.recorded other).length →
      bans ≤ ((s.ban p ip now ttlSeconds).ledger.recorded other).length := by
    intro other bans h
    rw [ban_recorded_length hpos]
    split_ifs <;> omega
  have hnot : ∀ other, other ≠ ip → s.NotBanning other →
      (s.ban p ip now ttlSeconds).NotBanning other := by
    intro other hother hnot call hcall hip
    rcases (mem_ban_calls hpos).mp hcall with hold | rfl
    · exact hnot call hold hip
    · exact absurd hip.symm hother
  refine ⟨?_, ?_, ?_, ?_, ?_, ?_⟩
  · rw [hclock]
    exact hkept.clock
  · intro other entry hentry
    rw [hredis] at hentry
    obtain ⟨hmem, hlives⟩ := hkept.stored other entry hentry
    exact ⟨mem_ban_recorded hpos hmem, hlives⟩
  · intro call hcall time hfound
    rcases (mem_ban_calls hpos).mp hcall with hold | rfl
    · exact mem_ban_recorded hpos (hkept.found call hold time hfound)
    · exact absurd hfound.1 nofun
  · intro call hcall seconds expiry hop
    rw [hclock]
    rcases (mem_ban_calls hpos).mp hcall with hold | rfl
    · obtain ⟨hmem, hbefore⟩ := hkept.bans call hold seconds expiry hop
      exact ⟨mem_ban_recorded hpos hmem, hbefore⟩
    · cases hop
      rw [ban_recorded hpos, if_pos rfl, hnow]
      exact ⟨List.mem_append_right _ (List.mem_singleton.mpr rfl), le_rfl⟩
  · intro call hcall bans hop
    rw [hredis]
    rcases (mem_ban_calls hpos).mp hcall with hold | rfl
    · obtain ⟨hold_le, hold_last⟩ := hkept.unbans call hold bans hop
      refine ⟨hle _ _ hold_le, fun heq => ?_⟩
      obtain ⟨hother, heq⟩ := hlast _ _ hold_le heq
      exact ⟨hnot _ hother (hold_last heq).1, (hold_last heq).2⟩
    · cases hop
  · intro q other bans hlifted
    rw [hlifts] at hlifted
    rw [hredis]
    obtain ⟨hold_le, hold_last⟩ := hkept.lifted q other bans hlifted
    refine ⟨hle _ _ hold_le, fun heq => ?_⟩
    obtain ⟨hother, heq⟩ := hlast _ _ hold_le heq
    exact ⟨hnot _ hother (hold_last heq).1, (hold_last heq).2⟩

theorem ban_lifted (hkept : Kept digest s) (hpos : 0 < ttlSeconds)
    (hlifted : (s.ban p ip now ttlSeconds).ledger.Lifted q ip') :
    ip' ≠ ip ∧ s.ledger.Lifted q ip' := by
  rw [BanLedger.Lifted, ban_recorded_length hpos, ban_of_pos hpos] at hlifted
  have hle := (hkept.lifted q ip' _ hlifted).1
  split_ifs at hlifted hle with hip
  · omega
  · exact ⟨hip, hlifted⟩

/-- The new ban is in the cache, and a state stays sound just if no check of the address by
the process has been told that there is none. -/
theorem Sound.ban_iff (hkept : Kept digest s) (hsound : Sound digest s) (hnow : s.clock = now)
    (hpos : 0 < ttlSeconds) :
    Sound digest (s.ban p ip now ttlSeconds) ↔
      ∀ call ∈ s.calls, call.process = p → call.ip = ip → ¬ call.ToldNothing := by
  have hclock : (s.ban p ip now ttlSeconds).clock = s.clock := by rw [ban_of_pos hpos]; rfl
  have hredis : (s.ban p ip now ttlSeconds).redis = s.redis := by rw [ban_of_pos hpos]; rfl
  have hlater : s.clock < now + ttlSeconds * 1000 := by omega
  apply Iff.intro
  · intro hnew call hcall hprocess hip htold
    refine hnew.told call ((mem_ban_calls hpos).mpr (Or.inl hcall)) htold
      (now + ttlSeconds * 1000) ⟨?_, ?_⟩
    · rw [ban_ordered hpos, if_pos ⟨hprocess, hip⟩]
    · rw [hclock]
      exact hlater
  · intro hfree
    have howed : ∀ q other expiry, ¬ (q = p ∧ other = ip) →
        (s.ban p ip now ttlSeconds).Owes s.clock q other expiry →
          s.Owes s.clock q other expiry := by
      rintro q other expiry hother ⟨hordered, htime⟩
      rw [ban_ordered hpos, if_neg hother] at hordered
      exact ⟨hordered, htime⟩
    refine ⟨?_, ?_, ?_, ?_⟩
    · intro q other expiry howes
      rw [hclock] at howes
      by_cases hsame : q = p ∧ other = ip
      · refine Or.inl ⟨now + ttlSeconds * 1000, ?_, ?_⟩
        · rw [ban_cached hpos, if_pos hsame]
        · have hordered := howes.1
          rw [ban_ordered hpos, if_pos hsame] at hordered
          cases hordered
          exact le_rfl
      · refine (hsound.guarded q other expiry (howed q other expiry hsame howes)).imp ?_ ?_
        · rw [CachedUntil, CachedUntil, ban_cached hpos, if_neg hsame]
          exact id
        · rw [StoredUntil, StoredUntil, hredis]
          exact id
    · intro call hcall htold expiry howes
      rw [hclock] at howes
      rcases (mem_ban_calls hpos).mp hcall with hold | rfl
      · exact hsound.told call hold htold expiry (howed _ _ _
          (fun hsame => hfree call hold hsame.1 hsame.2 htold) howes)
      · rcases htold with ⟨hop, -⟩ | ⟨hop, -⟩ <;> cases hop
    · intro q other time hcached htime
      rw [hclock] at htime
      rw [ban_cached hpos] at hcached
      by_cases hsame : q = p ∧ other = ip
      · rw [if_pos hsame] at hcached
        cases hcached
        obtain ⟨rfl, rfl⟩ := hsame
        refine ⟨⟨now + ttlSeconds * 1000, ?_, le_rfl⟩, fun h => (ban_lifted hkept hpos h).1 rfl⟩
        rw [ban_recorded hpos, if_pos rfl]
        exact List.mem_append_right _ (List.mem_singleton.mpr rfl)
      · rw [if_neg hsame] at hcached
        obtain ⟨⟨expiry, hmem, hlong⟩, hnot⟩ := hsound.cached q other time hcached htime
        exact ⟨⟨expiry, mem_ban_recorded hpos hmem, hlong⟩,
          fun h => hnot (ban_lifted hkept hpos h).2⟩
    · intro call hcall time hfound htime
      rw [hclock] at htime
      rcases (mem_ban_calls hpos).mp hcall with hold | rfl
      · exact fun h => hsound.found call hold time hfound htime (ban_lifted hkept hpos h).2
      · cases hfound.1

/-! ## An unban -/

theorem notBanning_iff : s.NotBanning ip ↔ s.banning ip = false := by
  rw [NotBanning, banning, List.any_eq_false]
  refine forall₂_congr fun call _ => ?_
  rw [Bool.not_eq_true, Bool.and_eq_false_imp, decide_eq_true_iff]

theorem unban_cached :
    (s.unban p ip).cached q ip' = if q = p ∧ ip' = ip then none else s.cached q ip' :=
  cached_put none

theorem unban_ordered :
    (s.unban p ip).ledger.ordered q ip' =
      if q = p ∧ ip' = ip then none else s.ledger.ordered q ip' :=
  update_update _ _

theorem mem_unban_calls {call : BanCall} :
    call ∈ (s.unban p ip).calls ↔ call ∈ s.calls ∨ call = ⟨p, ip, .unban
      (if s.banning ip then none else some (s.ledger.recorded ip).length), none⟩ :=
  List.mem_append.trans (or_congr Iff.rfl List.mem_singleton)

theorem Kept.unban (hkept : Kept digest s) : Kept digest (s.unban p ip) := by
  have hnot : ∀ other, s.NotBanning other → (s.unban p ip).NotBanning other := by
    intro other hnot call hcall hip
    rcases mem_unban_calls.mp hcall with hold | rfl
    · exact hnot call hold hip
    · rfl
  refine ⟨hkept.clock, hkept.stored, ?_, ?_, ?_, ?_⟩
  · intro call hcall time hfound
    rcases mem_unban_calls.mp hcall with hold | rfl
    · exact hkept.found call hold time hfound
    · exact absurd hfound.1 nofun
  · intro call hcall ttlSeconds expiry hop
    rcases mem_unban_calls.mp hcall with hold | rfl
    · exact hkept.bans call hold ttlSeconds expiry hop
    · cases hop
  · intro call hcall bans hop
    rcases mem_unban_calls.mp hcall with hold | rfl
    · obtain ⟨hle, hlast⟩ := hkept.unbans call hold bans hop
      exact ⟨hle, fun heq => ⟨hnot _ (hlast heq).1, (hlast heq).2⟩⟩
    · have hfree : s.banning ip = false ∧ (s.ledger.recorded ip).length = bans := by
        have hbans := BanOp.unban.inj hop
        split_ifs at hbans with hbanning
        exact ⟨Bool.eq_false_iff.mpr hbanning, Option.some.inj hbans⟩
      exact ⟨le_of_eq hfree.2.symm, fun _ => ⟨hnot _ (notBanning_iff.mpr hfree.1), absurd rfl⟩⟩
  · intro q other bans hlifted
    obtain ⟨hle, hlast⟩ := hkept.lifted q other bans hlifted
    exact ⟨hle, fun heq => ⟨hnot _ (hlast heq).1, (hlast heq).2⟩⟩

theorem Sound.unban (hsound : Sound digest s) : Sound digest (s.unban p ip) := by
  have howed : ∀ q other expiry, (s.unban p ip).Owes s.clock q other expiry →
      ¬ (q = p ∧ other = ip) ∧ s.Owes s.clock q other expiry := by
    rintro q other expiry ⟨hordered, htime⟩
    rw [unban_ordered] at hordered
    split_ifs at hordered with hsame
    exact ⟨hsame, hordered, htime⟩
  refine ⟨?_, ?_, ?_, ?_⟩
  · intro q other expiry howes
    obtain ⟨hsame, hold⟩ := howed q other expiry howes
    refine (hsound.guarded q other expiry hold).imp ?_ id
    rw [CachedUntil, CachedUntil, unban_cached, if_neg hsame]
    exact id
  · intro call hcall htold expiry howes
    rcases mem_unban_calls.mp hcall with hold | rfl
    · exact hsound.told call hold htold expiry (howed _ _ _ howes).2
    · rcases htold with ⟨hop, -⟩ | ⟨hop, -⟩ <;> cases hop
  · intro q other time hcached htime
    rw [unban_cached] at hcached
    split_ifs at hcached with hsame
    exact hsound.cached q other time hcached htime
  · intro call hcall time hfound htime
    rcases mem_unban_calls.mp hcall with hold | rfl
    · exact hsound.found call hold time hfound htime
    · exact absurd hfound.1 nofun

/-! ## A command that Redis carries out -/

section

variable {i : ℕ} {call : BanCall}

/-- The call after its command has been carried out. -/
def executed (digest : Digest) (s : BanState) (now : ℤ) (call : BanCall) : BanCall :=
  { call with reply := some ((call.command digest).execute s.redis now).2 }

theorem mem_execute_calls (hcall : s.calls[i]? = some call) {other : BanCall}
    (hother : other ∈ (s.execute digest now i call).calls) :
    other = s.executed digest now call ∨ other ∈ s.calls := by
  have hchanged := mem_modify hcall hother
  exact hchanged

theorem executed_found {time : ℤ} (hfound : (s.executed digest now call).Found time) :
    ∃ last, s.redis (buildKey digest call.ip) = some ⟨time, last⟩ := by
  obtain ⟨hop, hreply⟩ := hfound
  have hget : Lib.TtlTable.get s.redis now (buildKey digest call.ip) = some time := by
    have hresult := Option.some.inj hreply
    rw [BanCall.command, show call.op = .check from hop] at hresult
    exact hresult
  obtain ⟨last, hentry, -⟩ := Lib.TtlTable.get_eq_some_iff.mp hget
  exact ⟨last, hentry⟩

theorem execute_notBanning (hcall : s.calls[i]? = some call) (hnot : s.NotBanning ip) :
    (s.execute digest now i call).NotBanning ip := by
  intro other hother hip
  rcases mem_execute_calls hcall hother with rfl | hold
  · exact hnot call (List.mem_of_getElem? hcall) hip
  · exact hnot other hold hip

theorem execute_redis (digest : Digest) (s : BanState) (now : ℤ) (i : ℕ) (call : BanCall) :
    (s.execute digest now i call).redis = match call.op with
      | .check => s.redis
      | .ban ttlSeconds time => Lib.TtlTable.set s.redis now (buildKey digest call.ip) time
          (ttlSeconds * 1000)
      | _ => Lib.TtlTable.del s.redis (buildKey digest call.ip) := by
  rw [execute, BanCall.command]
  cases call.op <;> rfl

theorem execute_redis_none (hcall : s.calls[i]? = some call) (hnot : s.NotBanning ip)
    (hnone : s.redis (buildKey digest ip) = none) :
    (s.execute digest now i call).redis (buildKey digest ip) = none := by
  have hdel : Lib.TtlTable.del s.redis (buildKey digest call.ip) (buildKey digest ip) = none := by
    by_cases hkey : buildKey digest ip = buildKey digest call.ip
    · rw [hkey, Lib.TtlTable.del_self]
    · rw [Lib.TtlTable.del_of_ne hkey, hnone]
  rw [execute_redis]
  cases hop : call.op with
  | check => exact hnone
  | cleanUp | unban => exact hdel
  | ban =>
    have hkey : buildKey digest ip ≠ buildKey digest call.ip := by
      intro h
      have hban := hnot call (List.mem_of_getElem? hcall) (buildKey_inj h).symm
      rw [hop] at hban
      cases hban
    exact (Lib.TtlTable.set_of_ne hkey).trans hnone

theorem Kept.execute (hkept : Kept digest s) (hnow : s.clock = now)
    (hcall : s.calls[i]? = some call) : Kept digest (s.execute digest now i call) := by
  have hmem : call ∈ s.calls := List.mem_of_getElem? hcall
  refine ⟨hkept.clock, ?_, ?_, ?_, ?_, ?_⟩
  · intro other entry hentry
    have hdel : Lib.TtlTable.del s.redis (buildKey digest call.ip) (buildKey digest other) =
        some entry → entry.value ∈ s.ledger.recorded other ∧ entry.value ≤ entry.expireAt :=
      fun h => hkept.stored other entry (Lib.TtlTable.of_del h).2
    rw [execute_redis] at hentry
    cases hop : call.op with
    | check =>
      rw [hop] at hentry
      exact hkept.stored other entry hentry
    | cleanUp | unban =>
      rw [hop] at hentry
      exact hdel hentry
    | ban ttlSeconds time =>
      rw [hop] at hentry
      by_cases hkey : buildKey digest other = buildKey digest call.ip
      · simp only [hkey, Lib.TtlTable.set_self, Option.some.injEq] at hentry
        subst hentry
        rw [buildKey_inj hkey, ← hnow]
        exact hkept.bans call hmem ttlSeconds time hop
      · exact hkept.stored other entry ((Lib.TtlTable.set_of_ne hkey).symm.trans hentry)
  · intro other hother time hfound
    rcases mem_execute_calls hcall hother with rfl | hold
    · obtain ⟨last, hentry⟩ := executed_found hfound
      exact (hkept.stored call.ip _ hentry).1
    · exact hkept.found other hold time hfound
  · intro other hother ttlSeconds expiry hop
    rcases mem_execute_calls hcall hother with rfl | hold
    · exact hkept.bans call hmem ttlSeconds expiry hop
    · exact hkept.bans other hold ttlSeconds expiry hop
  · intro other hother bans hop
    rcases mem_execute_calls hcall hother with rfl | hold
    · obtain ⟨hle, hlast⟩ := hkept.unbans call hmem bans hop
      refine ⟨hle, fun heq => ⟨execute_notBanning hcall (hlast heq).1, fun _ => ?_⟩⟩
      rw [execute_redis, show call.op = .unban (some bans) from hop]
      exact Lib.TtlTable.del_self
    · obtain ⟨hle, hlast⟩ := hkept.unbans other hold bans hop
      exact ⟨hle, fun heq => ⟨execute_notBanning hcall (hlast heq).1, fun hreply =>
        execute_redis_none hcall (hlast heq).1 ((hlast heq).2 hreply)⟩⟩
  · intro q other bans hlifted
    obtain ⟨hle, hlast⟩ := hkept.lifted q other bans hlifted
    exact ⟨hle, fun heq => ⟨execute_notBanning hcall (hlast heq).1,
      execute_redis_none hcall (hlast heq).1 (hlast heq).2⟩⟩

theorem Sound.execute_iff_parts (hkept : Kept digest s) (hsound : Sound digest s)
    (hnow : s.clock = now) (hcall : s.calls[i]? = some call) :
    Sound digest (s.execute digest now i call) ↔
      (∀ q other expiry, s.Owes now q other expiry → s.CachedUntil q other expiry ∨
        (s.execute digest now i call).StoredUntil digest other expiry) ∧
      ((s.executed digest now call).ToldNothing →
        ∀ expiry, ¬ s.Owes now call.process call.ip expiry) := by
  subst hnow
  apply Iff.intro
  · intro hnew
    exact ⟨hnew.guarded, hnew.told _ (mem_modify_self hcall)⟩
  · rintro ⟨hguarded, htold⟩
    refine ⟨hguarded, ?_, hsound.cached, ?_⟩
    · intro other hother
      rcases mem_execute_calls hcall hother with rfl | hold
      · exact htold
      · exact hsound.told other hold
    · intro other hother time hfound htime hlifted
      rcases mem_execute_calls hcall hother with rfl | hold
      · obtain ⟨last, hentry⟩ := executed_found hfound
        have hnone : s.redis (buildKey digest call.ip) = none :=
          ((hkept.lifted call.process call.ip _ hlifted).2 rfl).2
        rw [hnone] at hentry
        cases hentry
      · exact hsound.found other hold time hfound htime hlifted

theorem storedUntil_del {redis : RedisTable} {expiry : ℤ} :
    (∃ entry, Lib.TtlTable.del redis (buildKey digest ip) (buildKey digest ip') = some entry ∧
        expiry ≤ entry.value) ↔
      ip' ≠ ip ∧ ∃ entry, redis (buildKey digest ip') = some entry ∧ expiry ≤ entry.value := by
  apply Iff.intro
  · rintro ⟨entry, hentry, hlong⟩
    obtain ⟨hkey, hold⟩ := Lib.TtlTable.of_del hentry
    exact ⟨fun h => hkey (congrArg (buildKey digest) h), entry, hold, hlong⟩
  · rintro ⟨hip, entry, hentry, hlong⟩
    exact ⟨entry, (Lib.TtlTable.del_of_ne fun h => hip (buildKey_inj h)).trans hentry, hlong⟩

theorem guarded_del_iff (hsound : Sound digest s) (hnow : s.clock = now)
    (hredis : (s.execute digest now i call).redis =
      Lib.TtlTable.del s.redis (buildKey digest call.ip)) :
    (∀ q other expiry, s.Owes now q other expiry → s.CachedUntil q other expiry ∨
        (s.execute digest now i call).StoredUntil digest other expiry) ↔
      ∀ q expiry, s.Owes now q call.ip expiry → s.CachedUntil q call.ip expiry := by
  have hstored : ∀ other expiry, (s.execute digest now i call).StoredUntil digest other expiry ↔
      other ≠ call.ip ∧ s.StoredUntil digest other expiry := by
    intro other expiry
    rw [StoredUntil, hredis]
    exact storedUntil_del
  apply Iff.intro
  · intro h q expiry howes
    rcases h q call.ip expiry howes with hcached | hleft
    · exact hcached
    · exact absurd rfl ((hstored call.ip expiry).mp hleft).1
  · intro h q other expiry howes
    by_cases hother : other = call.ip
    · subst hother
      exact Or.inl (h q expiry howes)
    · rw [hstored]
      rw [← hnow] at howes
      exact (hsound.guarded q other expiry howes).imp_right fun hold => ⟨hother, hold⟩

theorem Sound.execute_iff (hkept : Kept digest s) (hsound : Sound digest s)
    (hnow : s.clock = now) (hcall : s.calls[i]? = some call) :
    Sound digest (s.execute digest now i call) ↔ s.ExecutesWell digest now call := by
  rw [Sound.execute_iff_parts hkept hsound hnow hcall, ExecutesWell]
  have hredis := execute_redis digest s now i call
  cases hop : call.op with
  | check =>
    rw [hop] at hredis
    have hguarded : ∀ q other expiry, s.Owes now q other expiry →
        s.CachedUntil q other expiry ∨
          (s.execute digest now i call).StoredUntil digest other expiry := by
      intro q other expiry howes
      rw [StoredUntil, hredis]
      rw [← hnow] at howes
      exact hsound.guarded q other expiry howes
    have htold : (s.executed digest now call).ToldNothing ↔
        Lib.TtlTable.get s.redis now (buildKey digest call.ip) = none := by
      rw [BanCall.ToldNothing, executed, BanCall.command, hop]
      simp only [true_and, reduceCtorEq, false_and, or_false, Option.some.injEq]
      exact Iff.rfl
    rw [htold]
    exact and_iff_right hguarded
  | cleanUp =>
    rw [hop] at hredis
    have htold : (s.executed digest now call).ToldNothing :=
      Or.inr ⟨hop, fun hnone => by cases hnone⟩
    rw [guarded_del_iff hsound hnow hredis, and_comm]
    exact and_congr (forall_prop_of_true htold) Iff.rfl
  | unban =>
    rw [hop] at hredis
    rw [guarded_del_iff hsound hnow hredis]
    refine and_iff_left fun htold => ?_
    rcases htold with ⟨hcheck, -⟩ | ⟨hclean, -⟩
    · cases hop.symm.trans hcheck
    · cases hop.symm.trans hclean
  | ban _ time =>
    rw [hop] at hredis
    change _ = Lib.TtlTable.set s.redis now (buildKey digest call.ip) time _ at hredis
    have hstored : ∀ expiry,
        (s.execute digest now i call).StoredUntil digest call.ip expiry ↔ expiry ≤ time := by
      intro expiry
      rw [StoredUntil, hredis, Lib.TtlTable.set_self]
      apply Iff.intro
      · rintro ⟨entry, hentry, hlong⟩
        cases hentry
        exact hlong
      · exact fun hlong => ⟨_, rfl, hlong⟩
    rw [and_iff_left]
    · apply Iff.intro
      · intro h q expiry howes
        exact (h q call.ip expiry howes).imp_right (hstored expiry).mp
      · intro h q other expiry howes
        by_cases hother : other = call.ip
        · subst hother
          exact (h q expiry howes).imp_right (hstored expiry).mpr
        · rw [StoredUntil, hredis, Lib.TtlTable.set_of_ne fun hkey => hother (buildKey_inj hkey)]
          rw [← hnow] at howes
          exact hsound.guarded q other expiry howes
    · intro htold
      rcases htold with ⟨hcheck, -⟩ | ⟨hclean, -⟩
      · cases hop.symm.trans hcheck
      · cases hop.symm.trans hclean

end

end BanState

end Fluxora.Redis.Bans
