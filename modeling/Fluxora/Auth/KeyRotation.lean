/-
# Rotations that nothing disturbs

As long as no write of an old digest comes after a rotation, and no rotation after a
revocation, an active row holds the raw key that was issued last for it: its digest is
the one of that key under one of the peppers. So the last key is found, and keys of the
past, which differ from it, are not.
-/

import Mathlib.Data.List.Nodup
import Fluxora.Auth.ApiKeys

namespace Fluxora.Auth

open Lib Lib.JsText Lib.Transition

/-! ## Events -/

section

variable {log : List KeyEvent} {event : KeyEvent} {id : String}

theorem lastEvent_append_self : lastEvent (log ++ [event]) event.id = some event := by
  rw [lastEvent, List.filter_append, List.filter_cons_of_pos (by simp), List.filter_nil,
    List.getLast?_append]
  rfl

theorem lastEvent_append_of_ne (hother : event.id ≠ id) :
    lastEvent (log ++ [event]) id = lastEvent log id := by
  rw [lastEvent, List.filter_append, List.filter_cons_of_neg (by simpa using hother),
    List.filter_nil, List.append_nil, lastEvent]

theorem mem_of_lastEvent (h : lastEvent log id = some event) : event ∈ log ∧ event.id = id := by
  have hmem := List.mem_filter.mp (List.mem_of_getLast? h)
  exact ⟨hmem.1, of_decide_eq_true hmem.2⟩

end

/-! ## Lookups -/

section

variable {env : AuthEnv} {s : KeyState} {rawKey pepper : String} {record : ApiKeyRecord}

theorem pepperOf_false : pepperOf env false = configured env.apiKeyPepper := by
  rw [pepperOf]
  cases configured env.apiKeyPepper <;> rfl

theorem pepperOf_true (hpepper : pepperOf env false = some pepper) :
    pepperOf env true = configured env.apiKeyPepperPrevious := by
  rw [pepperOf_false] at hpepper
  rw [pepperOf, hpepper]
  rfl

theorem isSome_pepperOf_false {before : Bool} (h : pepperOf env before = some pepper) :
    (pepperOf env false).isSome := by
  rw [pepperOf_false]
  rw [pepperOf] at h
  cases hcurrent : configured env.apiKeyPepper with
  | none =>
    rw [hcurrent] at h
    cases h
  | some => rfl

theorem lookUp_eq (env : AuthEnv) (s : KeyState) (rawKey : String) :
    s.lookUp env rawKey =
      match s.candidates rawKey with
      | [] => .ok none
      | rows =>
        match pepperOf env false with
        | none => .error "API_KEY_PEPPER is required to hash and validate API keys"
        | some pepper => .ok (rows.reverse.find? (keyMatches env rawKey pepper)) := by
  rw [pepperOf_false, KeyState.lookUp, findRecordByRawKey, KeyState.candidates]
  by_cases hblank : trim (lookupPrefix rawKey).toList = []
  · rw [if_pos hblank]
    have hpure : trim (String.ofList (rawKey.toList.take 8)).toList = [] := hblank
    rw [if_pos hpure]
    rfl
  · have hpure : trim (String.ofList (rawKey.toList.take 8)).toList ≠ [] := hblank
    rw [if_neg hblank, if_neg hpure]
    rfl

theorem mem_candidates : record ∈ s.candidates rawKey ↔
    trim (lookupPrefix rawKey).toList ≠ [] ∧ record ∈ s.rows ∧
      record.keyPrefix = lookupPrefix rawKey ∧ record.active = true := by
  rw [KeyState.candidates]
  by_cases hblank : trim (lookupPrefix rawKey).toList = []
  · simp [hblank]
  · simp [hblank]

theorem of_lookUp (h : s.lookUp env rawKey = .ok (some record)) :
    record ∈ s.rows ∧ record.active = true ∧
      ∃ pepper, pepperOf env false = some pepper ∧
        keyMatches env rawKey pepper record = true := by
  rw [lookUp_eq] at h
  split at h
  · cases h
  · split at h
    · cases h
    · rename_i pepper hpepper
      have hfound := Except.ok.inj h
      have hmem := mem_candidates.mp (List.mem_reverse.mp (List.mem_of_find?_eq_some hfound))
      exact ⟨hmem.2.1, hmem.2.2.2, pepper, hpepper, List.find?_some hfound⟩

theorem exists_lookUp (hpepper : pepperOf env false = some pepper)
    (hrecord : record ∈ s.candidates rawKey)
    (hmatches : keyMatches env rawKey pepper record = true) :
    ∃ found, s.lookUp env rawKey = .ok (some found) := by
  rw [lookUp_eq, hpepper]
  cases hfound : (s.candidates rawKey).reverse.find? (keyMatches env rawKey pepper) with
  | none =>
    rw [List.find?_eq_none] at hfound
    exact absurd hmatches (hfound record (List.mem_reverse.mpr hrecord))
  | some found =>
    refine ⟨found, ?_⟩
    split
    · rename_i hempty
      rw [hempty] at hrecord
      cases hrecord
    · exact congrArg Except.ok hfound

end

/-! ## Rows and the raw keys they hold -/

/-- The row is the one of a raw key. -/
structure Holds (env : AuthEnv) (rawKeys salts : Set String) (row : ApiKeyRecord)
    (rawKey : String) : Prop where
  mem_rawKeys : rawKey ∈ rawKeys
  mem_salts : row.salt ∈ salts
  keyPrefix : row.keyPrefix = lookupPrefix rawKey
  shaped : trim (lookupPrefix rawKey).toList ≠ []
  digest : ∃ before pepper, pepperOf env before = some pepper ∧
    row.keyHash = hashWithPepper env rawKey row.salt pepper

theorem generateRawKey_shaped (random : String) :
    trim (lookupPrefix (generateRawKey random)).toList ≠ [] := by
  have hhead : (lookupPrefix (generateRawKey random)).toList =
      'f' :: ("lx_".toList ++ random.toList).take 7 := by
    rw [lookupPrefix, generateRawKey, String.toList_ofList, String.toList_append]
    rfl
  rw [hhead]
  exact trim_ne_nil_of_head (by decide)

section

variable {env : AuthEnv} {rawKeys salts : Set String} {row : ApiKeyRecord}
  {rawKey other pepper : String}

theorem hashesMatch_self (hfree : CollisionFree env rawKeys salts) (salt : String) :
    hashesMatch (hashWithPepper env rawKey salt pepper) (hashWithPepper env rawKey salt pepper) =
      true := by
  rw [hashesMatch, decide_eq_true_eq]
  exact ⟨rfl, hfree.digest _ _⟩

theorem eq_of_hashesMatch (hfree : CollisionFree env rawKeys salts)
    (hrow : Holds env rawKeys salts row rawKey) (hother : other ∈ rawKeys) {before : Bool}
    (hpepper : pepperOf env before = some pepper)
    (hmatch : hashesMatch (hashWithPepper env other row.salt pepper) row.keyHash = true) :
    other = rawKey := by
  obtain ⟨before', pepper', hpepper', hdigest⟩ := hrow.digest
  rw [hdigest, hashesMatch, decide_eq_true_eq] at hmatch
  have htext := (hfree.injective before before' pepper pepper' _ _ _ _ hpepper hpepper'
    hrow.mem_salts hrow.mem_salts hother hrow.mem_rawKeys hmatch.1).2
  have hchars := congrArg String.toList htext
  rw [String.toList_append, String.toList_append] at hchars
  exact String.toList_inj.mp (List.append_cancel_left hchars)

theorem keyMatches_iff (hfree : CollisionFree env rawKeys salts)
    (hrow : Holds env rawKeys salts row rawKey) (hother : other ∈ rawKeys)
    (hpepper : pepperOf env false = some pepper) :
    keyMatches env other pepper row = true ↔ other = rawKey := by
  rw [keyMatches, Bool.or_eq_true, Option.any_eq_true]
  apply Iff.intro
  · rintro (hcurrent | ⟨previous, hprevious, hmatch⟩)
    · exact eq_of_hashesMatch hfree hrow hother hpepper hcurrent
    · have hbefore : pepperOf env true = some previous := (pepperOf_true hpepper).trans hprevious
      exact eq_of_hashesMatch hfree hrow hother hbefore hmatch
  · rintro rfl
    obtain ⟨before, pepper', hpepper', hdigest⟩ := hrow.digest
    rw [hdigest]
    cases before with
    | false =>
      cases hpepper.symm.trans hpepper'
      exact .inl (hashesMatch_self hfree _)
    | true =>
      rw [pepperOf_true hpepper] at hpepper'
      exact .inr ⟨pepper', hpepper', hashesMatch_self hfree _⟩

theorem Holds.unique (hfree : CollisionFree env rawKeys salts)
    (hrow : Holds env rawKeys salts row rawKey) (hother : Holds env rawKeys salts row other) :
    other = rawKey := by
  obtain ⟨before, pepper, hpepper, hdigest⟩ := hother.digest
  apply eq_of_hashesMatch hfree hrow hother.mem_rawKeys hpepper
  rw [hdigest]
  exact hashesMatch_self hfree _

end

/-! ## The invariant -/

structure Sound (env : AuthEnv) (rawKeys salts : Set String) (s : KeyState) : Prop where
  ids : (s.rows.map ApiKeyRecord.id).Nodup
  /-- An active row holds the raw key issued last. -/
  active : ∀ row ∈ s.rows, row.active = true → ∃ issue rawKey,
    lastEvent s.log row.id = some issue ∧ issue.issued = some rawKey ∧
      Holds env rawKeys salts row rawKey
  inactive : ∀ row ∈ s.rows, row.active = false →
    lastEvent s.log row.id = some (.revoked row.id)
  revoked : ∀ row ∈ s.rows, .revoked row.id ∈ s.log → row.active = false
  events : ∀ event ∈ s.log, event.id ∈ s.rows.map ApiKeyRecord.id
  issued : ∀ event ∈ s.log, ∀ rawKey, event.issued = some rawKey → rawKey ∈ rawKeys
  distinct : (s.log.filterMap KeyEvent.issued).Nodup
  pepper : ∀ id rawKey, .rotated id rawKey ∈ s.log → (pepperOf env false).isSome
  /-- A write belongs to a row there is. Without a rotation in between it brings the digest
  of the raw key that the row holds. -/
  writes : ∀ write ∈ s.writes,
    write.id ∈ s.rows.map ApiKeyRecord.id ∧ write.readAt ≤ s.log.length ∧
      ((∀ rawKey, .rotated write.id rawKey ∉ s.log.drop write.readAt) →
        ∀ row ∈ s.rows, row.id = write.id → row.active = true →
          ∃ rawKey pepper, Holds env rawKeys salts row rawKey ∧
            pepperOf env false = some pepper ∧
            write.keyHash = hashWithPepper env rawKey row.salt pepper)

/-! ## What the invariant says of lookups -/

theorem eq_of_issued {log : List KeyEvent} (hdistinct : (log.filterMap KeyEvent.issued).Nodup)
    {event event' : KeyEvent} {rawKey : String} (hmem : event ∈ log) (hmem' : event' ∈ log)
    (hissued : event.issued = some rawKey) (hissued' : event'.issued = some rawKey) :
    event = event' := by
  induction log with
  | nil => cases hmem
  | cons first rest ih =>
    have hrest : (rest.filterMap KeyEvent.issued).Nodup :=
      hdistinct.sublist ((List.sublist_cons_self _ _).filterMap _)
    -- no later event issues the raw key of the first one
    have hfresh : ∀ later ∈ rest, first.issued = some rawKey → later.issued ≠ some rawKey := by
      intro later hlater hfirst hsame
      rw [List.filterMap_cons_some hfirst, List.nodup_cons] at hdistinct
      exact hdistinct.1 (List.mem_filterMap.mpr ⟨later, hlater, hsame⟩)
    rcases List.mem_cons.mp hmem with rfl | hin
    · rcases List.mem_cons.mp hmem' with rfl | hin'
      · rfl
      · exact absurd hissued' (hfresh event' hin' hissued)
    · rcases List.mem_cons.mp hmem' with rfl | hin'
      · exact absurd hissued (hfresh event hin hissued')
      · exact ih hrest hin hin'

theorem lastEvent_mem_append {before rest : List KeyEvent} {event last : KeyEvent}
    (hevent : event ∈ rest) (h : lastEvent (before ++ rest) event.id = some last) :
    last ∈ rest := by
  have hmem : event ∈ rest.filter (·.id = event.id) :=
    List.mem_filter.mpr ⟨hevent, decide_eq_true rfl⟩
  rw [lastEvent, List.filter_append,
    List.getLast?_append_of_ne_nil _ (List.ne_nil_of_mem hmem)] at h
  exact List.mem_of_mem_filter (List.mem_of_getLast? h)

section

variable {env : AuthEnv} {rawKeys salts : Set String} {s : KeyState}
  {rawKey : String} {record : ApiKeyRecord} {f : ApiKeyRecord → ApiKeyRecord}
  {beforeMigration : Bool}

theorem Sound.of_lookUp (hsound : Sound env rawKeys salts s)
    (hfree : CollisionFree env rawKeys salts) (hrawKey : rawKey ∈ rawKeys)
    (h : s.lookUp env rawKey = .ok (some record)) :
    ∃ issue, lastEvent s.log record.id = some issue ∧ issue.issued = some rawKey := by
  obtain ⟨hrecord, hactive, pepper, hpepper, hmatches⟩ := Auth.of_lookUp h
  obtain ⟨issue, held, hlast, hissued, hholds⟩ := hsound.active record hrecord hactive
  rw [keyMatches_iff hfree hholds hrawKey hpepper] at hmatches
  rw [hmatches]
  exact ⟨issue, hlast, hissued⟩

theorem Sound.rotationAtomic (hsound : Sound env rawKeys salts s)
    (hfree : CollisionFree env rawKeys salts) : RotationAtomic env s := by
  constructor
  · intro id rawKey hlast
    have hmem := (mem_of_lastEvent hlast).1
    obtain ⟨row, hrow, hid⟩ := List.mem_map.mp (hsound.events _ hmem)
    obtain rfl : row.id = id := hid
    have hactive : row.active = true := by
      by_contra hinactive
      have hrevoked := hsound.inactive row hrow (Bool.eq_false_of_not_eq_true hinactive)
      cases hlast.symm.trans hrevoked
    obtain ⟨issue, held, hissue, hissued, hholds⟩ := hsound.active row hrow hactive
    cases hlast.symm.trans hissue
    cases hissued
    obtain ⟨pepper, hpepper⟩ := Option.isSome_iff_exists.mp (hsound.pepper _ _ hmem)
    obtain ⟨record, hfound⟩ := exists_lookUp hpepper
      (mem_candidates.mpr ⟨hholds.shaped, hrow, hholds.keyPrefix, hactive⟩)
      ((keyMatches_iff hfree hholds hholds.mem_rawKeys hpepper).mpr rfl)
    obtain ⟨issue, hissue', hissued'⟩ := hsound.of_lookUp hfree hholds.mem_rawKeys hfound
    have hissueMem := mem_of_lastEvent hissue'
    have hsame := eq_of_issued hsound.distinct hmem hissueMem.1 rfl hissued'
    exact ⟨record, hfound, (hsame ▸ hissueMem.2).symm⟩
  · rintro id rawKey ⟨before, later, issue, next, hlog, hbefore, hid, hissued⟩ record hfound
    have hmem : issue ∈ s.log := by
      rw [hlog]
      exact List.mem_append_left _ hbefore
    obtain ⟨last, hlast, hissued'⟩ :=
      hsound.of_lookUp hfree (hsound.issued issue hmem rawKey hissued) hfound
    have hlastMem := mem_of_lastEvent hlast
    obtain rfl := eq_of_issued hsound.distinct hmem hlastMem.1 hissued hissued'
    -- the last event of the key is the rotation or a later one
    have hrotation : KeyEvent.rotated id next ∈ .rotated id next :: later := List.mem_cons_self
    rw [← hlastMem.2, hid, hlog] at hlast
    have hrest := lastEvent_mem_append hrotation hlast
    have hdistinct := hsound.distinct
    rw [hlog, List.filterMap_append, List.nodup_append'] at hdistinct
    exact hdistinct.2.2 (List.mem_filterMap.mpr ⟨issue, hbefore, hissued⟩)
      (List.mem_filterMap.mpr ⟨issue, hrest, hissued⟩)
  · rintro id hrevoked rawKey record hfound rfl
    obtain ⟨hrecord, hactive, _⟩ := Auth.of_lookUp hfound
    rw [hsound.revoked record hrecord hrevoked] at hactive
    cases hactive

/-! ## Steps -/

variable {rows : List ApiKeyRecord} {id : String}

theorem map_id_update (hid : ∀ row, (f row).id = row.id) :
    (rows.map fun row => if row.id = id then f row else row).map ApiKeyRecord.id =
      rows.map ApiKeyRecord.id := by
  rw [List.map_map]
  apply List.map_congr_left
  intro row _
  rw [Function.comp]
  split_ifs
  · exact hid row
  · rfl

theorem map_update_of_not_mem (hid : id ∉ rows.map ApiKeyRecord.id) :
    (rows.map fun row => if row.id = id then f row else row) = rows := by
  have hsame : ∀ row ∈ rows, (if row.id = id then f row else row) = row := by
    intro row hrow
    apply if_neg
    rintro rfl
    exact hid (List.mem_map_of_mem hrow)
  rw [List.map_congr_left hsame, List.map_id']

theorem not_mem_drop_of_append {log : List KeyEvent} {event rotation : KeyEvent} {n : ℕ}
    (hn : n ≤ log.length) (h : rotation ∉ (log ++ [event]).drop n) :
    rotation ∉ log.drop n ∧ rotation ≠ event := by
  rw [List.drop_append_of_le_length hn, List.mem_append, not_or, List.mem_singleton] at h
  exact h

theorem mem_map_update {row : ApiKeyRecord}
    (hrow : row ∈ rows.map fun row => if row.id = id then f row else row) :
    (row.id ≠ id ∧ row ∈ rows) ∨ ∃ old ∈ rows, old.id = id ∧ row = f old := by
  obtain ⟨old, hold, rfl⟩ := List.mem_map.mp hrow
  by_cases hsame : old.id = id
  · exact .inr ⟨old, hold, hsame, if_pos hsame⟩
  · rw [if_neg hsame]
    exact .inl ⟨hsame, hold⟩

theorem Sound.append (event : KeyEvent) {rotations : List PendingRotation}
    (hsound : Sound env rawKeys salts s) (hids : (rows.map ApiKeyRecord.id).Nodup)
    (hkept : ∀ id, id ∈ s.rows.map ApiKeyRecord.id ∨ id = event.id → id ∈ rows.map ApiKeyRecord.id)
    (hothers : ∀ row ∈ rows, row.id ≠ event.id → row ∈ s.rows)
    (hactive : ∀ row ∈ rows, row.id = event.id → row.active = true → ∃ rawKey, event.issued = some
      rawKey ∧ Holds env rawKeys salts row rawKey)
    (hinactive : ∀ row ∈ rows, row.id = event.id → row.active = false → event = .revoked event.id)
    (hrevoked : ∀ row ∈ rows, row.id = event.id → .revoked event.id ∈ s.log ++ [event] → row.active
      = false)
    (hissued : ∀ rawKey, event.issued = some rawKey → rawKey ∈ rawKeys ∧ some rawKey ∉ s.log.map
      KeyEvent.issued)
    (hpepper : ∀ rawKey, event = .rotated event.id rawKey → (pepperOf env false).isSome)
    (hwrites : ∀ row ∈ rows, row.id = event.id → row.active = true → (∃ rawKey, event = .rotated
      event.id rawKey) ∨ event.id ∉ s.rows.map ApiKeyRecord.id) :
    Sound env rawKeys salts { rows, rotations, writes := s.writes, log := s.log ++ [event] } where
  ids := hids
  active := by
    intro row hrow hrowActive
    by_cases hsame : row.id = event.id
    · obtain ⟨rawKey, hkey, hholds⟩ := hactive row hrow hsame hrowActive
      refine ⟨event, rawKey, ?_, hkey, hholds⟩
      rw [hsame]
      exact lastEvent_append_self
    · obtain ⟨issue, rawKey, hlast, hkey, hholds⟩ :=
        hsound.active row (hothers row hrow hsame) hrowActive
      exact ⟨issue, rawKey, (lastEvent_append_of_ne (Ne.symm hsame)).trans hlast, hkey, hholds⟩
  inactive := by
    intro row hrow hrowInactive
    by_cases hsame : row.id = event.id
    · rw [hsame, ← hinactive row hrow hsame hrowInactive]
      exact lastEvent_append_self
    · exact (lastEvent_append_of_ne (Ne.symm hsame)).trans
        (hsound.inactive row (hothers row hrow hsame) hrowInactive)
  revoked := by
    intro row hrow hrowRevoked
    by_cases hsame : row.id = event.id
    · rw [hsame] at hrowRevoked
      exact hrevoked row hrow hsame hrowRevoked
    · rcases List.mem_append.mp hrowRevoked with hearlier | hnow
      · exact hsound.revoked row (hothers row hrow hsame) hearlier
      · rw [← List.mem_singleton.mp hnow] at hsame
        exact absurd rfl hsame
  events := by
    intro other hother
    rcases List.mem_append.mp hother with hearlier | hnow
    · exact hkept _ (.inl (hsound.events other hearlier))
    · rw [List.mem_singleton.mp hnow]
      exact hkept _ (.inr rfl)
  issued := by
    intro other hother rawKey hkey
    rcases List.mem_append.mp hother with hearlier | hnow
    · exact hsound.issued other hearlier rawKey hkey
    · rw [List.mem_singleton.mp hnow] at hkey
      exact (hissued rawKey hkey).1
  distinct := by
    rw [List.filterMap_append]
    cases hkey : event.issued with
    | none =>
      rw [List.filterMap_cons_none hkey, List.filterMap_nil, List.append_nil]
      exact hsound.distinct
    | some rawKey =>
      rw [List.filterMap_cons_some hkey, List.filterMap_nil]
      apply hsound.distinct.append (List.nodup_singleton _)
      intro other hother hnew
      rw [List.mem_singleton.mp hnew] at hother
      obtain ⟨earlier, hearlier, hsame⟩ := List.mem_filterMap.mp hother
      exact (hissued rawKey hkey).2 (List.mem_map.mpr ⟨earlier, hearlier, hsame⟩)
  pepper := by
    intro id rawKey hrotated
    rcases List.mem_append.mp hrotated with hearlier | hnow
    · exact hsound.pepper id rawKey hearlier
    · rw [List.mem_singleton] at hnow
      exact hpepper rawKey (hnow ▸ rfl)
  writes := by
    intro write hwrite
    obtain ⟨hrow, hread, hundisturbed⟩ := hsound.writes write hwrite
    refine ⟨hkept _ (.inl hrow), ?_, ?_⟩
    · rw [List.length_append]
      omega
    · intro hnone row hmem hsame hrowActive
      by_cases hchanged : row.id = event.id
      · -- a new row has not been read by the write, a changed one has been rotated since
        have hwriteId : write.id = event.id := hsame.symm.trans hchanged
        rcases hwrites row hmem hchanged hrowActive with ⟨rawKey, hrotated⟩ | hfresh
        · have hnot := (not_mem_drop_of_append hread (hnone rawKey)).2
          rw [hwriteId] at hnot
          exact absurd hrotated.symm hnot
        · rw [hwriteId] at hrow
          exact absurd hrow hfresh
      · exact hundisturbed (fun rawKey => (not_mem_drop_of_append hread (hnone rawKey)).1)
          row (hothers row hmem hchanged) hsame hrowActive

theorem Sound.update (event : KeyEvent) {rotations : List PendingRotation}
    (hsound : Sound env rawKeys salts s) (hid : ∀ row, (f row).id = row.id)
    (hmem : event.id ∈ s.rows.map ApiKeyRecord.id)
    (hactive : ∀ row ∈ s.rows, row.id = event.id → (f row).active = true →
      (∃ rawKey, event = .rotated event.id rawKey ∧ Holds env rawKeys salts (f row) rawKey) ∧
        .revoked event.id ∉ s.log)
    (hinactive : ∀ row ∈ s.rows, row.id = event.id → (f row).active = false →
      event = .revoked event.id) (hissued : ∀ rawKey, event.issued = some rawKey →
      rawKey ∈ rawKeys ∧ some rawKey ∉ s.log.map KeyEvent.issued)
    (hpepper : ∀ rawKey, event = .rotated event.id rawKey → (pepperOf env false).isSome) :
    Sound env rawKeys salts
      { rows := s.rows.map fun row => if row.id = event.id then f row else row
        rotations
        writes := s.writes
        log := s.log ++ [event] } := by
  have hchanged : ∀ row ∈ s.rows.map (fun row => if row.id = event.id then f row else row),
      row.id = event.id → ∃ old ∈ s.rows, old.id = event.id ∧ row = f old := fun row hrow hsame =>
    (mem_map_update hrow).resolve_left fun hother => hother.1 hsame
  apply hsound.append event
  · rw [map_id_update hid]
    exact hsound.ids
  · rintro id (hold | rfl)
    · rw [map_id_update hid]
      exact hold
    · rw [map_id_update hid]
      exact hmem
  · intro row hrow hother
    rcases mem_map_update hrow with ⟨_, hkept⟩ | ⟨old, _, hsame, rfl⟩
    · exact hkept
    · exact absurd ((hid old).trans hsame) hother
  · intro row hrow hsame hrowActive
    obtain ⟨old, hold, hid', rfl⟩ := hchanged row hrow hsame
    obtain ⟨⟨rawKey, hevent, hholds⟩, _⟩ := hactive old hold hid' hrowActive
    exact ⟨rawKey, by rw [hevent]; rfl, hholds⟩
  · intro row hrow hsame hrowInactive
    obtain ⟨old, hold, hid', rfl⟩ := hchanged row hrow hsame
    exact hinactive old hold hid' hrowInactive
  · intro row hrow hsame hrevoked
    obtain ⟨old, hold, hid', rfl⟩ := hchanged row hrow hsame
    by_contra hstill
    obtain ⟨⟨rawKey, hevent, _⟩, hnot⟩ :=
      hactive old hold hid' (Bool.eq_true_of_not_eq_false hstill)
    rcases List.mem_append.mp hrevoked with hearlier | hnow
    · exact hnot hearlier
    · cases hevent.symm.trans (List.mem_singleton.mp hnow).symm
  · exact hissued
  · exact hpepper
  · intro row hrow hsame hrowActive
    obtain ⟨old, hold, hid', rfl⟩ := hchanged row hrow hsame
    obtain ⟨⟨rawKey, hevent, _⟩, _⟩ := hactive old hold hid' hrowActive
    exact .inl ⟨rawKey, hevent⟩

theorem Sound.rotations (hsound : Sound env rawKeys salts s) (rotations : List PendingRotation) :
    Sound env rawKeys salts { s with rotations } :=
  ⟨hsound.ids, hsound.active, hsound.inactive, hsound.revoked, hsound.events, hsound.issued,
    hsound.distinct, hsound.pepper, hsound.writes⟩

theorem Sound.revoke (hsound : Sound env rawKeys salts s) (id : String) :
    Sound env rawKeys salts (s.revoke id) := by
  unfold KeyState.revoke
  by_cases hmem : id ∈ s.rows.map ApiKeyRecord.id
  · rw [if_pos hmem]
    apply hsound.update (.revoked id) (f := fun row => { row with active := false })
      (fun _ => rfl) hmem
    · intro row _ _ hactive
      cases hactive
    · intro row _ _ _
      rfl
    · intro rawKey hissued
      cases hissued
    · intro rawKey hrotated
      cases hrotated
  · rw [if_neg hmem, map_update_of_not_mem hmem]
    exact hsound

theorem hashKey_eq_some {salt keyHash : String}
    (h : hashKey env beforeMigration rawKey salt = some keyHash) :
    ∃ pepper, pepperOf env beforeMigration = some pepper ∧
      keyHash = hashWithPepper env rawKey salt pepper := by
  obtain ⟨pepper, hpepper, hdigest⟩ := Option.map_eq_some_iff.mp h
  exact ⟨pepper, hpepper, hdigest.symm⟩

theorem Sound.rotate (hsound : Sound env rawKeys salts s) {i : ℕ} {random salt : String}
    (hdrawn : Drawn rawKeys salts s (.rotate beforeMigration i random salt))
    (hundisturbed : Undisturbed env s (.rotate beforeMigration i random salt)) :
    Sound env rawKeys salts (s.rotate env beforeMigration i random salt) := by
  obtain ⟨hrawKey, hsalt, hnew⟩ := hdrawn
  unfold KeyState.rotate
  cases hrotation : s.rotations[i]? with
  | none => exact hsound
  | some rotation =>
    dsimp only
    cases hhash : hashKey env beforeMigration (generateRawKey random) salt with
    | none => exact hsound.rotations _
    | some keyHash =>
      obtain ⟨pepper, hpepper, hdigest⟩ := hashKey_eq_some hhash
      have hstill := hundisturbed rotation hrotation
        (Option.isSome_iff_exists.mpr ⟨pepper, hpepper⟩)
      dsimp only
      by_cases hmem : rotation.id ∈ s.rows.map ApiKeyRecord.id
      · rw [if_pos hmem]
        apply hsound.update (.rotated rotation.id (generateRawKey random))
          (f := fun row => { row with
            keyHash, salt, keyPrefix := lookupPrefix (generateRawKey random),
            scopes := rotation.scopes })
          (fun _ => rfl) hmem
        · intro row hrow hsame _
          refine ⟨⟨_, rfl, hrawKey, hsalt, rfl, generateRawKey_shaped random,
            beforeMigration, pepper, hpepper, hdigest⟩, fun hrevoked => ?_⟩
          have hinactive := hsound.revoked row hrow (hsame ▸ hrevoked)
          rw [hstill row hrow hsame] at hinactive
          cases hinactive
        · intro row hrow hsame hinactive
          exact absurd ((hstill row hrow hsame).symm.trans hinactive) (by decide)
        · intro rawKey hissued
          cases hissued
          exact ⟨hrawKey, hnew⟩
        · intro rawKey _
          exact isSome_pepperOf_false hpepper
      · rw [if_neg hmem, map_update_of_not_mem hmem]
        exact hsound.rotations _

theorem Sound.createApiKey (hsound : Sound env rawKeys salts s) {name : String}
    {scopes : List String} {random salt : String}
    (hdrawn : Drawn rawKeys salts s (.createApiKey beforeMigration name scopes id random salt)) :
    Sound env rawKeys salts (s.createApiKey env beforeMigration name scopes id random salt) := by
  obtain ⟨hrawKey, hsalt, hnew⟩ := hdrawn
  unfold KeyState.createApiKey
  dsimp only
  cases hhash : hashKey env beforeMigration (generateRawKey random) salt with
  | none => exact hsound
  | some =>
    obtain ⟨pepper, hpepper, hdigest⟩ := hashKey_eq_some hhash
    dsimp only
    by_cases hrefused : trim name.toList = [] ∨ id ∈ s.rows.map ApiKeyRecord.id
    · rw [if_pos hrefused]
      exact hsound
    · rw [if_neg hrefused]
      have hid := (not_or.mp hrefused).2
      have hadded : ∀ fresh : ApiKeyRecord, ∀ row ∈ s.rows ++ [fresh], row.id = id →
          row = fresh := by
        intro fresh row hrow hsame
        rcases List.mem_append.mp hrow with hold | hlast
        · exact absurd (hsame ▸ List.mem_map_of_mem hold) hid
        · exact List.mem_singleton.mp hlast
      apply hsound.append (.created id (generateRawKey random))
      · rw [List.map_append]
        apply hsound.ids.append (List.nodup_singleton _)
        intro other hother hlast
        rw [List.mem_singleton.mp hlast] at hother
        exact hid hother
      · rintro other (hold | rfl)
        · rw [List.map_append]
          exact List.mem_append_left _ hold
        · rw [List.map_append]
          exact List.mem_append_right _ List.mem_cons_self
      · intro row hrow hother
        rcases List.mem_append.mp hrow with hold | hlast
        · exact hold
        · rw [List.mem_singleton.mp hlast] at hother
          exact absurd rfl hother
      · intro row hrow hsame _
        obtain rfl := hadded _ row hrow hsame
        exact ⟨_, rfl, hrawKey, hsalt, rfl, generateRawKey_shaped random, beforeMigration,
          pepper, hpepper, hdigest⟩
      · intro row hrow hsame hinactive
        obtain rfl := hadded _ row hrow hsame
        cases hinactive
      · intro row _ _ hrevoked
        rcases List.mem_append.mp hrevoked with hearlier | hnow
        · exact absurd (hsound.events _ hearlier) hid
        · cases List.mem_singleton.mp hnow
      · intro rawKey hissued
        cases hissued
        exact ⟨hrawKey, hnew⟩
      · intro rawKey hrotated
        cases hrotated
      · intro _ _ _ _
        exact .inr hid

theorem Sound.present (hsound : Sound env rawKeys salts s)
    (hfree : CollisionFree env rawKeys salts) (hrawKey : rawKey ∈ rawKeys) :
    Sound env rawKeys salts (s.present env rawKey) := by
  refine ⟨hsound.ids, hsound.active, hsound.inactive, hsound.revoked, hsound.events,
    hsound.issued, hsound.distinct, hsound.pepper, ?_⟩
  intro write hwrite
  rcases List.mem_append.mp hwrite with hold | hnew
  · exact hsound.writes write hold
  · obtain ⟨⟨id, keyHash⟩, hrehash, rfl⟩ := List.mem_map.mp hnew
    unfold KeyState.rehashes at hrehash
    split at hrehash
    · rename_i pepper previous hpepper hprevious
      obtain ⟨row, hrow, hwrites⟩ := List.mem_map.mp hrehash
      obtain ⟨hcandidate, hmatch⟩ := List.mem_filter.mp hrow
      obtain ⟨_, hmem, _, hactive⟩ := mem_candidates.mp hcandidate
      cases hwrites
      refine ⟨List.mem_map_of_mem hmem, le_rfl, fun _ other hother hsame _ => ?_⟩
      obtain rfl := List.inj_on_of_nodup_map hsound.ids hother hmem hsame
      obtain ⟨_, held, _, _, hholds⟩ := hsound.active other hmem hactive
      rw [Bool.and_eq_true] at hmatch
      obtain rfl := eq_of_hashesMatch hfree hholds hrawKey hprevious hmatch.2
      exact ⟨rawKey, pepper, hholds, hpepper, rfl⟩
    · cases hrehash

theorem Sound.updateKeyHash (hsound : Sound env rawKeys salts s)
    (hfree : CollisionFree env rawKeys salts) {i : ℕ}
    (hundisturbed : Undisturbed env s (.updateKeyHash i)) :
    Sound env rawKeys salts (s.updateKeyHash i) := by
  unfold KeyState.updateKeyHash
  cases hwrite : s.writes[i]? with
  | none => exact hsound
  | some write =>
    dsimp only
    have hintime : ∀ row ∈ s.rows, row.id = write.id → row.active = true → ∀ rawKey,
        Holds env rawKeys salts row rawKey →
          Holds env rawKeys salts { row with keyHash := write.keyHash } rawKey := by
      intro row hrow hsame hactive rawKey hholds
      obtain ⟨rawKey', pepper, hholds', hpepper, hdigest⟩ :=
        (hsound.writes write (List.mem_of_getElem? hwrite)).2.2
          (hundisturbed write hwrite ⟨row, hrow, hsame, hactive⟩) row hrow hsame hactive
      obtain rfl := hholds'.unique hfree hholds
      exact ⟨hholds.mem_rawKeys, hholds.mem_salts, hholds.keyPrefix, hholds.shaped, false,
        pepper, hpepper, hdigest⟩
    have hids : (s.rows.map fun row =>
          if row.id = write.id then { row with keyHash := write.keyHash } else row).map
        ApiKeyRecord.id = s.rows.map ApiKeyRecord.id :=
      map_id_update (f := fun row => { row with keyHash := write.keyHash }) fun _ => rfl
    -- apart from digests the rows are as before, and active ones hold what they held
    have hcases : ∀ row ∈ s.rows.map (fun row =>
          if row.id = write.id then { row with keyHash := write.keyHash } else row),
        ∃ old ∈ s.rows, row.id = old.id ∧ row.active = old.active ∧ row.salt = old.salt ∧
          (old.active = true → ∀ rawKey, Holds env rawKeys salts old rawKey →
            Holds env rawKeys salts row rawKey) := by
      intro row hrow
      rcases mem_map_update hrow with ⟨_, hold⟩ | ⟨old, hold, hsame, rfl⟩
      · exact ⟨row, hold, rfl, rfl, rfl, fun _ _ hholds => hholds⟩
      · exact ⟨old, hold, rfl, rfl, rfl, hintime old hold hsame⟩
    constructor
    case ids =>
      rw [hids]
      exact hsound.ids
    case active =>
      intro row hrow hactive
      obtain ⟨old, hold, hid, hsame, _, hholds⟩ := hcases row hrow
      rw [hsame] at hactive
      obtain ⟨issue, rawKey, hlast, hissued, hheld⟩ := hsound.active old hold hactive
      exact ⟨issue, rawKey, hid ▸ hlast, hissued, hholds hactive rawKey hheld⟩
    case inactive =>
      intro row hrow hinactive
      obtain ⟨old, hold, hid, hsame, _, _⟩ := hcases row hrow
      rw [hid]
      exact hsound.inactive old hold (hsame ▸ hinactive)
    case revoked =>
      intro row hrow hrevoked
      obtain ⟨old, hold, hid, hsame, _, _⟩ := hcases row hrow
      rw [hsame]
      exact hsound.revoked old hold (hid ▸ hrevoked)
    case events =>
      intro event hevent
      rw [hids]
      exact hsound.events event hevent
    case issued =>
      exact hsound.issued
    case distinct =>
      exact hsound.distinct
    case pepper =>
      exact hsound.pepper
    case writes =>
      intro other hother
      obtain ⟨hmem, hread, hbrings⟩ := hsound.writes other (List.mem_of_mem_eraseIdx hother)
      refine ⟨?_, hread, fun hnone row hrow hid' hactive => ?_⟩
      · rw [hids]
        exact hmem
      · obtain ⟨old, hold, hid, hsame, hsalt, hholds⟩ := hcases row hrow
        rw [hsame] at hactive
        obtain ⟨rawKey, pepper, hheld, hpepper, hdigest⟩ :=
          hbrings hnone old hold (hid ▸ hid') hactive
        exact ⟨rawKey, pepper, hholds hactive rawKey hheld, hpepper, hsalt ▸ hdigest⟩

theorem sound_empty : Sound env rawKeys salts .empty where
  ids := List.nodup_nil
  active _ hrow := absurd hrow List.not_mem_nil
  inactive _ hrow := absurd hrow List.not_mem_nil
  revoked _ hrow := absurd hrow List.not_mem_nil
  events _ hevent := absurd hevent List.not_mem_nil
  issued _ hevent := absurd hevent List.not_mem_nil
  distinct := List.nodup_nil
  pepper _ _ hrotated := absurd hrotated List.not_mem_nil
  writes _ hwrite := absurd hwrite List.not_mem_nil

theorem Sound.keyStep {s' : KeyState} {label : KeyLabel} (hsound : Sound env rawKeys salts s)
    (hfree : CollisionFree env rawKeys salts) (hdrawn : Drawn rawKeys salts s label)
    (hundisturbed : Undisturbed env s label) (hstep : keyStep env s label = some s') :
    Sound env rawKeys salts s' := by
  cases label with
  | createApiKey =>
    cases hstep
    exact hsound.createApiKey hdrawn
  | readForRotation =>
    cases hstep
    unfold KeyState.readForRotation
    split
    · exact hsound
    · split_ifs
      · exact hsound.rotations _
      · exact hsound
  | rotate =>
    cases hstep
    exact hsound.rotate hdrawn hundisturbed
  | revoke id =>
    cases hstep
    exact hsound.revoke id
  | present =>
    cases hstep
    exact hsound.present hfree hdrawn
  | updateKeyHash =>
    cases hstep
    exact hsound.updateKeyHash hfree hundisturbed

end

/-- A number for a digest, by the pepper, the salt and the raw key. -/
def exampleDigit (pepper text : String) : ℕ :=
  (if pepper = "new" then 0 else 1) + (if text.toList.head? = some '2' then 2 else 0) +
    (if text.toList.getLast? = some 'b' then 4 else 0)

def exampleDigest (digit : ℕ) : String := String.ofList (List.replicate 64 (Nat.digitChar digit))

def exampleEnv : AuthEnv where
  verifyToken _ := none
  redisExists := none
  apiKeys := .ok []
  apiKeyPepper := some "new"
  apiKeyPepperPrevious := some "old"
  hmacSha256 pepper text := exampleDigest (exampleDigit pepper text)

def exampleRawKeys : Set String := {"flx_a", "flx_b"}

def exampleSalts : Set String := {"1", "2"}

theorem exampleDigit_lt (pepper text : String) : exampleDigit pepper text < 8 := by
  unfold exampleDigit
  split_ifs <;> decide

theorem hexBytes_exampleDigest {n : ℕ} (hn : n < 8) :
    hexBytes (exampleDigest n).toList = List.replicate 32 (16 * n + n) := by
  have hvalue : ∀ n < 8, hexValue (Nat.digitChar n) = some n := by decide
  have hpairs : ∀ k, hexBytes (List.replicate (2 * k) (Nat.digitChar n)) =
      List.replicate k (16 * n + n) := by
    intro k
    induction k with
    | zero => rfl
    | succ _ ih =>
      rw [Nat.mul_succ, List.replicate_succ, List.replicate_succ, hexBytes, hvalue n hn]
      exact congrArg _ ih
  rw [exampleDigest, String.toList_ofList]
  exact hpairs 32

theorem collisionFree_example : CollisionFree exampleEnv exampleRawKeys exampleSalts := by
  have hlength : ∀ n < 8, (hexBytes (exampleDigest n).toList).length = digestBytes := by
    intro n hn
    rw [hexBytes_exampleDigest hn]
    rfl
  have hdigest : ∀ n < 8, ∀ m < 8,
      hexBytes (exampleDigest n).toList = hexBytes (exampleDigest m).toList → n = m := by
    intro n hn m hm hsame
    rw [hexBytes_exampleDigest hn, hexBytes_exampleDigest hm] at hsame
    have := List.head_eq_of_cons_eq hsame
    omega
  have hdigit : ∀ pepper ∈ ["new", "old"], ∀ pepper' ∈ ["new", "old"], ∀ salt ∈ ["1", "2"],
      ∀ salt' ∈ ["1", "2"], ∀ rawKey ∈ ["flx_a", "flx_b"], ∀ rawKey' ∈ ["flx_a", "flx_b"],
        exampleDigit pepper (salt ++ rawKey) = exampleDigit pepper' (salt' ++ rawKey') →
          pepper = pepper' ∧ salt ++ rawKey = salt' ++ rawKey' := by
    decide +kernel
  have hpeppers : ∀ before pepper, pepperOf exampleEnv before = some pepper →
      pepper ∈ ["new", "old"] := by
    intro before pepper hpepper
    cases before with
    | false =>
      have hnew : pepperOf exampleEnv false = some "new" := by decide +kernel
      cases hnew.symm.trans hpepper
      exact List.mem_cons_self
    | true =>
      have hold : pepperOf exampleEnv true = some "old" := by decide +kernel
      cases hold.symm.trans hpepper
      exact List.mem_cons_of_mem _ List.mem_cons_self
  have hsalts : ∀ salt ∈ exampleSalts, salt ∈ ["1", "2"] := by simp [exampleSalts]
  have hrawKeys : ∀ rawKey ∈ exampleRawKeys, rawKey ∈ ["flx_a", "flx_b"] := by
    simp [exampleRawKeys]
  constructor
  · intro key text
    exact hlength _ (exampleDigit_lt key text)
  · intro before before' pepper pepper' salt salt' rawKey rawKey' hpepper hpepper' hsalt hsalt'
      hrawKey hrawKey' hsame
    exact hdigit pepper (hpeppers _ _ hpepper) pepper' (hpeppers _ _ hpepper') salt
      (hsalts _ hsalt) salt' (hsalts _ hsalt') rawKey (hrawKeys _ hrawKey) rawKey'
      (hrawKeys _ hrawKey') (hdigest _ (exampleDigit_lt _ _) _ (exampleDigit_lt _ _) hsame)

/-- A key from before the migration is presented: its digest is on the way. -/
def presentedOnce : KeyState :=
  (KeyState.empty.createApiKey exampleEnv true "indexer" [] "key-1" "a" "1").present exampleEnv
    "flx_a"

/-- The digest comes before the key is rotated. -/
def rotatedInTime : KeyState :=
  ((presentedOnce.updateKeyHash 0).readForRotation "key-1").rotate exampleEnv false 0 "b" "2"

/-- The digest comes after the key has been rotated. -/
def rotatedTooEarly : KeyState :=
  ((presentedOnce.readForRotation "key-1").rotate exampleEnv false 0 "b" "2").updateKeyHash 0

theorem mem_exampleRawKeys : generateRawKey "a" ∈ exampleRawKeys ∧
    generateRawKey "b" ∈ exampleRawKeys := by
  have ha : generateRawKey "a" = "flx_a" := by decide +kernel
  have hb : generateRawKey "b" = "flx_b" := by decide +kernel
  rw [ha, hb]
  exact ⟨.inl rfl, .inr rfl⟩

/-- Steps whose random values are new and which disturb nothing. -/
def Quiet (s : KeyState) (label : KeyLabel) : Prop :=
  Drawn exampleRawKeys exampleSalts s label ∧ Undisturbed exampleEnv s label

theorem reaches_presentedOnce : Reaches (keyStep exampleEnv) Quiet .empty presentedOnce := by
  have hcreate : Quiet .empty (.createApiKey true "indexer" [] "key-1" "a" "1") :=
    ⟨⟨mem_exampleRawKeys.1, .inl rfl, List.not_mem_nil⟩, trivial⟩
  have hpresent : ∀ s, Quiet s (.present "flx_a") := fun _ => ⟨.inl rfl, trivial⟩
  exact ((Reaches.refl _).tail hcreate rfl).tail (hpresent _) rfl

end Fluxora.Auth
