/-
# The erasure of an address

A stream keeps its two addresses either as they are or encrypted, and then with a keyed hash of
each for the lookups. An erasure request names an address. It overwrites the rows that have the
address as it is in one of their columns and counts those of them that are under legal hold.
-/

import Mathlib.Data.List.Forall2
import Fluxora.Lib.Fallible
import Fluxora.Validation.StellarAddress

namespace Fluxora.Pii

open Lib.Fallible Lib.JsText Validation

/-! ## Keys and texts -/

def pgpMessagePrefix : String := "-----BEGIN PGP MESSAGE-----"

/-- The functions of the crypto libraries. -/
structure Pgcrypto where
  /-- `pgp_sym_decrypt`: nothing for a wrong key or a text that is no message. -/
  symDecrypt : String → String → Option String
  /-- The hexadecimal HMAC of a text under a key. -/
  hmacSha256 : String → String → String

structure PgcryptoKeySet where
  current : String
  previous : Option String := none

namespace Pgcrypto

variable (crypto : Pgcrypto)

def computeAddressHash (address key : String) : String := crypto.hmacSha256 key address

/-- The hashes of an address. An empty previous key is none. -/
def computeAddressHashes (address : String) (keys : PgcryptoKeySet) : List String :=
  crypto.computeAddressHash address keys.current ::
    ((keys.previous.filter (· ≠ "")).map (crypto.computeAddressHash address)).toList

/-- The database function. It returns a text that is no message as it is. -/
def decryptStreamAddress (value currentKey : String) (previousKey : Option String) :
    Option String :=
  if pgpMessagePrefix.toList.isPrefixOf value.toList then
    (crypto.symDecrypt value currentKey).or (previousKey.bind (crypto.symDecrypt value))
  else some value

end Pgcrypto

/-! ## The table -/

structure StreamsRow where
  id : String
  senderAddress : String
  recipientAddress : String
  senderAddressHash : Option String
  recipientAddressHash : Option String
  encryptionState : String
  legalHold : Option Bool
  updatedAt : ℤ
  /-- The columns that no statement here names, as texts. -/
  otherColumns : List (String × Option String)
  deriving DecidableEq

/-- The table of streams, whose hash columns may refuse to be null. -/
@[ext]
structure StreamsTable where
  hashesNotNull : Bool
  rows : List StreamsRow
  hashes : hashesNotNull = true →
    ∀ row ∈ rows, row.senderAddressHash ≠ none ∧ row.recipientAddressHash ≠ none

namespace StreamsRow

variable (row : StreamsRow)

/-- `COALESCE(legal_hold, FALSE)` -/
def isHeld : Bool := row.legalHold.getD false

/-- `recipient_address = … OR sender_address = …` -/
def storesPlain (address : String) : Bool :=
  row.recipientAddress = address || row.senderAddress = address

/-- The assignments of the `UPDATE` statement. -/
def redact (tombstone : String) (now : ℤ) : StreamsRow :=
  { row with
    senderAddress := tombstone
    recipientAddress := tombstone
    senderAddressHash := none
    recipientAddressHash := none
    encryptionState := "redacted"
    updatedAt := now }

end StreamsRow

/-! ## The statement -/

def defaultErasureTombstone : String := "[REDACTED_GDPR_ERASURE]"

structure ErasureCounts where
  rowsErased : ℕ
  rowsSkippedLegalHold : ℕ
  deriving DecidableEq

/-- `…::int` -/
def toInteger (count : ℕ) : Except String ℕ :=
  if count < 2 ^ 31 then .ok count else .error "integer out of range"

/-- What the `UPDATE` makes of a row. -/
def updateRow (recipientAddress tombstone : String) (now : ℤ) (row : StreamsRow) : StreamsRow :=
  if row.storesPlain recipientAddress && !row.isHeld then row.redact tombstone now else row

/-- The one statement that redacts rows and counts held ones. -/
def redactPiiForAddress (now : ℤ) (table : StreamsTable) (recipientAddress : String)
    (tombstone : String := defaultErasureTombstone) :
    Except String (ErasureCounts × StreamsTable) :=
  if hrefused : table.hashesNotNull = true ∧
      ∃ row ∈ table.rows, row.storesPlain recipientAddress && !row.isHeld then
    .error "null value in a column violates not-null constraint"
  else do
    let rowsErased ← toInteger
      (table.rows.countP fun row => row.storesPlain recipientAddress && !row.isHeld)
    let rowsSkippedLegalHold ← toInteger
      (table.rows.countP fun row => row.storesPlain recipientAddress && row.isHeld)
    .ok (⟨rowsErased, rowsSkippedLegalHold⟩,
      { hashesNotNull := table.hashesNotNull
        rows := table.rows.map (updateRow recipientAddress tombstone now)
        hashes := by
          intro hnotNull row hrow
          obtain ⟨before, hbefore, rfl⟩ := List.mem_map.mp hrow
          have hkept : ¬(before.storesPlain recipientAddress && !before.isHeld) = true :=
            fun hmatch => hrefused ⟨hnotNull, before, hbefore, hmatch⟩
          rw [updateRow, if_neg hkept]
          exact table.hashes hnotNull before hbefore })

/-! ## The route -/

inductive ErasureResponse
  /-- 400 -/
  | invalidAddress (code message : String)
  /-- 200 -/
  | erased (counts : ErasureCounts) (message : String)
  /-- 500 -/
  | failed (code message : String)
  deriving DecidableEq

/-- What a request meets: the time of the database, and what fails of the transaction
besides the statement, such as an entry of the audit log. -/
structure ErasureEnv where
  now : ℤ
  failure : Option String := none

def isErasable (recipientAddress : String) : Bool :=
  trim recipientAddress.toList ≠ [] &&
    (codeUnits recipientAddress.toList).length ≤ 256 &&
    isValidStellarAccountAddress (String.ofList (trim recipientAddress.toList))

def erasureMessage (counts : ErasureCounts) : String :=
  if counts.rowsSkippedLegalHold > 0 then
    s!"{counts.rowsErased} row(s) erased. " ++
      s!"{counts.rowsSkippedLegalHold} row(s) skipped due to legal hold."
  else s!"{counts.rowsErased} row(s) erased."

/-- `BEGIN`, the statement, the entries of the audit log, and `COMMIT` or `ROLLBACK`. -/
def eraseInTransaction (env : ErasureEnv) (table : StreamsTable) (address : String) :
    Except String (ErasureCounts × StreamsTable) := do
  let result ← redactPiiForAddress env.now table address
  match env.failure with
  | some error => .error error
  | none => .ok result

/-- `DELETE /api/privacy/erasure/:recipientAddress` for an admin. -/
def deleteErasure (env : ErasureEnv) (table : StreamsTable) (recipientAddress : String) :
    ErasureResponse × StreamsTable :=
  if isErasable recipientAddress = false then
    (.invalidAddress "INVALID_ADDRESS"
      "recipientAddress must be a valid Stellar account address.", table)
  else
    match eraseInTransaction env table (String.ofList (trim recipientAddress.toList)) with
    | .ok (counts, after) => (.erased counts (erasureMessage counts), after)
    | .error _ =>
      (.failed "ERASURE_FAILED"
        "An internal error occurred while processing the erasure request.", table)

/-! ## A complete erasure -/

section

variable (crypto : Pgcrypto) (keys : PgcryptoKeySet) (address : String)

/-- The row has the address in some form: as it is, encrypted, or hashed. -/
def StreamsRow.concerns (row : StreamsRow) : Bool :=
  row.storesPlain address ||
    crypto.decryptStreamAddress row.senderAddress keys.current keys.previous = some address ||
    crypto.decryptStreamAddress row.recipientAddress keys.current keys.previous = some address ||
    (crypto.computeAddressHashes address keys).any fun hash =>
      row.senderAddressHash = some hash || row.recipientAddressHash = some hash

/-- What an erasure may do to a row. Besides the addresses and their hashes it writes
the columns that record the redaction, `encryption_state` and `updated_at`. -/
structure RowErased (before after : StreamsRow) : Prop where
  others : before.isHeld = true ∨ before.concerns crypto keys address = false → after = before
  id : after.id = before.id
  legalHold : after.legalHold = before.legalHold
  otherColumns : after.otherColumns = before.otherColumns

structure ErasureComplete (before after : StreamsTable) (counts : ErasureCounts) : Prop where
  /-- No row without legal hold has the address in any form. -/
  gone : ∀ row ∈ after.rows, row.isHeld = false → row.concerns crypto keys address = false
  rows : List.Forall₂ (RowErased crypto keys address) before.rows after.rows
  /-- The rows changed have been counted. -/
  rowsErased : counts.rowsErased =
    (before.rows.zip after.rows).countP fun (row, next) => row ≠ next
  /-- The held rows that have the address have been counted. -/
  rowsSkipped : counts.rowsSkippedLegalHold =
    before.rows.countP fun row => row.concerns crypto keys address && row.isHeld

end

/-! ## What the statement does -/

section

variable {crypto : Pgcrypto} {keys : PgcryptoKeySet} {address : String} {tombstone : String}

theorem toInteger_eq {count result : ℕ} (h : toInteger count = .ok result) : result = count := by
  unfold toInteger at h
  split_ifs at h
  cases h
  rfl

variable {table : StreamsTable} {counts : ErasureCounts} {after : StreamsTable}

theorem redactPiiForAddress_ok {now : ℤ}
    (h : redactPiiForAddress now table address tombstone = .ok (counts, after)) :
    after.rows = table.rows.map (updateRow address tombstone now) ∧
      counts.rowsErased =
        table.rows.countP (fun row => row.storesPlain address && !row.isHeld) ∧
      counts.rowsSkippedLegalHold =
        table.rows.countP (fun row => row.storesPlain address && row.isHeld) := by
  unfold redactPiiForAddress at h
  split at h
  · cases h
  · obtain ⟨erased, herased, h⟩ := bind_eq_ok.mp h
    obtain ⟨skipped, hskipped, h⟩ := bind_eq_ok.mp h
    cases h
    exact ⟨rfl, toInteger_eq herased, toInteger_eq hskipped⟩

theorem redactPiiForAddress_none (hnone : ∀ row ∈ table.rows, row.storesPlain address = false)
    (now : ℤ) (tombstone : String) :
    redactPiiForAddress now table address tombstone = .ok (⟨0, 0⟩, table) := by
  have hcount : ∀ test : StreamsRow → Bool,
      table.rows.countP (fun row => row.storesPlain address && test row) = 0 := by
    intro test
    refine List.countP_eq_zero.mpr fun row hrow => ?_
    rw [hnone row hrow, Bool.false_and]
    exact Bool.false_ne_true
  have hkept : table.rows.map (updateRow address tombstone now) = table.rows := by
    refine (List.map_congr_left fun row hrow => ?_).trans (List.map_id _)
    rw [updateRow, hnone row hrow]
    rfl
  unfold redactPiiForAddress
  rw [dif_neg]
  · rw [hcount, hcount]
    refine congrArg Except.ok (Prod.ext rfl ?_)
    exact StreamsTable.ext rfl hkept
  · rintro ⟨-, row, hrow, hmatch⟩
    rw [hnone row hrow] at hmatch
    cases hmatch

theorem deleteErasure_erased {env : ErasureEnv} {recipientAddress message : String}
    (h : deleteErasure env table recipientAddress = (.erased counts message, after)) :
    isValidStellarAccountAddress (String.ofList (trim recipientAddress.toList)) = true ∧
      redactPiiForAddress env.now table (String.ofList (trim recipientAddress.toList)) =
        .ok (counts, after) := by
  unfold deleteErasure at h
  split_ifs at h with herasable
  · cases h
  · rw [Bool.not_eq_false, isErasable, Bool.and_eq_true] at herasable
    refine ⟨herasable.2, ?_⟩
    split at h
    · next committed hcommit =>
        cases h
        obtain ⟨result, hresult, hcommit⟩ := bind_eq_ok.mp hcommit
        cases hfailure : env.failure with
        | none =>
          rw [hfailure] at hcommit
          cases hcommit
          exact hresult
        | some =>
          rw [hfailure] at hcommit
          cases hcommit
    · cases h

/-! ## Addresses and tombstones -/

theorem tombstone_ne_of_valid (hvalid : isValidStellarAccountAddress address = true) :
    defaultErasureTombstone ≠ address := by
  rintro rfl
  have hbracket : '[' ∈ defaultErasureTombstone.toList := by decide
  have hrange := (mem_alphabet_of_valid hvalid hbracket).2
  exact absurd hrange (by decide)

variable {row : StreamsRow}

theorem concerns_of_storesPlain (hplain : row.storesPlain address = true) :
    row.concerns crypto keys address = true := by
  simp only [StreamsRow.concerns, hplain, Bool.true_or]

theorem concerns_redact (htombstone : tombstone ≠ address)
    (hdecrypt : crypto.decryptStreamAddress tombstone keys.current keys.previous = some tombstone)
    (row : StreamsRow) (now : ℤ) :
    (row.redact tombstone now).concerns crypto keys address = false := by
  simp [StreamsRow.concerns, StreamsRow.storesPlain, StreamsRow.redact, htombstone, hdecrypt]

theorem redact_ne_of_storesPlain (htombstone : tombstone ≠ address)
    (hplain : row.storesPlain address = true) (now : ℤ) : row ≠ row.redact tombstone now := by
  intro hsame
  have hsender : row.senderAddress = tombstone := congrArg StreamsRow.senderAddress hsame
  have hrecipient : row.recipientAddress = tombstone := congrArg StreamsRow.recipientAddress hsame
  rw [StreamsRow.storesPlain, hsender, hrecipient] at hplain
  exact htombstone (by simpa using hplain)

theorem isHeld_updateRow {now : ℤ} (row : StreamsRow) :
    (updateRow address tombstone now row).isHeld = row.isHeld := by
  unfold updateRow
  split_ifs <;> rfl

/-! ## Completeness -/

theorem rowErased_updateRow {now : ℤ} (row : StreamsRow) :
    RowErased crypto keys address row (updateRow address tombstone now row) := by
  unfold updateRow
  split_ifs with hmatch
  · rw [Bool.and_eq_true, Bool.not_eq_true'] at hmatch
    refine ⟨fun hother => ?_, rfl, rfl, rfl⟩
    rcases hother with hheld | hnone
    · rw [hmatch.2] at hheld
      cases hheld
    · rw [concerns_of_storesPlain hmatch.1] at hnone
      cases hnone
  · exact ⟨fun _ => rfl, rfl, rfl, rfl⟩

theorem ne_updateRow_iff (htombstone : tombstone ≠ address) {now : ℤ} (row : StreamsRow) :
    row ≠ updateRow address tombstone now row ↔
      (row.storesPlain address && !row.isHeld) = true := by
  unfold updateRow
  split_ifs with hmatch
  · rw [Bool.and_eq_true] at hmatch
    exact iff_of_true (redact_ne_of_storesPlain htombstone hmatch.1 now)
      (Bool.and_eq_true_iff.mpr hmatch)
  · exact iff_of_false (fun hne => hne rfl) hmatch

theorem countP_changed (htombstone : tombstone ≠ address) (now : ℤ) (rows : List StreamsRow) :
    ((rows.zip (rows.map (updateRow address tombstone now))).countP fun (row, next) =>
        row ≠ next) =
      rows.countP fun row => row.storesPlain address && !row.isHeld := by
  induction rows with
  | nil => rfl
  | cons row _ ih =>
    rw [List.map_cons, List.zip_cons_cons, List.countP_cons, List.countP_cons, ih]
    refine congrArg _ (if_congr ?_ rfl rfl)
    rw [decide_eq_true_eq]
    exact ne_updateRow_iff htombstone row

theorem of_countP_eq {p q : StreamsRow → Bool} {rows : List StreamsRow}
    (himp : ∀ row, p row = true → q row = true) (hcount : rows.countP p = rows.countP q)
    (hrow : row ∈ rows) (hq : q row = true) : p row = true := by
  have hsublist : (rows.filter p).Sublist (rows.filter q) :=
    List.monotone_filter_right rows himp
  have hsame : rows.filter p = rows.filter q :=
    hsublist.eq_of_length (by rwa [← List.countP_eq_length_filter, ← List.countP_eq_length_filter])
  have hmem : row ∈ rows.filter p := hsame ▸ List.mem_filter.mpr ⟨hrow, hq⟩
  exact (List.mem_filter.mp hmem).2

/-- An erasure that commits is complete exactly when every row that has the address in
some form has it as it is. -/
theorem erasureComplete_iff (crypto : Pgcrypto) (keys : PgcryptoKeySet) {env : ErasureEnv}
    {table after : StreamsTable} {recipientAddress message : String} {counts : ErasureCounts}
    (herased : deleteErasure env table recipientAddress = (.erased counts message, after)) :
    ErasureComplete crypto keys (String.ofList (trim recipientAddress.toList)) table after
        counts ↔
      ∀ row ∈ table.rows,
        row.concerns crypto keys (String.ofList (trim recipientAddress.toList)) = true →
          row.storesPlain (String.ofList (trim recipientAddress.toList)) = true := by
  obtain ⟨hvalid, hresult⟩ := deleteErasure_erased herased
  generalize String.ofList (trim recipientAddress.toList) = address at hvalid hresult
  obtain ⟨hrows, hcounted, hskipped⟩ := redactPiiForAddress_ok hresult
  have htombstone := tombstone_ne_of_valid hvalid
  apply Iff.intro
  · rintro ⟨hgone, -, -, hcomplete⟩ row hrow hconcerns
    cases hheld : row.isHeld with
    | false =>
      by_contra hplain
      have hkept : row ∈ after.rows := by
        rw [hrows, List.mem_map]
        refine ⟨row, hrow, if_neg fun hmatch => ?_⟩
        rw [Bool.and_eq_true] at hmatch
        exact hplain hmatch.1
      have hnone := hgone row hkept hheld
      rw [hconcerns] at hnone
      cases hnone
    | true =>
      have hboth := of_countP_eq (p := fun row => row.storesPlain address && row.isHeld)
        (q := fun row => row.concerns crypto keys address && row.isHeld) ?_
        (hskipped.symm.trans hcomplete) hrow ?_
      · rw [Bool.and_eq_true] at hboth
        exact hboth.1
      · intro other hother
        rw [Bool.and_eq_true] at hother ⊢
        exact ⟨concerns_of_storesPlain hother.1, hother.2⟩
      · rw [hconcerns, hheld]
        rfl
  · intro hplain
    have hsame : ∀ row ∈ table.rows,
        row.concerns crypto keys address = row.storesPlain address := by
      intro row hrow
      rw [Bool.eq_iff_iff]
      exact ⟨hplain row hrow, concerns_of_storesPlain⟩
    refine ⟨?_, ?_, ?_, ?_⟩
    · intro next hnext hunheld
      rw [hrows] at hnext
      obtain ⟨row, hrow, rfl⟩ := List.mem_map.mp hnext
      rw [isHeld_updateRow] at hunheld
      unfold updateRow
      split_ifs with hmatch
      · exact concerns_redact htombstone (if_neg (by decide)) row env.now
      · rw [hsame row hrow]
        simpa [hunheld] using hmatch
    · rw [hrows, List.forall₂_map_right_iff, List.forall₂_same]
      exact fun row _ => rowErased_updateRow row
    · rw [hcounted, hrows, countP_changed htombstone]
    · rw [hskipped]
      refine List.countP_congr fun row hrow => ?_
      rw [hsame row hrow]

end

/-! ## A legacy row and an encrypted one -/

def subjectAddress : String := "GAAREIZUIVLGO6EJTKV3ZTO654ABCIRTIRKWM54ITGVLXTG5537RAI5F"
def otherAddress : String := "GAAZI4TCR3TY5OJHCTJC2A4QSY6CJWJH5IAJTGKIN2ER7LBNVKOCCWN7"
def demoKeys : PgcryptoKeySet := { current := "0123456789abcdef0123456789abcdef" }

def subjectMessage : String :=
  pgpMessagePrefix ++ ("\n\n" ++
    "jA0ECQMKCqKA/LJoT/j/0msB74yGBRBhIDtT5RRBvW2pxZoxH6Ii0OvXTLw4JXzh\n" ++
    "beLom6Nd17wkZgqAR/5aGiuKGgqjOGH4RDpREXdOc7mFMQPGyTN9nhYVAO/vFQ4Q\n" ++
    "zpkOWZpRdkgU82nqlIs6Lq99ufU7BLynYfUw0g==\n=0wMK\n-----END PGP MESSAGE-----\n")

def otherMessage : String :=
  pgpMessagePrefix ++ ("\n\n" ++
    "jA0ECQMKm39qRSIlyIv/0msBleTLYoaRqxNpGy33P2FAM1GeNGTjEhMoDnxrng7D\n" ++
    "T6/BtNt1RmfxjpxjIFDARVk3WKrKOCU8FL1YCcJRa9enyDReduXZMsfYjP1miEd1\n" ++
    "CVk/NtzGbp6QTNw2BD+Ec3/wFxsDWogteGINkQ==\n=NpY4\n-----END PGP MESSAGE-----\n")

def subjectHash : String := "b40e6011cf3414c0c5363940cec262c77ef9f234b63f17cca820ccd409125dd8"
def otherHash : String := "f15971303114dfc07926d08b81c389ecdc812b743f9adfc416c9fe048af9a697"

/-- What the libraries compute for the two addresses under the key. -/
def demoCrypto : Pgcrypto where
  symDecrypt value key :=
    if key ≠ demoKeys.current then none
    else if value = subjectMessage then some subjectAddress
    else if value = otherMessage then some otherAddress
    else none
  hmacSha256 key address :=
    if key ≠ demoKeys.current then ""
    else if address = subjectAddress then subjectHash
    else if address = otherAddress then otherHash
    else ""

def legacyRow : StreamsRow where
  id := "stream-legacy"
  senderAddress := otherAddress
  recipientAddress := subjectAddress
  senderAddressHash := some ""
  recipientAddressHash := some ""
  encryptionState := "plaintext"
  legalHold := some false
  updatedAt := 0
  otherColumns := [("amount", some "100"), ("status", some "active")]

def encryptedRow : StreamsRow :=
  { legacyRow with
    id := "stream-encrypted"
    senderAddress := otherMessage
    recipientAddress := subjectMessage
    senderAddressHash := some otherHash
    recipientAddressHash := some subjectHash }

/-- Before the migration to encrypted addresses, with columns that may be null. -/
def legacyTable : StreamsTable where
  hashesNotNull := false
  rows := [legacyRow, { legacyRow with id := "stream-held", legalHold := some true }]
  hashes := by
    intro hnotNull
    cases hnotNull

def encryptedTable : StreamsTable where
  hashesNotNull := true
  rows := [encryptedRow]
  hashes := by
    intro _ row hrow
    rw [List.mem_singleton.mp hrow]
    exact ⟨Option.some_ne_none _, Option.some_ne_none _⟩

theorem trim_subjectAddress :
    String.ofList (trim subjectAddress.toList) = subjectAddress := by
  decide +kernel

theorem isErasable_subjectAddress : isErasable subjectAddress = true := by
  rw [isErasable, trim_subjectAddress]
  decide +kernel

theorem deleteErasure_subjectAddress (env : ErasureEnv) (table : StreamsTable) :
    deleteErasure env table subjectAddress =
      match eraseInTransaction env table subjectAddress with
      | .ok (counts, after) => (.erased counts (erasureMessage counts), after)
      | .error _ =>
        (.failed "ERASURE_FAILED"
          "An internal error occurred while processing the erasure request.", table) := by
  rw [deleteErasure, if_neg (by rw [isErasable_subjectAddress]; decide), trim_subjectAddress]

/-- A row with the address as it is, and one under legal hold. -/
theorem erasureComplete_iff_legacyRow :
    ErasureComplete demoCrypto demoKeys (String.ofList (trim subjectAddress.toList)) legacyTable
      (deleteErasure { now := 1 } legacyTable subjectAddress).2 ⟨1, 1⟩ := by
  have herased : deleteErasure { now := 1 } legacyTable subjectAddress =
      (.erased ⟨1, 1⟩ "1 row(s) erased. 1 row(s) skipped due to legal hold.",
        (deleteErasure { now := 1 } legacyTable subjectAddress).2) := by
    apply Prod.ext
    · rw [deleteErasure_subjectAddress]
      decide +kernel
    · dsimp only
  refine (erasureComplete_iff demoCrypto demoKeys herased).mpr ?_
  rw [trim_subjectAddress]
  simp [legacyTable, legacyRow, StreamsRow.storesPlain]

theorem decrypt_subjectMessage :
    demoCrypto.decryptStreamAddress subjectMessage demoKeys.current demoKeys.previous =
      some subjectAddress := by
  have hmessage : pgpMessagePrefix.toList.isPrefixOf subjectMessage.toList = true := by
    rw [subjectMessage, String.toList_append, List.isPrefixOf_iff_prefix]
    exact List.prefix_append _ _
  rw [Pgcrypto.decryptStreamAddress, if_pos hmessage]
  simp [demoCrypto]

theorem concerns_encryptedRow :
    encryptedRow.concerns demoCrypto demoKeys subjectAddress = true := by
  have hrecipient : decide (demoCrypto.decryptStreamAddress encryptedRow.recipientAddress
      demoKeys.current demoKeys.previous = some subjectAddress) = true :=
    decide_eq_true decrypt_subjectMessage
  rw [StreamsRow.concerns, hrecipient, Bool.or_true, Bool.true_or]

/-- The address is erased from no row, and one row has it encrypted. -/
theorem erasure_incomplete_encryptedRow :
    deleteErasure { now := 1 } encryptedTable subjectAddress =
        (.erased ⟨0, 0⟩ "0 row(s) erased.", encryptedTable) ∧
      ¬ErasureComplete demoCrypto demoKeys subjectAddress encryptedTable encryptedTable
        ⟨0, 0⟩ := by
  apply And.intro
  · have hnone : ∀ row ∈ encryptedTable.rows, row.storesPlain subjectAddress = false := by
      intro row hrow
      rw [List.mem_singleton.mp hrow]
      simp [StreamsRow.storesPlain, encryptedRow, subjectMessage, otherMessage, pgpMessagePrefix,
        subjectAddress]
    rw [deleteErasure_subjectAddress, eraseInTransaction, redactPiiForAddress_none hnone]
    rfl
  · intro hcomplete
    have hgone := hcomplete.gone encryptedRow List.mem_cons_self rfl
    rw [concerns_encryptedRow] at hgone
    cases hgone

end Fluxora.Pii
