/-
# Rate-limit overrides of tenants

An administrator sets the limit and the window of one tenant. The override takes the place
of the API-key tier on the request path, so its limit must not be above that of the tier;
for its window there is a maximum of its own.
-/

import Fluxora.RateLimit.Store

namespace Fluxora.RateLimit

open Lib.Fallible Lib.JsText

structure RateLimitOverride where
  id : String
  keyId : String
  maxRequests : ℕ
  windowMs : ℕ
  expiresAt : Option ℤ
  createdBy : String
  createdAt : ℤ
  updatedAt : ℤ
  deriving DecidableEq

structure CreateOverrideParams where
  keyId : String
  maxRequests : ℚ
  windowMs : ℚ
  expiresAt : Option String

inductive OverrideError
  | api (statusCode : ℕ) (code message : String) (details : List (String × String))
  /-- The database has a row with this value in a unique column. -/
  | uniqueViolation (column : String)
  deriving DecidableEq

structure OverrideCeiling where
  maxRequests : ℕ
  windowMs : ℕ

/-- The limit of the API-key tier, and the maximum of all windows. -/
def getOverrideCeiling (apiKey : RateLimitConfig) : OverrideCeiling := ⟨apiKey.max, maxWindowMs⟩

def maxIdentifierLength : ℕ := 128

def maxRequestsUpperBound : ℕ := 10000000

def minWindowMs : ℕ := 1000

def validationError (message : String) (details : List (String × String)) : OverrideError :=
  .api 400 "VALIDATION_ERROR" message details

/-- `if (condition) throw error` -/
def refuseIf (condition : Prop) [Decidable condition] (error : OverrideError) :
    Except OverrideError Unit :=
  if condition then .error error else .ok ()

theorem refuseIf_eq_ok {condition : Prop} [Decidable condition] {error : OverrideError}
    {u : Unit} : refuseIf condition error = .ok u ↔ ¬ condition := by
  rw [refuseIf]
  split_ifs with h
  · simpa using h
  · simpa using h

def validateIdentifier (fieldName value : String) : Except OverrideError Unit :=
  if trim value.toList = [] then
    .error (validationError s!"{fieldName} must be a non-empty string"
      [("field", fieldName), ("value", value)])
  else if (codeUnits value.toList).length > maxIdentifierLength then
    .error (validationError s!"{fieldName} is too long"
      [("field", fieldName), ("length", toString (codeUnits value.toList).length),
       ("maxLength", toString maxIdentifierLength)])
  else .ok ()

section

variable (parseDate : String → Option ℤ)

def validateCreateOverrideParams (params : CreateOverrideParams) :
    Except OverrideError Unit := do
  validateIdentifier "keyId" params.keyId
  refuseIf (params.maxRequests.den ≠ 1 ∨ params.maxRequests ≤ 0)
    (validationError "maxRequests must be a positive integer"
      [("field", "maxRequests"), ("value", toString params.maxRequests)])
  refuseIf (params.maxRequests > maxRequestsUpperBound)
    (validationError s!"maxRequests must not exceed {maxRequestsUpperBound}"
      [("field", "maxRequests"), ("value", toString params.maxRequests),
       ("maxAllowed", toString maxRequestsUpperBound)])
  refuseIf (params.windowMs.den ≠ 1 ∨ params.windowMs < minWindowMs)
    (validationError s!"windowMs must be an integer of at least {minWindowMs} milliseconds"
      [("field", "windowMs"), ("value", toString params.windowMs),
       ("minValue", toString minWindowMs)])
  refuseIf (params.expiresAt.any fun expiresAt => parseDate expiresAt = none)
    (validationError "expiresAt must be a valid ISO-8601 timestamp"
      [("field", "expiresAt"), ("value", params.expiresAt.getD "")])

def assertOverrideWithinCeiling (params : CreateOverrideParams) (ceiling : OverrideCeiling) :
    Except OverrideError Unit := do
  refuseIf (params.maxRequests > ceiling.maxRequests)
    (.api 422 "UNPROCESSABLE_ENTITY"
      (s!"maxRequests {params.maxRequests} exceeds the global ceiling of " ++
        s!"{ceiling.maxRequests}")
      [("maxRequests", toString params.maxRequests), ("ceiling", toString ceiling.maxRequests)])
  refuseIf (params.windowMs > ceiling.windowMs)
    (.api 422 "UNPROCESSABLE_ENTITY"
      (s!"windowMs {params.windowMs} exceeds the maximum allowed window of " ++
        s!"{ceiling.windowMs}")
      [("windowMs", toString params.windowMs), ("ceiling", toString ceiling.windowMs)])

/-- Validate an override against the API-key tier and insert it. -/
def createOverride (apiKey : RateLimitConfig) (rows : List RateLimitOverride) (id : String)
    (now : ℤ) (params : CreateOverrideParams) (createdBy : String) :
    Except OverrideError RateLimitOverride := do
  validateCreateOverrideParams parseDate params
  validateIdentifier "createdBy" createdBy
  assertOverrideWithinCeiling params (getOverrideCeiling apiKey)
  refuseIf (params.keyId ∈ rows.map (·.keyId)) (.uniqueViolation "key_id")
  return {
    id
    keyId := params.keyId
    maxRequests := params.maxRequests.num.toNat
    windowMs := params.windowMs.num.toNat
    expiresAt := params.expiresAt.bind parseDate
    createdBy
    createdAt := now
    updatedAt := now }

variable {parseDate} {params : CreateOverrideParams}

theorem eq_toNat_of_den_eq_one {q : ℚ} (hden : q.den = 1) (hnonneg : 0 ≤ q) :
    q = q.num.toNat := by
  have hnum : 0 ≤ q.num := Rat.num_nonneg.mpr hnonneg
  have hq : (q.num : ℚ) = q := Rat.coe_int_num_of_den_eq_one hden
  calc
    q = (q.num : ℚ) := hq.symm
    _ = ((q.num.toNat : ℤ) : ℚ) := by rw [Int.toNat_of_nonneg hnum]
    _ = q.num.toNat := Int.cast_natCast _

theorem validateCreateOverrideParams_eq_ok
    (h : validateCreateOverrideParams parseDate params = .ok ()) :
    (params.maxRequests = params.maxRequests.num.toNat ∧ 0 < params.maxRequests) ∧
      params.windowMs = params.windowMs.num.toNat ∧ minWindowMs ≤ params.windowMs := by
  rw [validateCreateOverrideParams] at h
  obtain ⟨_, _, h⟩ := bind_eq_ok.mp h
  obtain ⟨_, hmax, h⟩ := bind_eq_ok.mp h
  obtain ⟨_, _, h⟩ := bind_eq_ok.mp h
  obtain ⟨_, hwindow, _⟩ := bind_eq_ok.mp h
  rw [refuseIf_eq_ok, not_or, not_not, not_le] at hmax
  rw [refuseIf_eq_ok, not_or, not_not, not_lt] at hwindow
  have hwindowNonneg : 0 ≤ params.windowMs := le_trans (Nat.cast_nonneg _) hwindow.2
  exact ⟨⟨eq_toNat_of_den_eq_one hmax.1 hmax.2.le, hmax.2⟩,
    eq_toNat_of_den_eq_one hwindow.1 hwindowNonneg, hwindow.2⟩

theorem createOverride_eq_ok {apiKey : RateLimitConfig} {rows : List RateLimitOverride}
    {id createdBy : String} {now : ℤ} {override : RateLimitOverride}
    (h : createOverride parseDate apiKey rows id now params createdBy = .ok override) :
    (0 < override.maxRequests ∧ override.maxRequests ≤ apiKey.max) ∧
      minWindowMs ≤ override.windowMs ∧ override.windowMs ≤ maxWindowMs := by
  rw [createOverride] at h
  obtain ⟨_, hvalid, h⟩ := bind_eq_ok.mp h
  obtain ⟨_, _, h⟩ := bind_eq_ok.mp h
  obtain ⟨_, hceiling, h⟩ := bind_eq_ok.mp h
  obtain ⟨_, _, h⟩ := bind_eq_ok.mp h
  cases h
  obtain ⟨⟨hmax, hmaxPos⟩, hwindow, hwindowMin⟩ := validateCreateOverrideParams_eq_ok hvalid
  rw [assertOverrideWithinCeiling] at hceiling
  obtain ⟨_, hmaxLe, hwindowLe⟩ := bind_eq_ok.mp hceiling
  rw [refuseIf_eq_ok, not_lt, hmax] at hmaxLe
  rw [refuseIf_eq_ok, not_lt, hwindow] at hwindowLe
  rw [hmax] at hmaxPos
  rw [hwindow] at hwindowMin
  exact ⟨⟨Nat.cast_pos.mp hmaxPos, Nat.cast_le.mp hmaxLe⟩, Nat.cast_le.mp hwindowMin,
    Nat.cast_le.mp hwindowLe⟩

end

end Fluxora.RateLimit
