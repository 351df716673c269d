/-
# Double-submit tokens

A mutating request that carries cookies has to repeat the token of the cookie in a
header. Requests without cookies are not looked at.
-/

import Fluxora.Auth.Middleware

namespace Fluxora.Auth

open Lib Lib.JsText

def csrfCookieName : String := "fluxora_csrf"

def csrfCompareKey : String := "fluxora-csrf-compare"

def csrfTokenMaxLength : ℕ := 512

/-- The cookies of a header. A pair without a name is skipped, and a value that is not
well encoded is taken as it is. -/
def parseCookies (cookieHeader : String) : List (String × String) :=
  (cookieHeader.toList.splitOn ';').foldl add []
where
  add (cookies : List (String × String)) (pair : List Char) : List (String × String) :=
    let name := pair.takeWhile (· ≠ '=')
    let key := trim name
    let value := trim (pair.drop (name.length + 1))
    if name.length = pair.length ∨ key = [] then cookies
    else
      Properties.set (String.ofList key)
        (String.ofList ((decodeURIComponent value).getD value)) cookies

def isCookieAuthenticated (request : HttpRequest) : Bool :=
  trim (request.headers.cookie.getD "").toList ≠ []

/-- Neither too long nor with a control character. -/
def isValidCsrfToken (token : List Char) : Bool :=
  token ≠ [] ∧ (codeUnits token).length ≤ csrfTokenMaxLength ∧
    token.all fun c => ¬ (c.toNat ≤ 0x1F ∨ c.toNat = 0x7F)

def safeCompareCsrfTokens (env : AuthEnv) (tokenA tokenB : List Char) : Bool :=
  env.hmacSha256 csrfCompareKey (String.ofList tokenA) =
    env.hmacSha256 csrfCompareKey (String.ofList tokenB)

def isMutatingMethod (method : Method) : Bool :=
  method ∈ [Method.post, .put, .patch, .delete]

def csrfMiddleware (env : AuthEnv) : Middleware := fun context =>
  let request := context.request
  if isMutatingMethod request.method = false ∨ isCookieAuthenticated request = false then
    .ok context
  else
    let cookies := parseCookies (request.headers.cookie.getD "")
    let cookieToken := trim ((cookies.lookup csrfCookieName).getD "").toList
    let headerToken := trim (request.headers.xCsrfToken.getD "").toList
    if cookieToken = [] ∨ headerToken = [] then
      .error (forbidden ("CSRF token missing: fluxora_csrf cookie and X-CSRF-Token header are " ++
        "required for cookie-authenticated requests"))
    else if isValidCsrfToken cookieToken = false ∨ isValidCsrfToken headerToken = false then
      .error (forbidden ("CSRF token malformed: token exceeds maximum length or contains " ++
        "invalid characters"))
    else if safeCompareCsrfTokens env cookieToken headerToken = false then
      .error (forbidden ("CSRF token mismatch: provided X-CSRF-Token header does not match " ++
        "fluxora_csrf cookie"))
    else .ok context

theorem csrfMiddleware_ok {env : AuthEnv} {context context' : Context}
    (h : csrfMiddleware env context = .ok context') : context' = context := by
  simp only [csrfMiddleware] at h
  split_ifs at h
  · cases h
    rfl
  · cases h
    rfl

end Fluxora.Auth
