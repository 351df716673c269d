/-
# Secret shapes in free text

The deny-list of secret shapes, applied one after the other to a text. A text is the list of
its UTF-16 code units, which is what the expressions of the source go over.

Where an expression ignores the case of letters, only ASCII letters matter: a code unit beyond
ASCII is never taken for one of them.
-/

import Fluxora.Lib.JsText
import Fluxora.Lib.Pattern

namespace Fluxora.Pii

open Lib Lib.Pattern

/-! ## Code units -/

abbrev CodeUnits := List ℕ

def units (text : String) : CodeUnits := JsText.codeUnits text.toList

def isDigit (u : ℕ) : Bool := 48 ≤ u && u ≤ 57

def isUpper (u : ℕ) : Bool := 65 ≤ u && u ≤ 90

def isLower (u : ℕ) : Bool := 97 ≤ u && u ≤ 122

def isAlphanumeric (u : ℕ) : Bool := isUpper u || isLower u || isDigit u

/-- What `\w` matches, and `\b` looks at. -/
def isWord (u : ℕ) : Bool := isAlphanumeric u || u == 95

/-- What `\s` matches: white space and line terminators. -/
def isSpace (u : ℕ) : Bool :=
  (9 ≤ u && u ≤ 13) || (0x2000 ≤ u && u ≤ 0x200A) ||
    [0x20, 0xA0, 0x1680, 0x2028, 0x2029, 0x202F, 0x205F, 0x3000, 0xFEFF].contains u

def among (marks : String) (u : ℕ) : Bool := marks.toList.any fun c => c.toNat == u

def toUpper (u : ℕ) : ℕ := if isLower u then u - 32 else u

/-! ## Parts of expressions -/

def word (text : String) : Pattern ℕ :=
  inOrder (text.toList.map fun c => symbol fun u => u == c.toNat)

/-- A word in any case of its letters. -/
def wordAnyCase (text : String) : Pattern ℕ :=
  inOrder (text.toList.map fun c => symbol fun u => toUpper u == toUpper c.toNat)

/-- `[-_]?` -/
def dash : Pattern ℕ := optional (symbol (among "-_"))

/-- `['"]?` -/
def quote : Pattern ℕ := optional (symbol (among "'\""))

/-- `\s*[:=]\s*` -/
def assigned : Pattern ℕ := inOrder [many 0 isSpace, symbol (among ":="), many 0 isSpace]

/-- A name, an assignment and a value that is long enough, with or without quotes. -/
def assignment (name : Pattern ℕ) (least : ℕ) (inValue : ℕ → Bool) : Pattern ℕ :=
  inOrder [boundary isWord, name, assigned, quote, many least inValue, quote]

/-- `[A-Za-z0-9_\-+/=]` -/
def isTokenUnit (u : ℕ) : Bool := isAlphanumeric u || among "_-+/=" u

/-! ## The deny-list -/

def redactedSecret : CodeUnits := units "[REDACTED_SECRET]"

structure SecretPattern where
  pattern : Pattern ℕ
  replacement : CodeUnits

def apiKeyPrefixed : SecretPattern where
  pattern := inOrder [boundary isWord, oneOf [word "sk", word "pk", word "rk", word "flux"],
    word "_", oneOf [word "live", word "test"], word "_", many 16 isAlphanumeric, boundary isWord]
  replacement := redactedSecret

def apiKeyAssignment : SecretPattern where
  pattern := assignment
    (oneOf [inOrder [wordAnyCase "api", dash, wordAnyCase "key"], wordAnyCase "x-api-key"])
    16 fun u => isAlphanumeric u || among "_-" u
  replacement := units "api_key: [REDACTED_SECRET]"

def webhookSecretPrefixed : SecretPattern where
  pattern := inOrder [boundary isWord, word "whsec_", many 16 isTokenUnit, boundary isWord]
  replacement := redactedSecret

def webhookSecretAssignment : SecretPattern where
  pattern := assignment
    (oneOf [inOrder [wordAnyCase "webhook", dash, wordAnyCase "secret"],
      inOrder [wordAnyCase "signing", dash, wordAnyCase "secret"]])
    12 isTokenUnit
  replacement := units "webhook_secret: [REDACTED_SECRET]"

def databaseUrlWithPassword : SecretPattern where
  pattern := inOrder [boundary isWord,
    oneOf [inOrder [wordAnyCase "postgres", optional (wordAnyCase "ql")], wordAnyCase "mysql",
      inOrder [wordAnyCase "mongodb", optional (wordAnyCase "+srv")], wordAnyCase "redis"],
    word "://", many 1 fun u => !(among ":" u || isSpace u), word ":",
    many 1 fun u => !(among "@" u || isSpace u), word "@",
    many 1 fun u => !(among "'\"" u || isSpace u)]
  replacement := units "[REDACTED_SECRET_DB_URL]"

def databasePasswordAssignment : SecretPattern where
  pattern := assignment
    (oneOf [inOrder [wordAnyCase "database", dash, wordAnyCase "password"],
      inOrder [wordAnyCase "db", dash, wordAnyCase "password"], wordAnyCase "pgpassword"])
    4 fun u => !(among "'\"" u || isSpace u)
  replacement := units "database_password: [REDACTED_SECRET]"

def oidcClientSecret : SecretPattern where
  pattern := assignment
    (oneOf [inOrder [wordAnyCase "oidc", dash, wordAnyCase "client", dash, wordAnyCase "secret"],
      inOrder [wordAnyCase "client", dash, wordAnyCase "secret"]])
    12 isTokenUnit
  replacement := units "client_secret: [REDACTED_SECRET]"

def oidcClientSecretValue : SecretPattern where
  pattern := inOrder [boundary isWord, word "oidc_cs_", many 16 isTokenUnit, boundary isWord]
  replacement := redactedSecret

def secretPatterns : List SecretPattern :=
  [apiKeyPrefixed, apiKeyAssignment, webhookSecretPrefixed, webhookSecretAssignment,
    databaseUrlWithPassword, databasePasswordAssignment, oidcClientSecret, oidcClientSecretValue]

def redactSecretsInString (input : CodeUnits) : CodeUnits :=
  if input.isEmpty then input
  else
    secretPatterns.foldl
      (fun out entry => entry.pattern.replaceAll (fun _ _ => entry.replacement) out) input

end Fluxora.Pii
