import ContentGenerator.Lib.PyValue
import ContentGenerator.Workflows.Nodes

/-!
# Signatures and event ids of webhooks

`verify_generic_hmac` checks the signature over timestamp and body, or over the body alone, and
`stable_event_id` names a delivery by its idempotency key or else by its body. The hashes, as hexadecimal
text, are parameters. A header is a Latin-1 text.
-/

namespace ContentGenerator.Workflows

open Lib String

/-- The hashes, the secrets by their references, and what is stored and read back of a body. -/
structure WebhookEnv where
  sha256 : List UInt8 → String
  hmacSha256 : List UInt8 → List UInt8 → String
  externalSecretReferences : String → Option String
  sanitizeTriggerPayload : List UInt8 → String
  sanitizeMapping : String → Json

/-- `text.encode("utf-8")`. -/
def utf8 (text : String) : List UInt8 := text.toUTF8.toList

/-- Digits, with single underscores between them. -/
def intDigits : List Char → Option (List Char)
  | [] => some []
  | '_' :: c :: rest => if c.isDigit then (c :: ·) <$> intDigits rest else none
  | c :: rest => if c.isDigit then (c :: ·) <$> intDigits rest else none

/-- The number of at most 4300 digits. -/
def intMagnitude (chars : List Char) : Option ℕ :=
  if chars.head?.any Char.isDigit then
    (intDigits chars).bind fun digits ↦
      if digits.length ≤ 4300 then
        some (digits.foldl (fun value c ↦ value * 10 + (c.toNat - '0'.toNat)) 0)
      else none
  else none

/-- `int(text)`, none for a `ValueError`. -/
def pyInt (text : String) : Option ℤ :=
  match (pyStrip text).toList with
  | '-' :: rest => (intMagnitude rest).map fun value ↦ -(value : ℤ)
  | '+' :: rest => (intMagnitude rest).map Nat.cast
  | chars => (intMagnitude chars).map Nat.cast

def parseTimestamp (raw : Option String) : Option ℤ :=
  raw.bind fun raw ↦ if pyStrip raw = "" then none else pyInt raw

/-- `text.split("=", 1)`, none when there is no `=`. -/
def splitAtEquals (text : String) : Option (String × String) :=
  match text.toList.span (· ≠ '=') with
  | (before, _ :: after) => some (ofList before, ofList after)
  | (_, []) => none

/-- `dict(part.split("=", 1) for part in header.split(",") if "=" in part).get(name)`. -/
def signaturePart (header name : String) : Option String :=
  let parts := (header.toList.splitOn ',').filterMap fun part ↦ splitAtEquals (ofList part)
  (parts.reverse.find? fun part ↦ part.1 = name).map Prod.snd

/-- The signature in the header, and the timestamp, which a Stripe-like header may hold. -/
def providedSignature (header : String) (timestamp : Option ℤ) : String × Option ℤ :=
  if "sha256=".toList.isPrefixOf (pyLower header).toList then
    (pyStrip ((splitAtEquals header).elim "" Prod.snd), timestamp)
  else if pyIn "," header && pyIn "v1=" header then
    let provided := pyStrip ((signaturePart header "v1").getD "")
    let inHeader := (signaturePart header "t").filter (· ≠ "")
    (provided, if timestamp.isNone && inHeader.isSome then parseTimestamp inHeader else timestamp)
  else (header, timestamp)

/-- `hmac.compare_digest` on texts. -/
def compareDigest (expected provided : String) : Except PyException Bool :=
  if (expected ++ provided).toList.all fun c ↦ c.toNat < 128 then .ok (expected = provided)
  else
    .error
      { className := "TypeError"
        message := "comparing strings with non-ASCII characters is not supported" }

variable (env : WebhookEnv)

def verifyGenericHmac (secret : String) (body : List UInt8) (signatureHeader : Option String)
    (timestamp : Option ℤ) (maxSkewSeconds : ℕ) (now : ℤ) (requireTimestamp : Bool) :
    Except PyException Bool :=
  match signatureHeader.filter (· ≠ "") with
  | none => .ok false
  | some signatureHeader =>
    if secret = "" then .ok false
    else
      let (provided, timestamp) := providedSignature (pyStrip signatureHeader) timestamp
      if requireTimestamp then
        match timestamp with
        | none => .ok false
        | some timestamp =>
          if maxSkewSeconds < (now - timestamp).natAbs then .ok false
          else
            compareDigest
              (env.hmacSha256 (utf8 secret) (utf8 (toString timestamp ++ ".") ++ body)) provided
      else compareDigest (env.hmacSha256 (utf8 secret) body) provided

def stableEventId (idempotencyKey : Option String) (body : List UInt8) : String :=
  match idempotencyKey.filter (pyStrip · ≠ "") with
  | some key => env.sha256 (utf8 (pyStrip key))
  | none => env.sha256 body

def resolveSecretReference (reference : String) : Option String :=
  if pyStrip reference = "" then none else env.externalSecretReferences (pyStrip reference)

end ContentGenerator.Workflows
