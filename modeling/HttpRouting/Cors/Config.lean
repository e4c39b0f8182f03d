import HttpRouting.Http.Token

/-!
Cross-origin policies.  A field that is not set is not the same as an empty list: the first leaves
the matter open, the second allows nothing.  The entry `*` stands for everything.
-/

set_option autoImplicit false
set_option relaxedAutoImplicit false

namespace HttpRouting

/-- Why a policy cannot be put in force. -/
inductive CorsError where
  | credentialsWithWildcardOrigin
deriving DecidableEq, Repr

/-- The sentence that reports the error. -/
def CorsError.message : CorsError → String
  | .credentialsWithWildcardOrigin =>
    "When allowCredentials is true, allowedOrigins cannot contain \"*\"; list origins explicitly or "
      ++ "use allowedOriginPatterns."

/-- A cross-origin policy. -/
structure CorsConfig where
  allowedOrigins : Option (List String)
  allowedOriginPatterns : Option (List String)
  allowedMethods : Option (List String)
  allowedHeaders : Option (List String)
  exposedHeaders : Option (List String)
  allowCredentials : Option Bool
  maxAge : Option Nat
deriving DecidableEq, Repr

namespace CorsConfig

/-- The entry that stands for everything. -/
def wildcard : String := "*"

/-- The age in seconds for which an answer to a preflight is kept by default. -/
def defaultMaxAge : Nat := 1800

/-- A policy that sets nothing. -/
def empty : CorsConfig := ⟨none, none, none, none, none, none, none⟩

/-- Add an entry to a list, which is set thereby; an entry that is there stays where it is. -/
def addEntry (entries : Option (List String)) (entry : String) : Option (List String) :=
  let entries := entries.getD []
  some (if entries.contains entry then entries else entries ++ [entry])

/-- Allow an origin. -/
def allowOrigin (c : CorsConfig) (origin : String) : CorsConfig :=
  { c with allowedOrigins := addEntry c.allowedOrigins origin }

/-- Allow the origins of a pattern. -/
def allowOriginPattern (c : CorsConfig) (pattern : String) : CorsConfig :=
  { c with allowedOriginPatterns := addEntry c.allowedOriginPatterns pattern }

/-- Allow a method, whose name is made capital. -/
def allowMethod (c : CorsConfig) (method : String) : CorsConfig :=
  { c with allowedMethods := addEntry c.allowedMethods (Text.upper method) }

/-- Allow a header field. -/
def allowHeader (c : CorsConfig) (header : String) : CorsConfig :=
  { c with allowedHeaders := addEntry c.allowedHeaders header }

/-- Expose a header field. -/
def exposeHeader (c : CorsConfig) (header : String) : CorsConfig :=
  { c with exposedHeaders := addEntry c.exposedHeaders header }

/-- Allow or forbid credentials. -/
def setCredentials (c : CorsConfig) (allow : Bool) : CorsConfig :=
  { c with allowCredentials := some allow }

/-- Set the age for which an answer to a preflight is kept. -/
def setMaxAge (c : CorsConfig) (seconds : Nat) : CorsConfig :=
  { c with maxAge := some seconds }

/-- The policy that allows everything by patterns, with credentials. -/
def allowAll : CorsConfig :=
  { empty with
    allowedOriginPatterns := some [wildcard]
    allowedMethods := some [wildcard]
    allowedHeaders := some [wildcard]
    allowCredentials := some true }

/-- Whether credentials are allowed. -/
def credentialsAllowed (c : CorsConfig) : Bool :=
  c.allowCredentials.getD false

/-- Set what is open to the defaults: any origin, simple methods and any header field. -/
def withDefaults (c : CorsConfig) : CorsConfig :=
  { c with
    allowedOrigins :=
      if c.allowedOrigins.isNone && c.allowedOriginPatterns.isNone then some [wildcard]
      else c.allowedOrigins
    allowedMethods := some (c.allowedMethods.getD ["GET", "HEAD", "POST"])
    allowedHeaders := some (c.allowedHeaders.getD [wildcard])
    maxAge := some (c.maxAge.getD defaultMaxAge) }

/-- Join two lists: one that is not set gives way, a wildcard swallows all, and otherwise new
entries come behind. -/
def joinEntries : Option (List String) → Option (List String) → Option (List String)
  | none, other => other
  | source, none => source
  | some source, some other =>
    if source.contains wildcard || other.contains wildcard then some [wildcard]
    else some (other.foldl (fun entries x => if entries.contains x then entries else entries ++ [x]) source)

/-- Add the entries of another policy; of single settings those of the other count if set. -/
def combine (c other : CorsConfig) : CorsConfig :=
  { allowedOrigins := joinEntries c.allowedOrigins other.allowedOrigins
    allowedOriginPatterns := joinEntries c.allowedOriginPatterns other.allowedOriginPatterns
    allowedMethods := joinEntries c.allowedMethods other.allowedMethods
    allowedHeaders := joinEntries c.allowedHeaders other.allowedHeaders
    exposedHeaders := joinEntries c.exposedHeaders other.exposedHeaders
    allowCredentials := other.allowCredentials.or c.allowCredentials
    maxAge := other.maxAge.or c.maxAge }

/-- Credentials do not go with the origin that stands for all. -/
def validate (c : CorsConfig) : Except CorsError Unit :=
  if c.credentialsAllowed && (c.allowedOrigins.getD []).contains wildcard then
    .error .credentialsWithWildcardOrigin
  else .ok ()

/-- Whether a text can be cut so that the pieces stand in it in order, the first at its start and
the last at its end; each piece in between is taken at its first occurrence. -/
def piecesMatch : List (List Char) → List Char → Bool
  | [], text => text.isEmpty
  | [last], text => (Text.withoutEnd? last text).isSome
  | piece :: pieces, text =>
    match Text.splitOnce? piece text with
    | some (_, behind) => piecesMatch pieces behind
    | none => false

/-- Whether an origin fits a pattern, in which every asterisk stands for any text. -/
def originFits (pattern origin : String) : Bool :=
  pattern == wildcard ||
    match pattern.toList.splitOn '*' with
    | [] => false
    | first :: pieces =>
      match first.isPrefixOf? origin.toList with
      | some rest => piecesMatch pieces rest
      | none => false

/-- An origin without slashes at its end. -/
def bareOrigin (origin : String) : String :=
  String.ofList (Text.dropTrailing '/' origin.toList)

/-- The origin to name in the answer, if the policy allows the origin of a request. -/
def checkOrigin (c : CorsConfig) (origin : String) : Option String :=
  let bare := bareOrigin origin
  let origins := c.allowedOrigins.getD []
  if origins.contains wildcard && !c.credentialsAllowed then some wildcard
  else if origins.any fun allowed => Text.sameIgnoringCase (bareOrigin allowed) bare then some bare
  else if (c.allowedOriginPatterns.getD []).any fun pattern => originFits pattern bare then some bare
  else none

/-- The methods to name in the answer, if the policy allows the method. -/
def checkMethod (c : CorsConfig) (method : Method) : Option (List String) :=
  match c.allowedMethods with
  | none => none
  | some allowed =>
    if allowed.contains wildcard then some [method.name]
    else if allowed.contains method.name then some allowed
    else none

/-- Whether the policy allows a header field. -/
def headerAllowed (allowed : List String) (header : String) : Bool :=
  allowed.contains wildcard || allowed.any fun a => Text.sameIgnoringCase a header

/-- The header fields to name in the answer: those asked for that the policy allows.  There is no
answer when some are asked for and none is allowed. -/
def checkHeaders (c : CorsConfig) (requested : List String) : Option (List String) :=
  if requested.isEmpty then some []
  else
    match c.allowedHeaders with
    | none => none
    | some allowed =>
      match requested.filter (headerAllowed allowed) with
      | [] => none
      | granted => some granted

end CorsConfig

end HttpRouting
