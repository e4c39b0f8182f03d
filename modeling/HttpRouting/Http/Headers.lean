import HttpRouting.Http.Token

/-!
Header fields: names in small letters, each with any number of values in the order they were added.
-/

set_option autoImplicit false
set_option relaxedAutoImplicit false

namespace HttpRouting

/-- The name of a header field, in small letters. -/
structure HeaderName where
  text : String
deriving DecidableEq, Repr

namespace HeaderName

/-- Read a name; its case does not matter. -/
def parse? (text : String) : Option HeaderName :=
  if isToken text then some ⟨Text.lower text⟩ else none

def accept : HeaderName := ⟨"accept"⟩
def allow : HeaderName := ⟨"allow"⟩
def contentType : HeaderName := ⟨"content-type"⟩
def host : HeaderName := ⟨"host"⟩
def ifModifiedSince : HeaderName := ⟨"if-modified-since"⟩
def lastModified : HeaderName := ⟨"last-modified"⟩
def origin : HeaderName := ⟨"origin"⟩
def vary : HeaderName := ⟨"vary"⟩
def requestMethod : HeaderName := ⟨"access-control-request-method"⟩
def requestHeaders : HeaderName := ⟨"access-control-request-headers"⟩
def allowOrigin : HeaderName := ⟨"access-control-allow-origin"⟩
def allowCredentials : HeaderName := ⟨"access-control-allow-credentials"⟩
def allowMethods : HeaderName := ⟨"access-control-allow-methods"⟩
def allowHeaders : HeaderName := ⟨"access-control-allow-headers"⟩
def exposeHeaders : HeaderName := ⟨"access-control-expose-headers"⟩
def maxAge : HeaderName := ⟨"access-control-max-age"⟩

end HeaderName

/-- The value of a header field. -/
structure HeaderValue where
  bytes : Bytes
deriving DecidableEq, Repr

namespace HeaderValue

/-- An octet that may stand in a value. -/
def isValueOctet (octet : UInt8) : Bool :=
  (0x20 ≤ octet && octet ≠ 0x7F) || octet = 0x09

/-- An octet that shows as text. -/
def isTextOctet (octet : UInt8) : Bool :=
  (0x20 ≤ octet && octet < 0x7F) || octet = 0x09

/-- A value of given octets, if all of them may stand in one. -/
def ofBytes? (bytes : Bytes) : Option HeaderValue :=
  if bytes.all isValueOctet then some ⟨bytes⟩ else none

/-- The value that a text makes. -/
def ofText? (text : String) : Option HeaderValue :=
  ofBytes? (Text.utf8 text)

/-- A value that is known to be plain text. -/
def ofPlain (text : String) : HeaderValue :=
  ⟨Text.utf8 text⟩

/-- The value as a text, if every octet shows as text. -/
def text? (value : HeaderValue) : Option String :=
  if value.bytes.all isTextOctet then Text.ofUtf8? value.bytes else none

end HeaderValue

/-- Header fields in the order they were added. -/
structure Headers where
  fields : List (HeaderName × HeaderValue)
deriving DecidableEq, Repr

namespace Headers

/-- No header fields. -/
def empty : Headers := ⟨[]⟩

/-- The values of a name in their order. -/
def values (headers : Headers) (name : HeaderName) : List HeaderValue :=
  headers.fields.filterMap fun (n, value) => if n = name then some value else none

/-- Whether a name has a value. -/
def contains (headers : Headers) (name : HeaderName) : Bool :=
  headers.fields.any fun (n, _) => n = name

/-- Add a value behind those of the name. -/
def append (headers : Headers) (name : HeaderName) (value : HeaderValue) : Headers :=
  ⟨headers.fields ++ [(name, value)]⟩

/-- Make a value the only one of its name. -/
def insert (headers : Headers) (name : HeaderName) (value : HeaderValue) : Headers :=
  ⟨headers.fields.filter (fun (n, _) => n ≠ name) ++ [(name, value)]⟩

/-- The first value of a name, if it shows as text. -/
def text? (headers : Headers) (name : HeaderName) : Option String :=
  (headers.values name).head?.bind HeaderValue.text?

/-- The first value under a name given as text; a text that is no name has none. -/
def lookup? (headers : Headers) (name : String) : Option String :=
  (HeaderName.parse? name).bind headers.text?

end Headers

end HttpRouting
