import HttpRouting.Cors.Config
import HttpRouting.Http.Request
import HttpRouting.Http.Response
import HttpRouting.Text.Blank

/-!
Answering cross-origin requests: the header fields that a policy grants are written to the
response, or the request is refused.
-/

set_option autoImplicit false
set_option relaxedAutoImplicit false

namespace HttpRouting.Cors

/-- The header fields on which an answer depends. -/
def varyNames : List String :=
  ["Origin", "Access-Control-Request-Method", "Access-Control-Request-Headers"]

/-- Name the header fields on which the answer depends. -/
def addVary (response : Response) : Response :=
  { response with
    headers := varyNames.foldl (fun headers name => headers.append .vary (.ofPlain name))
      response.headers }

/-- Set a header field; a text that is no value leaves the fields as they are. -/
def setField (headers : Headers) (name : HeaderName) (value : String) : Headers :=
  match HeaderValue.ofText? value with
  | some value => headers.insert name value
  | none => headers

/-- The method that a request is about: the one asked for by a preflight, or its own. -/
def methodAsked? (request : Request) : Option Method :=
  if request.isPreflight then
    (request.header? .requestMethod).bind fun text => Method.parse? (Text.trimmed text)
  else some request.method

/-- The header fields that a preflight asks for; any other request asks for none. -/
def headersAsked (request : Request) : List String :=
  if request.isPreflight then
    match request.header? .requestHeaders with
    | some text =>
      ((text.toList.splitOn ',').map fun item => String.ofList (Text.trim item)).filter
        fun item => !item.isEmpty
    | none => []
  else []

/-- What a policy grants to a request: the origin, the methods and the header fields to name. -/
structure Grant where
  origin : String
  methods : List String
  headers : List String
deriving DecidableEq, Repr

/-- Check a request against a policy. -/
def grant? (config : CorsConfig) (request : Request) : Option Grant := do
  let origin ← config.checkOrigin ((request.header? .origin).getD "")
  let method ← methodAsked? request
  let methods ← config.checkMethod method
  let headers ← config.checkHeaders (headersAsked request)
  return ⟨origin, methods, headers⟩

/-- Write the fields that only the answer to a preflight has. -/
def writePreflight (config : CorsConfig) (grant : Grant) (headers : Headers) : Headers :=
  let headers := setField headers .allowMethods (",".intercalate grant.methods)
  let headers :=
    if grant.headers.isEmpty then headers
    else setField headers .allowHeaders (", ".intercalate grant.headers)
  match config.maxAge with
  | some seconds => setField headers .maxAge (toString seconds)
  | none => headers

/-- Write the field that only the answer to an actual request has. -/
def writeExposed (config : CorsConfig) (headers : Headers) : Headers :=
  match config.exposedHeaders with
  | some (name :: names) => setField headers .exposeHeaders (", ".intercalate (name :: names))
  | _ => headers

/-- Write all that a policy grants. -/
def writeGrant (config : CorsConfig) (request : Request) (grant : Grant) (headers : Headers) :
    Headers :=
  let headers := setField headers .allowOrigin grant.origin
  let headers :=
    if request.isPreflight then writePreflight config grant headers
    else writeExposed config headers
  if config.credentialsAllowed then setField headers .allowCredentials "true" else headers

/-- Refuse the request. -/
def reject (response : Response) : Response :=
  response.sendError .forbidden "Invalid CORS request"

/-- Answer a request under a policy.  The flag tells whether the handler may run: only a request
from another origin that the policy does not allow is refused.  A response that already names an
origin is left alone. -/
def process (config : Option CorsConfig) (request : Request) (response : Response) :
    Bool × Response :=
  let response := addVary response
  match config with
  | none => (true, response)
  | some config =>
    if !request.isCrossOrigin || response.headers.contains .allowOrigin then (true, response)
    else
      match grant? config request with
      | none => (false, reject response)
      | some grant =>
        (true, { response with headers := writeGrant config request grant response.headers })

end HttpRouting.Cors
