import HttpRouting.Http.Headers
import HttpRouting.Uuid

/-!
Requests: the parsed head and body of one request, with the readings of its path and query that
routing needs.
-/

set_option autoImplicit false
set_option relaxedAutoImplicit false

namespace HttpRouting

/-- A request.  The path stands as it was sent; names and values of the query are decoded. -/
structure Request where
  uuid : Uuid
  method : Method
  path : String
  query : List (String × String)
  headers : Headers
  body : Bytes
deriving DecidableEq, Repr

namespace Request

/-- Cut a text at every escaped slash. -/
def splitEscapedSlashes : List Char → List (List Char)
  | [] => [[]]
  | '%' :: '2' :: 'F' :: rest => [] :: splitEscapedSlashes rest
  | '%' :: '2' :: 'f' :: rest => [] :: splitEscapedSlashes rest
  | c :: rest =>
    match splitEscapedSlashes rest with
    | [] => [[c]]
    | piece :: pieces => (c :: piece) :: pieces

/-- Decode a segment of a path.  An escaped slash stays escaped, so that the segment stays one; a
segment that does not decode stays as it is. -/
def decodeSegment (segment : List Char) : List Char :=
  match (splitEscapedSlashes segment).mapM fun piece => Text.percentDecoded? (String.ofList piece) with
  | some pieces => ['%', '2', 'F'].intercalate (pieces.map String.toList)
  | none => segment

/-- Apply a function to every piece of a path between slashes. -/
def mapSegments (f : List Char → List Char) (path : String) : String :=
  String.ofList (['/'].intercalate ((path.toList.splitOn '/').map f))

/-- The path by which routes are looked up: every segment is cut at its first semicolon and then
decoded. -/
def lookupPath (request : Request) : String :=
  if request.path.toList.contains '%' || request.path.toList.contains ';' then
    mapSegments (fun segment => decodeSegment (Text.upTo ';' segment)) request.path
  else request.path

/-- The decoded path, with what follows semicolons. -/
def decodedPath (request : Request) : String :=
  if request.path.toList.contains '%' then mapSegments decodeSegment request.path else request.path

/-- The first value of a header field, if it shows as text. -/
def header? (request : Request) (name : HeaderName) : Option String :=
  request.headers.text? name

/-- The values of a query parameter in their order. -/
def paramValues (request : Request) (name : String) : List String :=
  request.query.filterMap fun (n, value) => if n = name then some value else none

/-- The first value of a query parameter. -/
def param? (request : Request) (name : String) : Option String :=
  (request.paramValues name).head?

/-- Whether the query has a parameter. -/
def hasParam (request : Request) (name : String) : Bool :=
  request.query.any fun (n, _) => n = name

/-- The type of the body as the request states it. -/
def contentType? (request : Request) : Option String :=
  request.header? .contentType

/-- A request from another origin: one whose authority is not the host that the request names. -/
def isCrossOrigin (request : Request) : Bool :=
  match request.header? .origin with
  | none => false
  | some origin =>
    match request.header? .host with
    | none => true
    | some host =>
      match Text.splitOnce? "://".toList origin.toList with
      | none => true
      | some (_, authority) => !Text.sameIgnoringCase (String.ofList authority) host

/-- A preflight asks on behalf of another origin which requests are allowed. -/
def isPreflight (request : Request) : Bool :=
  request.method == .options && request.headers.contains .origin
    && request.headers.contains .requestMethod

end Request

/-- Why no request can be made. -/
inductive RequestError where
  | invalidMethod (method : String)
  | invalidHeaderName (name : String)
  | invalidHeaderValue (name : String)
deriving DecidableEq, Repr

/-- The sentence that reports the error. -/
def RequestError.message : RequestError → String
  | .invalidMethod method => "Invalid method '" ++ method ++ "'."
  | .invalidHeaderName name => "Invalid header name '" ++ name ++ "'."
  | .invalidHeaderValue name => "Invalid value for header '" ++ name ++ "'."

/-- The parts from which a request is made.  Fields given as text are checked last and stand behind
those that are already parsed. -/
structure RequestDraft where
  uuid : Option Uuid
  method : String
  uri : String
  params : List (String × String)
  parsedHeaders : Headers
  headers : List (String × String)
  body : Bytes

namespace RequestDraft

/-- A `GET` of the root. -/
def blank : RequestDraft := ⟨none, "GET", "/", [], .empty, [], []⟩

/-- Decode a name or a value of a query, where a plus sign stands for a blank. -/
def decodeQueryText (raw : List Char) : String :=
  let spaced := String.ofList (raw.map fun c => if c = '+' then ' ' else c)
  (Text.percentDecoded? spaced).getD spaced

/-- The name and the value of one piece of a query; without an equals sign the value is empty. -/
def queryPair (piece : List Char) : String × String :=
  match Text.splitOnce? ['='] piece with
  | some (name, value) => (decodeQueryText name, decodeQueryText value)
  | none => (decodeQueryText piece, decodeQueryText [])

/-- The pairs of a query; empty pieces do not count. -/
def queryPairs (query : List Char) : List (String × String) :=
  ((query.splitOn '&').filter fun piece => !piece.isEmpty).map queryPair

/-- The path and the query pairs of a request target. -/
def target (uri : String) : String × List (String × String) :=
  let (path, query) := (Text.splitOnce? ['?'] uri.toList).getD (uri.toList, [])
  (if path.isEmpty then "/" else String.ofList path, queryPairs query)

/-- Add a header field given as text. -/
def addHeader (headers : Headers) (field : String × String) : Except RequestError Headers :=
  match HeaderName.parse? field.1, HeaderValue.ofText? field.2 with
  | none, _ => .error (.invalidHeaderName field.1)
  | some _, none => .error (.invalidHeaderValue field.1)
  | some name, some value => .ok (headers.append name value)

/-- Make the request; an identifier is supplied for a request that brings none. -/
def build (draft : RequestDraft) (supplied : Uuid) : Except RequestError Request :=
  match Method.parse? draft.method with
  | none => .error (.invalidMethod draft.method)
  | some method =>
    match draft.headers.foldlM addHeader draft.parsedHeaders with
    | .error error => .error error
    | .ok headers =>
      let (path, query) := target draft.uri
      .ok
        { uuid := draft.uuid.getD supplied
          method
          path
          query := query ++ draft.params
          headers
          body := draft.body }

end RequestDraft

end HttpRouting
