import HttpRouting.Mapping.MethodMapping
import HttpRouting.Pattern.Order
import HttpRouting.Pattern.Reader

/-!
Mappings from path patterns straight to request handlers.  A path that is registered literally wins;
otherwise the most specific pattern that matches does, the first of equals, and a default handler
takes what is left.
-/

set_option autoImplicit false
set_option relaxedAutoImplicit false

namespace HttpRouting

/-- A mapping from patterns to request handlers. -/
structure UrlMapping where
  name : String
  exact : Table String RequestHandler
  patterns : List (PathPattern × RequestHandler)
  fallback : Option RequestHandler
  lenient : Bool
  cors : Option CorsConfig

/-- What a look-up by path finds: the text of the pattern, what it binds, and the handler. -/
structure UrlMatch where
  pattern : String
  bindings : Variables
  handler : RequestHandler

namespace UrlMapping

/-- A mapping without registrations. -/
def new (name : String) : UrlMapping :=
  ⟨name, .empty, [], none, false, none⟩

/-- How many patterns are registered. -/
def size (m : UrlMapping) : Nat :=
  m.exact.entries.length + m.patterns.length

/-- A pattern that is registered keeps its handler. -/
def keepHandler (m : UrlMapping) (pattern : PathPattern) (existing handler : RequestHandler) :
    Except MappingError UrlMapping :=
  if existing = handler then .ok m
  else .error (.ambiguousMapping pattern.source existing.name handler.name)

/-- Register a handler for a pattern. -/
def register (m : UrlMapping) (pattern : String) (handler : RequestHandler) :
    Except MappingError UrlMapping :=
  match PathPattern.parse pattern with
  | .error error => .error (.invalidMapping handler.name error.message)
  | .ok parsed =>
    if parsed.hasWildcards then
      match m.patterns.find? fun entry => entry.1 == parsed with
      | some (_, existing) => m.keepHandler parsed existing handler
      | none => .ok { m with patterns := m.patterns ++ [(parsed, handler)] }
    else
      match m.exact.get? parsed.source with
      | some existing => m.keepHandler parsed existing handler
      | none => .ok { m with exact := m.exact.put parsed.source handler }

/-- The registered patterns that match a path, with what they bind. -/
def matching (m : UrlMapping) (path : String) : List (PathPattern × Variables × RequestHandler) :=
  m.patterns.filterMap fun (pattern, handler) =>
    (pattern.match? path m.lenient).map fun bindings => (pattern, bindings, handler)

/-- Find the handler of a path. -/
def lookup (m : UrlMapping) (path : String) : Option UrlMatch :=
  match m.exact.get? path with
  | some handler => some ⟨path, [], handler⟩
  | none =>
    (Sorting.firstLeast? (fun a b => PathPattern.specificity path a.1 b.1) (m.matching path)).map
      fun (pattern, bindings, handler) => ⟨pattern.source, bindings, handler⟩

/-- Whether a segment of a pattern has wildcards or captures. -/
def hasWildcard (segment : List Char) : Bool :=
  segment.any fun c => c = '*' || c = '?' || c = '{'

/-- The part of a path behind the segments at the start of a pattern that are fixed text. -/
def pathWithin (pattern path : String) : String :=
  if pattern = path then path
  else
    let fixed := (pathSegments pattern).takeWhile fun segment => !hasWildcard segment
    String.ofList (['/'].intercalate ((pathSegments path).drop fixed.length))

/-- Note a match on the exchange. -/
def note (found : UrlMatch) (path : String) (work : Work) : Work :=
  ((work.setAttribute Attributes.bestPattern (.text found.pattern)).setAttribute
    Attributes.pathWithinMapping (.text (pathWithin found.pattern path))).setAttribute
    Attributes.pathVariables (.bindings found.bindings)

/-- Find the handler of a path and note how it was found. -/
def choose (m : UrlMapping) (path : String) (work : Work) : Option (Work × RequestHandler) :=
  match m.lookup path with
  | some found => some (note found path work, found.handler)
  | none =>
    m.fallback.map fun handler =>
      (work.setAttribute Attributes.pathWithinMapping (.text path), handler)

/-- Find the handler of a request, with the policy of the mapping in force. -/
def find (m : UrlMapping) (exchange : Exchange) : Work × Except MappingError (Option Handler) :=
  match m.choose exchange.request.lookupPath exchange.work with
  | none => (exchange.work, .ok none)
  | some (work, handler) =>
    if m.cors.isSome || exchange.request.isPreflight then
      (Handler.request handler).underCheckedPolicy m.cors exchange.request work
    else (work, .ok (some (.request handler)))

/-- The mapping as one of those that a dispatcher asks. -/
def toHandlerMapping (m : UrlMapping) : HandlerMapping :=
  ⟨m.name, m.find⟩

end UrlMapping

end HttpRouting
