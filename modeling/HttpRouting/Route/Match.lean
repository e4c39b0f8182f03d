import HttpRouting.Http.Request
import HttpRouting.Pattern.Match
import HttpRouting.Pattern.Order
import HttpRouting.Route.Basic

/-!
Matching routes.  A route that matches a request is narrowed to what matched: the patterns that
match the path, the most specific one first, the one method, and the media types that fit.
-/

set_option autoImplicit false
set_option relaxedAutoImplicit false

namespace HttpRouting

/-- A request with the path to look up; when lenient, a trailing slash of the path needs no
counterpart in a pattern. -/
structure RequestContext where
  request : Request
  lookupPath : String
  lenient : Bool

namespace RequestContext

/-- The media types that the request accepts, in the order of preference; without any, all. -/
def accepted (context : RequestContext) : List MediaType :=
  let listed := ((context.request.header? .accept).map MediaType.parseList).getD []
  MediaType.sortByPreference (if listed.isEmpty then [MediaType.all] else listed)

/-- The method that a preflight asks for. -/
def preflightMethod? (context : RequestContext) : Option Method :=
  (context.request.header? .requestMethod).bind fun text => Method.parse? (Text.trimmed text)

end RequestContext

namespace Route

/-- The patterns that match, the most specific first; none if no pattern does. -/
def narrowPatterns (context : RequestContext) (patterns : List PathPattern) :
    Option (List PathPattern) :=
  match patterns.filter fun p => p.matchesPath context.lookupPath context.lenient with
  | [] => none
  | found => some (Sorting.sortBy (PathPattern.specificity context.lookupPath) found)

/-- The declared method for a requested one: itself, or reading the head by a declared get. -/
def narrowToMethod (methods : List Method) (requested : Method) : Option (List Method) :=
  if methods.contains requested then some [requested]
  else if requested == .head && methods.contains .get then some [.get]
  else none

/-- Narrow the methods.  No declared method stands for all, and a preflight is matched by the
method that it asks for. -/
def narrowMethods (context : RequestContext) (methods : List Method) : Option (List Method) :=
  if methods.isEmpty then some []
  else if context.request.isPreflight then context.preflightMethod?.bind (narrowToMethod methods)
  else narrowToMethod methods context.request.method

/-- The expressions over the query, if all hold. -/
def narrowParams (context : RequestContext) (params : List Expression) : Option (List Expression) :=
  if params.all fun e => e.holds (context.request.param? e.name) then some params else none

/-- The expressions over the header fields, if all hold.  A preflight need not satisfy any. -/
def narrowHeaders (context : RequestContext) (headers : List Expression) :
    Option (List Expression) :=
  if context.request.isPreflight then some []
  else if headers.all fun e => e.holds (context.request.headers.lookup? e.name) then some headers
  else none

/-- The entries of a list, unless there is none. -/
def nonempty? {α : Type} : List α → Option (List α)
  | [] => none
  | entries => some entries

/-- The media types that the body of the request fits.  A body of no stated type is taken as a
stream of octets. -/
def narrowConsumes (context : RequestContext) (consumes : List MediaExpression) :
    Option (List MediaExpression) :=
  if context.request.isPreflight || consumes.isEmpty then some []
  else
    match MediaType.parse (context.request.contentType?.getD "application/octet-stream") with
    | .error _ => none
    | .ok contentType =>
      nonempty? (consumes.filter fun e => e.mediaType.includes contentType != e.negated)

/-- The media types that the request accepts. -/
def narrowProduces (context : RequestContext) (produces : List MediaExpression) :
    Option (List MediaExpression) :=
  if context.request.isPreflight || produces.isEmpty then some []
  else
    nonempty? (produces.filter fun e =>
      context.accepted.any (fun m => m.compatible e.mediaType) != e.negated)

/-- Narrow a route to what matches the request, if every condition does. -/
def narrow (context : RequestContext) (route : Route) : Option Route := do
  let methods ← narrowMethods context route.methods
  let params ← narrowParams context route.params
  let headers ← narrowHeaders context route.headers
  let consumes ← narrowConsumes context route.consumes
  let produces ← narrowProduces context route.produces
  let patterns ← narrowPatterns context route.patterns
  return { name := route.name, patterns, methods, params, headers, consumes, produces }

end Route

end HttpRouting
