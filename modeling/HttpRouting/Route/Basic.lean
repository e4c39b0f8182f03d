import HttpRouting.Http.Token
import HttpRouting.Pattern.Reader
import HttpRouting.Route.Expression
import HttpRouting.Route.Spec

/-!
Routes: the conditions under which a request belongs to a handler.  A route is read from its
declaration, and the route of a controller is combined with that of a method.  Routes are the same
when all their conditions are; the name does not count.
-/

set_option autoImplicit false
set_option relaxedAutoImplicit false

namespace HttpRouting

/-- Why a declaration is no route. -/
inductive RouteError where
  | pattern (error : PatternError)
  | mediaType (error : MediaTypeError)
  | invalidMethod (method : String)
  | invalidExpression (expression : String)
deriving DecidableEq, Repr

/-- The sentence that reports the error. -/
def RouteError.message : RouteError → String
  | .pattern error => error.message
  | .mediaType error => error.message
  | .invalidMethod method => "Invalid request method '" ++ method ++ "'."
  | .invalidExpression expression => "Invalid expression '" ++ expression ++ "'."

/-- The conditions of a route.  Any of the patterns must match, any of the methods if there are
some, all expressions over the query and the header fields, and any of the media types each. -/
structure Route where
  name : Option String
  patterns : List PathPattern
  methods : List Method
  params : List Expression
  headers : List Expression
  consumes : List MediaExpression
  produces : List MediaExpression
deriving Repr

namespace Route

/-- Routes are the same when all conditions are. -/
def same (a b : Route) : Bool :=
  a.patterns == b.patterns && a.methods == b.methods && a.params == b.params
    && a.headers == b.headers && a.consumes == b.consumes && a.produces == b.produces

instance : BEq Route := ⟨same⟩

/-- Each pattern once, in the order of the texts. -/
def canonicalPatterns (patterns : List PathPattern) : List PathPattern :=
  Sorting.dropRepeats (Sorting.sortBy PathPattern.textOrder patterns)

/-- Each method once, in the order of the names. -/
def canonicalMethods (methods : List Method) : List Method :=
  Sorting.dropRepeats (Sorting.sortBy Method.nameOrder methods)

/-- Read a pattern of a route. -/
def readPattern (text : String) : Except RouteError PathPattern :=
  (PathPattern.parse text).mapError .pattern

/-- Read the patterns of a route; without any the route has the root as its pattern. -/
def readPatterns (texts : List String) : Except RouteError (List PathPattern) := do
  let patterns ← (if texts.isEmpty then [""] else texts).mapM readPattern
  return canonicalPatterns patterns

/-- Read a method of a route, in any case. -/
def readMethod (text : String) : Except RouteError Method :=
  let name := Text.upper (Text.trimmed text)
  match Method.parse? name with
  | some method => .ok method
  | none => .error (.invalidMethod name)

/-- Read the methods of a route. -/
def readMethods (texts : List String) : Except RouteError (List Method) := do
  return canonicalMethods (← texts.mapM readMethod)

/-- Read an expression over the query. -/
def readParam (text : String) : Except RouteError Expression :=
  match Expression.parse? text with
  | some expression => .ok expression
  | none => .error (.invalidExpression text)

/-- Read the expressions over the query. -/
def readParams (texts : List String) : Except RouteError (List Expression) := do
  return Expression.canonical (← texts.mapM readParam)

/-- Read an expression over the header fields, where the case of the name does not matter. -/
def readHeader (text : String) : Except RouteError Expression :=
  (readParam text).map Expression.withLowerName

/-- Read the expressions over the header fields. -/
def readHeaders (texts : List String) : Except RouteError (List Expression) := do
  return Expression.canonical (← texts.mapM readHeader)

/-- Read a media type expression of a route. -/
def readMedia (text : String) : Except RouteError MediaExpression :=
  (MediaExpression.parse text).mapError .mediaType

/-- Read the media type expressions of a route. -/
def readMedias (texts : List String) : Except RouteError (List MediaExpression) := do
  return MediaExpression.canonical (← texts.mapM readMedia)

/-- Read a route from its declaration. -/
def ofSpec (spec : RouteSpec) : Except RouteError Route := do
  let patterns ← readPatterns spec.paths
  let methods ← readMethods spec.methods
  let params ← readParams spec.params
  let headers ← readHeaders spec.headers
  let consumes ← readMedias spec.consumes
  let produces ← readMedias spec.produces
  return { name := spec.name, patterns, methods, params, headers, consumes, produces }

/-- Names of a controller and a method are joined by a number sign. -/
def combineNames : Option String → Option String → Option String
  | some outer, some inner => some (outer ++ "#" ++ inner)
  | some outer, none => some outer
  | none, inner => inner

/-- Every pattern of the controller joined with every pattern of the method. -/
def combinePatterns (outer inner : List PathPattern) : Except RouteError (List PathPattern) := do
  let pairs := outer.flatMap fun a => inner.map fun b => (a, b)
  let combined ← pairs.mapM fun (a, b) => (a.combine b).mapError .pattern
  return canonicalPatterns combined

/-- The declaration of the method, if it has any entry, replaces that of the controller. -/
def overrideMedia (outer inner : List MediaExpression) : List MediaExpression :=
  if inner.isEmpty then outer else inner

/-- Combine the route of a controller with that of one of its methods. -/
def combine (outer inner : Route) : Except RouteError Route := do
  let patterns ← combinePatterns outer.patterns inner.patterns
  return {
    name := combineNames outer.name inner.name
    patterns
    methods := canonicalMethods (outer.methods ++ inner.methods)
    params := Expression.canonical (outer.params ++ inner.params)
    headers := Expression.canonical (outer.headers ++ inner.headers)
    consumes := overrideMedia outer.consumes inner.consumes
    produces := overrideMedia outer.produces inner.produces }

/-- The paths that the route matches literally. -/
def directPaths (route : Route) : List String :=
  (route.patterns.filter fun p => !p.hasWildcards).map PathPattern.source

end Route

end HttpRouting
