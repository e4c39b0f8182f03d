import HttpRouting.Json.Basic
import HttpRouting.Quality
import HttpRouting.Route.Order
import HttpRouting.Route.Printer

/-!
Media types and routes in JSON: what they say, what of them a request leaves, and how they compare.
-/

set_option autoImplicit false
set_option relaxedAutoImplicit false

namespace HttpRouting.Report

/-- An order as a sign. -/
def ordering : Ordering → Json
  | .lt => .ofInt (-1)
  | .eq => .ofInt 0
  | .gt => .ofInt 1

/-- A table over all pairs of items. -/
def table {α : Type} (items : List α) (cell : α → α → Json) : Json :=
  .array (items.map fun a => .array (items.map fun b => cell a b))

/-- A media type; its quality shows as the word that stands for it, which a NaN does not have. -/
def mediaType (m : MediaType) : Json :=
  Json.ofFields
    [("text", .ofString m.text), ("type", .ofString m.mainType), ("subtype", .ofString m.subtype),
      ("quality_bits",
        match m.quality.bits? with
        | some bits => .ofNat bits
        | none => .ofString "NaN"),
      ("wildcard_type", .bool m.isWildcardType), ("wildcard_subtype", .bool m.isWildcardSubtype)]

/-- A route with the text of each of its conditions. -/
def route (r : Route) : Json :=
  Json.ofFields
    [("text", .ofString r.text), ("name", Json.ofOption .ofString r.name),
      ("direct_paths", .ofStrings r.directPaths),
      ("patterns", .ofStrings (r.patterns.map PathPattern.source)),
      ("methods", .ofStrings (r.methods.map Method.name)),
      ("params", .ofStrings (r.params.map Expression.text)),
      ("headers", .ofString (Route.expressionsText r.headers)),
      ("consumes", .ofString (Route.mediaText r.consumes)),
      ("produces", .ofString (Route.mediaText r.produces)),
      ("consumes_types",
        .ofStrings ((MediaExpression.mediaTypes r.consumes).map MediaType.text)),
      ("produces_types",
        .ofStrings ((MediaExpression.mediaTypes r.produces).map MediaType.text))]

/-- A text under a name, if there is one. -/
def named {α : Type} (name : String) (text : α → String) (value : Option α) : String × Json :=
  (name, Json.ofOption (fun value => .ofString (text value)) value)

/-- What a request leaves of each condition of a route, and of the route as a whole. -/
def narrowing (context : RequestContext) (r : Route) : Json :=
  Json.ofFields
    [named "patterns" Route.patternsText (Route.narrowPatterns context r.patterns),
      named "methods" Route.methodsText (Route.narrowMethods context r.methods),
      named "params" Route.expressionsText (Route.narrowParams context r.params),
      named "headers" Route.expressionsText (Route.narrowHeaders context r.headers),
      named "consumes" Route.mediaText (Route.narrowConsumes context r.consumes),
      named "produces" Route.mediaText (Route.narrowProduces context r.produces),
      named "all" Route.text (r.narrow context)]

/-- How the conditions of two routes compare, and the routes as a whole. -/
def comparison (context : RequestContext) (a b : Route) : Json :=
  .array
    ([Route.comparePatterns context a.patterns b.patterns, Expression.rank a.params b.params,
      Expression.rank a.headers b.headers, Route.compareConsumes a.consumes b.consumes,
      Route.compareProduces context a.produces b.produces,
      Route.compareMethods context a.methods b.methods,
      Route.compareFor context a b].map ordering)

/-- How two routes compare, if both are there. -/
def comparison? (context : RequestContext) : Option Route → Option Route → Json
  | some a, some b => ordering (Route.compareFor context a b)
  | _, _ => .null

end HttpRouting.Report
