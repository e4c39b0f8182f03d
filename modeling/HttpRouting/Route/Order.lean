import HttpRouting.Route.Match

/-!
Which of two routes fits a request better.  Conditions are compared one after the other, and the
first difference decides; when only the head is read, the methods are compared before all else.
-/

set_option autoImplicit false
set_option relaxedAutoImplicit false

namespace HttpRouting.Route

/-- Compare the patterns in turn; when one list is a beginning of the other, the longer is better. -/
def comparePatterns (context : RequestContext) : List PathPattern → List PathPattern → Ordering
  | [], [] => .eq
  | _ :: _, [] => .lt
  | [], _ :: _ => .gt
  | a :: as, b :: bs =>
    (PathPattern.specificity context.lookupPath a b).then (comparePatterns context as bs)

/-- More methods are better; of two single ones an explicit head is, when the head is read. -/
def compareMethods (context : RequestContext) (a b : List Method) : Ordering :=
  if b.length ≠ a.length then compare b.length a.length
  else if a.length = 1 && context.request.method == .head then
    compare (b.contains .head) (a.contains .head)
  else .eq

/-- The more specific first media type is better, and any is better than none. -/
def compareConsumes (a b : List MediaExpression) : Ordering :=
  match a, b with
  | x :: _, y :: _ => x.mediaType.specificity y.mediaType
  | _ :: _, [] => .lt
  | [], _ :: _ => .gt
  | [], [] => .eq

/-- The first type of a list of accepted types that a route can produce, by its place, with the
type it produces for it.  A route without declared types can produce any. -/
def bestProduced (produces : List MediaExpression) : List MediaType → Nat × MediaType
  | [] => (0, .all)
  | accept :: rest =>
    let found :=
      if produces.isEmpty then some MediaType.all
      else (MediaExpression.mediaTypes produces).find? fun m => accept.compatible m
    match found with
    | some m => (0, m)
    | none =>
      let (place, m) := bestProduced produces rest
      (place + 1, m)

/-- An earlier accepted type is better, and then the more specific type. -/
def compareProduces (context : RequestContext) (a b : List MediaExpression) : Ordering :=
  let (placeA, typeA) := bestProduced a context.accepted
  let (placeB, typeB) := bestProduced b context.accepted
  (compare placeA placeB).then (typeA.specificity typeB)

/-- The conditions in turn: patterns, query, header fields, consumed and produced types, methods. -/
def compareConditions (context : RequestContext) (a b : Route) : Ordering :=
  (comparePatterns context a.patterns b.patterns).then
    ((Expression.rank a.params b.params).then
      ((Expression.rank a.headers b.headers).then
        ((compareConsumes a.consumes b.consumes).then
          ((compareProduces context a.produces b.produces).then
            (compareMethods context a.methods b.methods)))))

/-- The better route for a request comes first. -/
def compareFor (context : RequestContext) (a b : Route) : Ordering :=
  if context.request.method == .head then
    (compareMethods context a.methods b.methods).then (compareConditions context a b)
  else compareConditions context a b

end HttpRouting.Route
