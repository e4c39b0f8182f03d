import HttpRouting.Route.Basic

/-!
The text of a route: its methods and patterns, followed by the conditions that it has.
-/

set_option autoImplicit false
set_option relaxedAutoImplicit false

namespace HttpRouting.Route

/-- Texts joined by a separator. -/
def joined (separator : String) (texts : List String) : String :=
  separator.intercalate texts

/-- One text as it is, and any other number of them in brackets. -/
def oneOrList : List String → String
  | [text] => text
  | texts => "[" ++ joined ", " texts ++ "]"

/-- The text of the patterns. -/
def patternsText (patterns : List PathPattern) : String :=
  oneOrList (patterns.map PathPattern.source)

/-- The text of the methods. -/
def methodsText (methods : List Method) : String :=
  oneOrList (methods.map Method.name)

/-- The text of expressions that must all hold. -/
def expressionsText (expressions : List Expression) : String :=
  joined " && " (expressions.map Expression.text)

/-- The text of media types of which one must match. -/
def mediaText (expressions : List MediaExpression) : String :=
  joined " || " (expressions.map MediaExpression.text)

/-- A condition with its title, or nothing for an empty one. -/
def titled (title condition : String) : String :=
  if condition.isEmpty then "" else ", " ++ title ++ " [" ++ condition ++ "]"

/-- The text of a route. -/
def text (route : Route) : String :=
  "\x7b" ++ (if route.methods.isEmpty then "" else methodsText route.methods ++ " ")
    ++ patternsText route.patterns
    ++ titled "params" (expressionsText route.params)
    ++ titled "headers" (expressionsText route.headers)
    ++ titled "consumes" (mediaText route.consumes)
    ++ titled "produces" (mediaText route.produces) ++ "\x7d"

end HttpRouting.Route
