import HttpRouting.MediaType

/-!
The expressions of a route.  A name with or without a value, perhaps negated, constrains query
parameters and header fields; a media type, perhaps negated, constrains the bodies.
-/

set_option autoImplicit false
set_option relaxedAutoImplicit false

namespace HttpRouting

/-- The expressions `name`, `!name`, `name=value` and `name!=value`. -/
structure Expression where
  name : String
  value : Option String
  negated : Bool
deriving DecidableEq, Repr

namespace Expression

/-- The name, the value and the negation that an expression without blanks at its ends writes. -/
def parts (text : List Char) : List Char × Option (List Char) × Bool :=
  match Text.splitOnce? ['!', '='] text with
  | some (name, value) => (name, some value, true)
  | none =>
    match Text.splitOnce? ['='] text with
    | some (name, value) => (name, some value, false)
    | none =>
      match text with
      | '!' :: name => (name, none, true)
      | name => (name, none, false)

/-- Read an expression; the name may not be blank. -/
def parse? (text : String) : Option Expression :=
  let (name, value, negated) := parts (Text.trim text.toList)
  let name := Text.trim name
  if name.isEmpty then none
  else some ⟨String.ofList name, value.map fun v => String.ofList (Text.trim v), negated⟩

/-- The text of an expression. -/
def text (e : Expression) : String :=
  match e.value, e.negated with
  | some value, true => e.name ++ "!=" ++ value
  | some value, false => e.name ++ "=" ++ value
  | none, true => "!" ++ e.name
  | none, false => e.name

/-- Whether the first value found under the name satisfies the expression. -/
def holds (e : Expression) (actual : Option String) : Bool :=
  let matched :=
    match e.value, actual with
    | none, actual => actual.isSome
    | some expected, some actual => expected == actual
    | some _, none => false
  matched != e.negated

/-- The same expression with its name in small letters. -/
def withLowerName (e : Expression) : Expression :=
  { e with name := Text.lower e.name }

/-- A missing value comes before every value. -/
def valueOrder : Option String → Option String → Ordering
  | none, none => .eq
  | none, some _ => .lt
  | some _, none => .gt
  | some a, some b => compare a b

/-- By name, then by value, and the plain expression before the negated one. -/
def order (a b : Expression) : Ordering :=
  (compare a.name b.name).then ((valueOrder a.value b.value).then (compare a.negated b.negated))

/-- Each expression once, in order. -/
def canonical (expressions : List Expression) : List Expression :=
  Sorting.dropRepeats (Sorting.sortBy order expressions)

/-- More expressions come first, and then more expressions with a value. -/
def rank (a b : List Expression) : Ordering :=
  (compare b.length a.length).then
    (compare (b.countP fun e => e.value.isSome) (a.countP fun e => e.value.isSome))

end Expression

/-- A media type, perhaps negated. -/
structure MediaExpression where
  mediaType : MediaType
  negated : Bool
deriving Repr

namespace MediaExpression

/-- Expressions are the same when their types and negations are. -/
instance : BEq MediaExpression :=
  ⟨fun a b => a.mediaType == b.mediaType && a.negated == b.negated⟩

/-- Read an expression: an exclamation mark negates the type behind it. -/
def parse (text : String) : Except MediaTypeError MediaExpression :=
  match Text.trim text.toList with
  | '!' :: rest => (MediaType.parse (String.ofList rest)).map fun m => ⟨m, true⟩
  | rest => (MediaType.parse (String.ofList rest)).map fun m => ⟨m, false⟩

/-- The text of an expression. -/
def text (e : MediaExpression) : String :=
  (if e.negated then "!" else "") ++ e.mediaType.text

/-- The order of the texts. -/
def textOrder (a b : MediaExpression) : Ordering :=
  compare a.text b.text

/-- Each expression once, in the order of the texts. -/
def canonical (expressions : List MediaExpression) : List MediaExpression :=
  Sorting.dropRepeats (Sorting.sortBy textOrder expressions)

/-- The types that are not negated. -/
def mediaTypes (expressions : List MediaExpression) : List MediaType :=
  (expressions.filter fun e => !e.negated).map MediaExpression.mediaType

end MediaExpression

end HttpRouting
