import HttpRouting.Json.Basic

/-!
Lenient reading of records: a field that is null counts as missing, a missing list is empty, and a
missing flag is not set.
-/

set_option autoImplicit false
set_option relaxedAutoImplicit false

namespace HttpRouting.Json

/-- The value of a field, unless it is null. -/
def given? (json : Json) (name : String) : Option Json :=
  match json.field? name with
  | some .null => none
  | found => found

/-- Read a field that must be given. -/
def need {α : Type} (json : Json) (name : String) (decode : Json → Option α) : Option α :=
  (json.given? name).bind decode

/-- Read a field if it is given. -/
def maybe {α : Type} (json : Json) (name : String) (decode : Json → Option α) : Option (Option α) :=
  match json.given? name with
  | none => some none
  | some value => (decode value).map some

/-- Read a field if it is given, with a default. -/
def orElse {α : Type} (json : Json) (name : String) (decode : Json → Option α) (default : α) :
    Option α :=
  (json.maybe name decode).map fun value => value.getD default

/-- Read the items of a list. -/
def list {α : Type} (json : Json) (name : String) (decode : Json → Option α) : Option (List α) :=
  json.orElse name (fun items => items.array?.bind fun items => items.mapM decode) []

/-- Read a flag. -/
def flag (json : Json) (name : String) : Option Bool :=
  json.orElse name bool? false

/-- Read a list of two. -/
def pair? {α β : Type} (first : Json → Option α) (second : Json → Option β) (json : Json) :
    Option (α × β) := do
  match ← json.array? with
  | [a, b] => return (← first a, ← second b)
  | _ => none

/-- A natural number of 64 bits. -/
def word? (json : Json) : Option Nat :=
  json.natBelow? UInt64.size

/-- An integer whose magnitude has 64 bits. -/
def int? : Json → Option Int
  | .number n =>
    ({ n with negative := false } : JsonNumber).toNat?.map fun value =>
      if n.negative then -value else value
  | _ => none

end HttpRouting.Json
