import HttpRouting.Json.Basic

/-!
Records in JSON.  A record is an object, in which unknown fields are ignored and no known field
stands twice, or an array of the fields in their order.
-/

set_option autoImplicit false
set_option relaxedAutoImplicit false

namespace HttpRouting.Json

/-- The fields found for a record, one place for every known name; `complete` asks for all. -/
structure Found where
  fields : List (Option Json)
  complete : Bool

/-- The only field of a name, if there is one; the error is a second one. -/
def onlyField? (fields : List (Option String × Json)) (name : String) : Option (Option Json) :=
  match fields.filterMap fun (n, value) => if n = some name then some value else none with
  | [] => some none
  | [value] => some (some value)
  | _ => none

/-- Find the known fields of a record.  Fields without a default must all be in an array. -/
def found? (names : List String) : Json → Option Found
  | .object fields =>
    if fields.any fun (name, _) => name.isNone then none
    else (names.mapM (onlyField? fields)).map fun found => ⟨found, false⟩
  | .array items =>
    if names.length < items.length then none
    else some ⟨items.map some ++ List.replicate (names.length - items.length) none, true⟩
  | _ => none

/-- A field with a default. -/
def withDefault {α : Type} (default : α) (decode : Json → Option α) : Option Json → Option α
  | none => some default
  | some value => decode value

/-- A value that may be null. -/
def nullable {α : Type} (decode : Json → Option α) : Json → Option (Option α)
  | .null => some none
  | value => (decode value).map some

/-- A field that may be null, and may be missing unless the record is an array. -/
def optional {α : Type} (complete : Bool) (decode : Json → Option α) :
    Option Json → Option (Option α)
  | none => if complete then none else some none
  | some value => nullable decode value

end HttpRouting.Json
