import HttpRouting.Handler.Basic
import HttpRouting.Pattern.Match
import HttpRouting.Route.Basic

/-!
Attributes: values under a name and a kind, so that one name can hold a value of every kind.  A place
is addressed by a hash of the name and by the kind.  Stores are made for any kinds of values; the
attributes of an exchange are one for the kinds that are named here.
-/

set_option autoImplicit false
set_option relaxedAutoImplicit false

namespace HttpRouting

/-- The kinds of values. -/
inductive AttributeKind where
  | text
  | number
  | flag
  | handler
  | route
  | bindings
deriving DecidableEq, Repr

/-- A value that an exchange can carry. -/
inductive AttributeValue where
  | text (value : String)
  | number (value : Nat)
  | flag (value : Bool)
  | handler (value : HandlerMethod)
  | route (value : Route)
  | bindings (value : Variables)

/-- The kind of a value. -/
def AttributeValue.kind : AttributeValue → AttributeKind
  | .text _ => .text
  | .number _ => .number
  | .flag _ => .flag
  | .handler _ => .handler
  | .route _ => .route
  | .bindings _ => .bindings

/-- The place of a value. -/
structure AttributeSlot (τ : Type) where
  hash : UInt64
  kind : τ
deriving DecidableEq, Repr

namespace Attributes

/-- The hash of octets: from a start value on, each octet is mixed in by exclusive or and a
multiplication modulo `2 ^ 64`. -/
def hashBytes (bytes : Bytes) : UInt64 :=
  bytes.foldl (fun hash octet => (hash ^^^ octet.toUInt64) * 0x100000001b3) 0xcbf29ce484222325

/-- The hash of a name: its octets, closed by an octet that no text holds. -/
def hashName (name : String) : UInt64 :=
  hashBytes (Text.utf8 name ++ [0xFF])

/-- The place of a name and a kind. -/
def slot {τ : Type} (name : String) (kind : τ) : AttributeSlot τ :=
  ⟨hashName name, kind⟩

end Attributes

/-- Values by their places; no place occurs twice.  Of which kind a value is, it tells itself. -/
structure AttributeStore {τ ν : Type} (kindOf : ν → τ) where
  entries : List (AttributeSlot τ × ν)

namespace AttributeStore

open Attributes (slot)

variable {τ ν : Type} {kindOf : ν → τ}

/-- No values. -/
def empty : AttributeStore kindOf := ⟨[]⟩

/-- How many values there are. -/
def size (a : AttributeStore kindOf) : Nat :=
  a.entries.length

variable [DecidableEq τ]

/-- The value at a place. -/
def at? (a : AttributeStore kindOf) (place : AttributeSlot τ) : Option ν :=
  a.entries.lookup place

/-- The value of a name and a kind. -/
def get? (a : AttributeStore kindOf) (name : String) (kind : τ) : Option ν :=
  a.at? (slot name kind)

/-- Take the value at a place away. -/
def erase (a : AttributeStore kindOf) (name : String) (kind : τ) : AttributeStore kindOf :=
  ⟨a.entries.filter fun entry => entry.1 ≠ slot name kind⟩

/-- Put a value under a name, in place of one of its kind. -/
def insert (a : AttributeStore kindOf) (name : String) (value : ν) : AttributeStore kindOf :=
  ⟨(slot name (kindOf value), value) :: (a.erase name (kindOf value)).entries⟩

end AttributeStore

/-- The attributes of an exchange. -/
abbrev Attributes := AttributeStore AttributeValue.kind

namespace Attributes

/-- No attributes. -/
def empty : Attributes := AttributeStore.empty

/-- The text under a name. -/
def text? (a : Attributes) (name : String) : Option String :=
  match a.get? name .text with
  | some (.text value) => some value
  | _ => none

/-- The handler that was chosen for the request. -/
def bestHandler : String := "routeline.bestMatchingHandler"

/-- The mapping that was chosen, narrowed to what matched. -/
def bestMapping : String := "routeline.bestMatchingMapping"

/-- The pattern of the chosen mapping. -/
def bestPattern : String := "routeline.bestMatchingPattern"

/-- The path that was matched. -/
def pathWithinMapping : String := "routeline.pathWithinHandlerMapping"

/-- What the chosen pattern binds. -/
def pathVariables : String := "routeline.uriTemplateVariables"

/-- The fault that was turned into a response. -/
def exception : String := "routeline.exception"

/-- The boundary of a body in parts. -/
def multipartBoundary : String := "routeline.multipartBoundary"

end Attributes

end HttpRouting
