import HttpRouting.Quality
import HttpRouting.Sorting
import HttpRouting.Text.Blank
import HttpRouting.Text.Split

/-!
Media types: a main type, a subtype and a quality.  One type includes another when its wildcards
cover it.  Two types are the same when their names are; the quality only ranks the types of a list.
-/

set_option autoImplicit false
set_option relaxedAutoImplicit false

namespace HttpRouting

/-- Why a text is no media type. -/
inductive MediaTypeError where
  | invalid (value : String)
deriving DecidableEq, Repr

/-- The sentence that reports the error. -/
def MediaTypeError.message : MediaTypeError → String
  | .invalid value => "Invalid media type '" ++ value ++ "'."

/-- A media type with its quality. -/
structure MediaType where
  mainType : String
  subtype : String
  quality : Quality
deriving DecidableEq, Repr

namespace MediaType

/-- Types are the same when both names agree, whatever their qualities. -/
instance : BEq MediaType :=
  ⟨fun a b => a.mainType == b.mainType && a.subtype == b.subtype⟩

/-- The type that includes every other one. -/
def all : MediaType := ⟨"*", "*", .one⟩

/-- The two names joined by a slash. -/
def text (m : MediaType) : String :=
  m.mainType ++ "/" ++ m.subtype

/-- Whether the main type is a wildcard. -/
def isWildcardType (m : MediaType) : Bool :=
  m.mainType == "*"

/-- The suffix that a wildcard subtype such as `*+json` asks for. -/
def wildcardSuffix? (m : MediaType) : Option (List Char) :=
  ['*', '+'].isPrefixOf? m.subtype.toList

/-- Whether the subtype is a wildcard, with or without a suffix. -/
def isWildcardSubtype (m : MediaType) : Bool :=
  m.subtype == "*" || m.wildcardSuffix?.isSome

/-- The part of the subtype behind its last plus sign. -/
def suffix? (m : MediaType) : Option (List Char) :=
  Text.afterLast? '+' m.subtype.toList

/-- Whether the second type falls within the first. -/
def includes (m other : MediaType) : Bool :=
  if m.isWildcardType then true
  else if m.mainType != other.mainType then false
  else if m.subtype == other.subtype || m.subtype == "*" then true
  else
    match m.wildcardSuffix? with
    | some suffix => other.suffix? == some suffix
    | none => false

/-- Whether either type includes the other. -/
def compatible (a b : MediaType) : Bool :=
  a.includes b || b.includes a

/-- Concrete types rank first, then wildcard subtypes, then wildcard types. -/
def wildcardRank (m : MediaType) : Nat :=
  if m.isWildcardType then 2 else if m.isWildcardSubtype then 1 else 0

/-- The more specific type comes first. -/
def specificity (a b : MediaType) : Ordering :=
  compare a.wildcardRank b.wildcardRank

/-- The higher quality comes first, and then the more specific type. -/
def preference (a b : MediaType) : Ordering :=
  (Quality.order b.quality a.quality).then (a.specificity b)

/-- The quality that a list of parameters leaves; the last one named `q` counts. -/
def qualityOf? (parameters : List (List Char)) : Option Quality :=
  parameters.foldl
    (fun quality parameter =>
      match quality, Text.splitOnce? ['='] parameter with
      | some current, some (name, value) =>
        if Text.sameIgnoringCase (String.ofList (Text.trim name)) "q" then
          Quality.read? (Text.trim value)
        else some current
      | quality, _ => quality)
    (some .one)

/-- The two names of the part of a media type before its parameters. -/
def names? (essence : List Char) : Option (List Char × List Char) :=
  match Text.splitOnce? ['/'] (if essence = ['*'] then ['*', '/', '*'] else essence) with
  | none => none
  | some (mainType, subtype) =>
    if mainType.isEmpty || subtype.isEmpty || subtype.contains '/' then none
    else if mainType = ['*'] && subtype ≠ ['*'] then none
    else some (mainType, subtype)

/-- Read a media type.  Parameters other than the quality are dropped. -/
def parse (value : String) : Except MediaTypeError MediaType :=
  match value.toList.splitOn ';' with
  | [] => .error (.invalid value)
  | essence :: parameters =>
    match names? (Text.trim essence), qualityOf? parameters with
    | some (mainType, subtype), some quality =>
      .ok ⟨Text.lower (String.ofList mainType), Text.lower (String.ofList subtype), quality⟩
    | _, _ => .error (.invalid value)

/-- Read a list separated by commas; entries that are no media types are left out. -/
def parseList (value : String) : List MediaType :=
  (value.toList.splitOn ',').filterMap fun entry => (parse (Text.trimmed (String.ofList entry))).toOption

/-- The types in the order of preference, equal ones as they stood. -/
def sortByPreference (types : List MediaType) : List MediaType :=
  Sorting.sortBy preference types

end MediaType

end HttpRouting
