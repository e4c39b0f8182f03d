/-!
Path patterns: a list of segments that a path is read against, together with the text they were
read from.  Patterns are the same when their texts are.
-/

set_option autoImplicit false
set_option relaxedAutoImplicit false

namespace HttpRouting

/-- Why a text is no path pattern. -/
inductive PatternError where
  | unclosedCapture (pattern : String)
  | emptyCaptureName (pattern : String)
  | duplicateCapture (pattern name : String)
  | catchAllNotLast (pattern : String)
deriving DecidableEq, Repr

/-- The sentence that reports the error. -/
def PatternError.message : PatternError → String
  | .unclosedCapture pattern => "Unclosed '\x7b' in pattern '" ++ pattern ++ "'."
  | .emptyCaptureName pattern => "Empty capture name in pattern '" ++ pattern ++ "'."
  | .duplicateCapture pattern name =>
    "Capture '" ++ name ++ "' appears more than once in pattern '" ++ pattern ++ "'."
  | .catchAllNotLast pattern =>
    "Catch-all must be the last segment in pattern '" ++ pattern ++ "'."

/-- A piece of a segment that mixes fixed text with wildcards and captures. -/
inductive SegmentPart where
  | literal (text : String)
  | anyChar
  | anyRun
  | capture (name : String)
deriving DecidableEq, Repr

namespace SegmentPart

/-- The name that a part binds. -/
def captureName? : SegmentPart → Option String
  | .capture name => some name
  | _ => none

/-- How many characters a part prescribes. -/
def literalLength : SegmentPart → Nat
  | .literal text => text.length
  | .anyChar => 1
  | _ => 0

end SegmentPart

/-- One element of a pattern between slashes. -/
inductive Segment where
  | literal (text : String)
  | wildcard
  | capture (name : String)
  | compound (parts : List SegmentPart)
  | catchAll (name : Option String)
deriving DecidableEq, Repr

/-- The sum of a measure of the entries of a list. -/
def totalOf {α : Type} (measure : α → Nat) : List α → Nat
  | [] => 0
  | x :: rest => measure x + totalOf measure rest

namespace Segment

/-- Whether the segment stands for the whole rest of a path. -/
def isCatchAll : Segment → Bool
  | .catchAll _ => true
  | _ => false

/-- Whether the segment is fixed text. -/
def isLiteral : Segment → Bool
  | .literal _ => true
  | _ => false

/-- The names that a segment binds, from left to right. -/
def captureNames : Segment → List String
  | .capture name => [name]
  | .catchAll (some name) => [name]
  | .compound parts => parts.filterMap SegmentPart.captureName?
  | _ => []

/-- How many unnamed wildcards a segment has that stand for any text. -/
def wildcardCount : Segment → Nat
  | .wildcard => 1
  | .catchAll none => 1
  | .compound parts => parts.countP (· == .anyRun)
  | _ => 0

/-- How many characters a segment prescribes. -/
def literalLength : Segment → Nat
  | .literal text => text.length
  | .compound parts => totalOf SegmentPart.literalLength parts
  | _ => 0

end Segment

/-- The non-empty pieces of a path between its slashes. -/
def pathSegments (path : String) : List (List Char) :=
  (path.toList.splitOn '/').filter fun piece => !piece.isEmpty

/-- Whether a path longer than a slash ends in one. -/
def hasTrailingSlash (path : String) : Bool :=
  match path.toList with
  | [] => false
  | [_] => false
  | chars => chars.getLast? == some '/'

/-- A pattern with the text it was read from. -/
structure PathPattern where
  source : String
  segments : List Segment
  trailingSlash : Bool
deriving DecidableEq, Repr

namespace PathPattern

/-- Patterns are the same when their texts are. -/
instance : BEq PathPattern :=
  ⟨fun a b => a.source == b.source⟩

/-- The order of the texts. -/
def textOrder (a b : PathPattern) : Ordering :=
  compare a.source b.source

/-- Whether the pattern has anything besides fixed text. -/
def hasWildcards (p : PathPattern) : Bool :=
  p.segments.any fun segment => !segment.isLiteral

/-- Whether the pattern ends in a catch-all. -/
def hasCatchAll (p : PathPattern) : Bool :=
  match p.segments.getLast? with
  | some segment => segment.isCatchAll
  | none => false

/-- The names that the pattern binds, from left to right. -/
def captureNames (p : PathPattern) : List String :=
  p.segments.flatMap Segment.captureNames

end PathPattern

end HttpRouting
