import HttpRouting.Pattern.Basic
import HttpRouting.Text.Split

/-!
Reading patterns.  A segment is a wildcard, a catch-all, one capture in braces, fixed text, or a
mixture of fixed text with wildcards and captures.  A catch-all is the last segment, and no name is
bound twice.
-/

set_option autoImplicit false
set_option relaxedAutoImplicit false

namespace HttpRouting

/-- What a mixed segment can lack: the end of a capture, or its name. -/
inductive CaptureFault where
  | unclosed
  | unnamed
deriving DecidableEq, Repr

namespace CaptureFault

/-- The fault as an error of a whole pattern. -/
def inPattern (source : String) : CaptureFault → PatternError
  | .unclosed => .unclosedCapture source
  | .unnamed => .emptyCaptureName source

end CaptureFault

namespace SegmentPart

/-- Put a character in front of the parts, into the fixed text at their start if there is one. -/
def consChar (c : Char) : List SegmentPart → List SegmentPart
  | .literal text :: rest => .literal (String.ofList (c :: text.toList)) :: rest
  | rest => .literal (String.ofList [c]) :: rest

/-- The parts of a mixed segment; with a name given, the text still belongs to a capture whose
name so far is written backwards. -/
def readParts : Option (List Char) → List Char → Except CaptureFault (List SegmentPart)
  | none, [] => .ok []
  | some _, [] => .error .unclosed
  | none, '*' :: rest => (readParts none rest).map (.anyRun :: ·)
  | none, '?' :: rest => (readParts none rest).map (.anyChar :: ·)
  | none, '{' :: rest => readParts (some []) rest
  | none, c :: rest => (readParts none rest).map (consChar c)
  | some name, '}' :: rest =>
    if name.isEmpty then .error .unnamed
    else (readParts none rest).map (.capture (String.ofList name.reverse) :: ·)
  | some name, c :: rest => readParts (some (c :: name)) rest

end SegmentPart

namespace Segment

/-- The text between a pair of braces that enclose a whole segment and hold no brace. -/
def bracedText? : List Char → Option (List Char)
  | '{' :: rest =>
    match rest.getLast? with
    | some '}' =>
      let inner := rest.dropLast
      if inner.contains '{' || inner.contains '}' then none else some inner
    | _ => none
  | _ => none

/-- The segment that a pair of braces around a text makes. -/
def ofBraced : List Char → Except CaptureFault Segment
  | [] => .error .unnamed
  | ['*'] => .error .unnamed
  | '*' :: name => .ok (.catchAll (some (String.ofList name)))
  | name => .ok (.capture (String.ofList name))

/-- Read one segment. -/
def read (text : List Char) : Except CaptureFault Segment :=
  if text = ['*'] then .ok .wildcard
  else if text = ['*', '*'] then .ok (.catchAll none)
  else
    match bracedText? text with
    | some inner => ofBraced inner
    | none =>
      if text.contains '*' || text.contains '?' || text.contains '{' then
        (SegmentPart.readParts none text).map .compound
      else .ok (.literal (String.ofList text))

end Segment

namespace PathPattern

/-- The text of a pattern begins with a slash. -/
def withLeadingSlash (text : String) : String :=
  match text.toList with
  | '/' :: _ => text
  | _ => "/" ++ text

/-- Read the segments of a pattern from left to right; only the last may be a catch-all. -/
def readSegments (source : String) : List (List Char) → Except PatternError (List Segment)
  | [] => .ok []
  | text :: rest =>
    match Segment.read text with
    | .error fault => .error (fault.inPattern source)
    | .ok segment =>
      if segment.isCatchAll && !rest.isEmpty then .error (.catchAllNotLast source)
      else (readSegments source rest).map (segment :: ·)

/-- The first name that a list has met before. -/
def firstRepeated? (seen : List String) : List String → Option String
  | [] => none
  | name :: rest => if seen.contains name then some name else firstRepeated? (name :: seen) rest

/-- Read a pattern. -/
def parse (text : String) : Except PatternError PathPattern :=
  let source := withLeadingSlash text
  match readSegments source (pathSegments source) with
  | .error error => .error error
  | .ok segments =>
    match firstRepeated? [] (segments.flatMap Segment.captureNames) with
    | some name => .error (.duplicateCapture source name)
    | none => .ok ⟨source, segments, hasTrailingSlash source⟩

/-- The text of a pattern without a wildcard segment at its end and without slashes there. -/
def combinationBase (p : PathPattern) : List Char :=
  let text := p.source.toList
  let shortened :=
    match Text.withoutEnd? ['/', '*', '*'] text with
    | some shorter => shorter
    | none => (Text.withoutEnd? ['/', '*'] text).getD text
  Text.dropTrailing '/' shortened

/-- A trailing wildcard of the first pattern gives way to the second; otherwise the two are joined
by one slash. -/
def combinedText (a b : PathPattern) : String :=
  let base := a.combinationBase
  match b.source.toList.dropWhile (· == '/') with
  | [] => if base.isEmpty then "/" else String.ofList base
  | tail => String.ofList (base ++ '/' :: tail)

/-- Join a pattern of a type with a pattern of one of its methods. -/
def combine (a b : PathPattern) : Except PatternError PathPattern :=
  parse (combinedText a b)

end PathPattern

end HttpRouting
