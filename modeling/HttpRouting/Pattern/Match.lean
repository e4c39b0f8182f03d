import HttpRouting.Pattern.Basic

/-!
Matching paths.  A pattern matches when its segments match the segments of the path one by one, or
up to a catch-all, and the trailing slashes agree.  A mixed segment is matched by a table with one
entry for every suffix of the text; an entry holds the lengths of its runs, each as short as it can
be, so no suffix is tried twice for the same part.
-/

set_option autoImplicit false
set_option relaxedAutoImplicit false

namespace HttpRouting

/-- The texts bound to names, from left to right. -/
abbrev Variables := List (String × String)

namespace SegmentPart

/-- The lengths of the runs of a match, from left to right; wildcards for any text and captures are
runs. -/
abbrev RunLengths := List Nat

/-- How the parts match every suffix of a text, from the whole text down to the empty one; no entry
where they do not match. -/
abbrev SuffixTable := List (Option RunLengths)

/-- With no part left only the empty suffix matches. -/
def emptyTable : List Char → SuffixTable
  | [] => [some []]
  | _ :: rest => none :: emptyTable rest

/-- The entry of a table that lies a number of characters further. -/
def entryAt (table : SuffixTable) (distance : Nat) : Option RunLengths :=
  (table[distance]?).join

/-- A fixed text in front of the parts of a table. -/
def literalTable (text : List Char) : List Char → SuffixTable → SuffixTable
  | [], table => [if text.isEmpty then entryAt table 0 else none]
  | c :: rest, table =>
    (if text.isPrefixOf (c :: rest) then entryAt table text.length else none)
      :: literalTable text rest table.tail

/-- One character of any kind in front of the parts of a table. -/
def anyCharTable (table : SuffixTable) : SuffixTable :=
  table.tail ++ [none]

/-- Let the first run take one character more. -/
def lengthen : RunLengths → RunLengths
  | [] => []
  | length :: lengths => (length + 1) :: lengths

/-- A run in front of the parts of a table: on every suffix the shortest after which they match. -/
def runTable : List Char → SuffixTable → SuffixTable
  | [], table => [(entryAt table 0).map fun lengths => 0 :: lengths]
  | _ :: rest, table =>
    let later := runTable rest table.tail
    let here :=
      match entryAt table 0 with
      | some lengths => some (0 :: lengths)
      | none => (entryAt later 0).map lengthen
    here :: later

/-- The table of a list of parts. -/
def table (text : List Char) : List SegmentPart → SuffixTable
  | [] => emptyTable text
  | .literal fixed :: rest => literalTable fixed.toList text (table text rest)
  | .anyChar :: rest => anyCharTable (table text rest)
  | .anyRun :: rest => runTable text (table text rest)
  | .capture _ :: rest => runTable text (table text rest)

/-- What the captures among parts bind on a text that they match with given runs. -/
def bound : List SegmentPart → RunLengths → List Char → Variables
  | .literal fixed :: parts, lengths, text => bound parts lengths (text.drop fixed.toList.length)
  | .anyChar :: parts, lengths, text => bound parts lengths (text.drop 1)
  | .anyRun :: parts, length :: lengths, text => bound parts lengths (text.drop length)
  | .capture name :: parts, length :: lengths, text =>
    (name, String.ofList (text.take length)) :: bound parts lengths (text.drop length)
  | _, _, _ => []

/-- What the parts bind on a whole text, if they match it. -/
def matchAll? (parts : List SegmentPart) (text : List Char) : Option Variables :=
  (entryAt (table text parts) 0).map fun lengths => bound parts lengths text

end SegmentPart

namespace Segment

/-- What a segment binds on one segment of a path, if it matches. -/
def match? (segment : Segment) (text : List Char) : Option Variables :=
  match segment with
  | .literal fixed => if fixed.toList = text then some [] else none
  | .wildcard => some []
  | .capture name => some [(name, String.ofList text)]
  | .compound parts => SegmentPart.matchAll? parts text
  | .catchAll _ => some []

/-- The text that a named catch-all binds: the rest of the path behind a slash. -/
def restOfPath (trailingSlash : Bool) (rest : List (List Char)) : String :=
  String.ofList ('/' :: ['/'].intercalate rest
    ++ (if !rest.isEmpty && trailingSlash then ['/'] else []))

/-- What a list of segments binds on the segments of a path; the flags tell whether the path has a
trailing slash and whether that is acceptable without a catch-all. -/
def matchPath? (trailingSlash acceptable : Bool) : List Segment → List (List Char) → Option Variables
  | .catchAll name :: _, rest => some (name.toList.map fun name => (name, restOfPath trailingSlash rest))
  | [], [] => if acceptable then some [] else none
  | [], _ :: _ => none
  | _ :: _, [] => none
  | segment :: segments, text :: rest =>
    match segment.match? text, matchPath? trailingSlash acceptable segments rest with
    | some bound, some more => some (bound ++ more)
    | _, _ => none

end Segment

namespace PathPattern

/-- What a pattern binds on a path, if it matches.  When lenient, a trailing slash of the path
needs no counterpart in the pattern. -/
def match? (p : PathPattern) (path : String) (lenient : Bool) : Option Variables :=
  let trailing := hasTrailingSlash path
  let acceptable := trailing == p.trailingSlash || (lenient && trailing && !p.trailingSlash)
  Segment.matchPath? trailing acceptable p.segments (pathSegments path)

/-- Whether a pattern matches a path. -/
def matchesPath (p : PathPattern) (path : String) (lenient : Bool) : Bool :=
  (p.match? path lenient).isSome

end PathPattern

end HttpRouting
