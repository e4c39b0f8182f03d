import HttpRouting.Pattern.Basic

/-!
Which of two patterns is more specific for a path.  The path itself comes first and catch-alls
last; in between, few wildcards and captures come before many, and much fixed text before little.
-/

set_option autoImplicit false
set_option relaxedAutoImplicit false

namespace HttpRouting.PathPattern

/-- A capture weighs one and an unnamed wildcard a hundred. -/
def score (p : PathPattern) : Nat :=
  p.captureNames.length + 100 * totalOf Segment.wildcardCount p.segments

/-- The characters that constrain a match, a slash for every segment included. -/
def literalLength (p : PathPattern) : Nat :=
  totalOf (fun segment => 1 + segment.literalLength) p.segments

/-- Whether the text of a pattern is the path itself. -/
def isExactly (p : PathPattern) (path : String) : Bool :=
  p.source == path

/-- The more specific pattern for a path comes first. -/
def specificity (path : String) (a b : PathPattern) : Ordering :=
  (compare (b.isExactly path) (a.isExactly path)).then
    ((compare a.hasCatchAll b.hasCatchAll).then
      ((compare a.score b.score).then (compare b.literalLength a.literalLength)))

end HttpRouting.PathPattern
