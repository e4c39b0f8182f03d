import HttpRouting.Pattern.Match
import HttpRouting.Proofs.Pattern.Reading

/-!
Patterns that were read.  Such a pattern is given by its text, and when it is fixed text throughout,
it matches that text as a path.
-/

set_option autoImplicit false
set_option relaxedAutoImplicit false

namespace HttpRouting.PathPattern

/-- Fixed segments match the segments that they are written as. -/
private theorem matchPath?_written (trailing : Bool) {segments : List Segment}
    (literal : segments.all Segment.isLiteral = true) :
    Segment.matchPath? trailing true segments (segments.map Segment.written) = some [] := by
  induction segments with
  | nil => rfl
  | cons segment rest ih =>
    rw [List.all_cons, Bool.and_eq_true] at literal
    cases segment with
    | literal fixed =>
      have here : (Segment.literal fixed).match? fixed.toList = some [] := if_pos rfl
      show Segment.matchPath? trailing true (.literal fixed :: rest) (fixed.toList :: _) = some []
      simp only [Segment.matchPath?, here, ih literal.2]
      rfl
    | _ => exact absurd literal.1 (by simp [Segment.isLiteral])

namespace Parsed

variable {p q : PathPattern}

theorem eq_of_source_eq (parsed : p.Parsed) (parsed' : q.Parsed) (same : p.source = q.source) :
    p = q := by
  obtain ⟨text, read⟩ := parsed
  obtain ⟨text', read'⟩ := parsed'
  obtain ⟨-, slash, segments, -⟩ := parse_eq_ok_iff.mp read
  obtain ⟨-, slash', segments', -⟩ := parse_eq_ok_iff.mp read'
  rw [same] at slash segments
  have same_segments : p.segments = q.segments := Except.ok.inj (segments.symm.trans segments')
  have same_slash : p.trailingSlash = q.trailingSlash := slash.trans slash'.symm
  calc
    p = ⟨p.source, p.segments, p.trailingSlash⟩ := rfl
    _ = ⟨q.source, q.segments, q.trailingSlash⟩ := by rw [same, same_segments, same_slash]
    _ = q := rfl

/-- Fixed text matches itself and binds nothing. -/
theorem match?_source (parsed : p.Parsed) (literal : p.hasWildcards = false) (lenient : Bool) :
    p.match? p.source lenient = some [] := by
  have renders := parsed.renders
  have fixed : p.segments.all Segment.isLiteral = true := by
    simpa [hasWildcards, List.any_eq_false, List.all_eq_true] using literal
  simp only [match?, renders.trailingSlash, BEq.rfl, Bool.true_or]
  rw [← renders.written, matchPath?_written _ fixed]

theorem matchesPath_source (parsed : p.Parsed) (literal : p.hasWildcards = false) (lenient : Bool) :
    p.matchesPath p.source lenient = true := by
  rw [matchesPath, parsed.match?_source literal]
  rfl

end Parsed

end HttpRouting.PathPattern
