import HttpRouting.Proofs.Pattern.Parts
import HttpRouting.Proofs.Pattern.Reading
import HttpRouting.Proofs.Text.Split

/-!
What patterns match.  Segments without a catch-all are matched one by one with the segments of a path,
and a catch-all takes what is left.  When nothing in a pattern is without a name, the values put in the
place of the names make up the path again.
-/

set_option autoImplicit false
set_option relaxedAutoImplicit false

namespace HttpRouting

namespace SegmentPart

def isAnonymous : SegmentPart → Bool
  | .anyChar | .anyRun => true
  | .literal _ | .capture _ => false

end SegmentPart

namespace Segment

/-- Whether a segment stands for some text that it binds no name to. -/
def hasAnonymous : Segment → Bool
  | .wildcard | .catchAll none => true
  | .compound parts => parts.any SegmentPart.isAnonymous
  | .literal _ | .capture _ | .catchAll (some _) => false

/-- The texts of single segments of a path that a segment stands for. -/
inductive Accepts : Segment → List Char → Prop
  | literal (text : String) : Accepts (.literal text) text.toList
  | wildcard (text : List Char) : Accepts .wildcard text
  | capture (name : String) (text : List Char) : Accepts (.capture name) text
  | compound {parts : List SegmentPart} {pieces : List (List Char)} {text : List Char} :
      SegmentPart.Cuts parts pieces text → Accepts (.compound parts) text

/-- What segments bind on the segments of a path that they match one by one. -/
inductive BindEach : List Segment → List (List Char) → Variables → Prop
  | nil : BindEach [] [] []
  | cons {segment : Segment} {segments : List Segment} {text : List Char}
      {texts : List (List Char)} {bound more : Variables} :
      segment.match? text = some bound → BindEach segments texts more →
        BindEach (segment :: segments) (text :: texts) (bound ++ more)

end Segment

/-- What a name is bound to; nothing where it is not bound. -/
def valueIn (bindings : Variables) (name : String) : List Char :=
  ((bindings.lookup name).map String.toList).getD []

/-- The text of a pattern with the values of bindings in the place of the names. -/
def PathPattern.fill (p : PathPattern) (bindings : Variables) : String :=
  String.ofList (p.segments.flatMap fun segment =>
    '/' :: segment.spell (valueIn bindings) (valueIn bindings))

/-- The paths that a pattern is meant to match. -/
def PathPattern.Admits (p : PathPattern) (path : String) (lenient : Bool) : Prop :=
  if p.hasCatchAll = true then
    ∃ taken rest, pathSegments path = taken ++ rest ∧
      List.Forall₂ Segment.Accepts p.segments.dropLast taken
  else
    List.Forall₂ Segment.Accepts p.segments (pathSegments path) ∧
      (hasTrailingSlash path = hasTrailingSlash p.source ∨
        lenient = true ∧ hasTrailingSlash path = true ∧ hasTrailingSlash p.source = false)

theorem valueIn_eq_of_mem {bindings : Variables} (distinct : (bindings.map Prod.fst).Nodup)
    {name value : String} (member : (name, value) ∈ bindings) :
    valueIn bindings name = value.toList := by
  obtain ⟨before, behind, rfl⟩ := List.append_of_mem member
  have unmet (other : String × String) (earlier : other ∈ before) : name ≠ other.1 := by
    rintro rfl
    simp only [List.map_append, List.map_cons, List.nodup_append, List.mem_cons] at distinct
    exact distinct.2.2 other.1 (List.mem_map_of_mem earlier) other.1 (.inl rfl) rfl
  have found : (before ++ (name, value) :: behind).lookup name = some value :=
    List.lookup_eq_some_iff.mpr ⟨before, behind, rfl, by simpa using unmet⟩
  rw [valueIn, found]
  rfl

namespace SegmentPart

variable {parts : List SegmentPart} {texts : List (List Char)}

theorem names_captured (each : List.Forall₂ Accepts parts texts) :
    (captured parts texts).map Prod.fst = parts.filterMap captureName? := by
  induction each with
  | nil => rfl
  | cons accepts _ ih =>
    cases accepts with
    | capture name text => exact congrArg (name :: ·) ih
    | _ => exact ih

/-- The pieces are the texts of the parts, with what is bound in the place of the names. -/
theorem flatMap_spell_eq_flatten {value : String → List Char}
    (each : List.Forall₂ Accepts parts texts) (named : ∀ part ∈ parts, part.isAnonymous = false)
    (values : ∀ binding ∈ captured parts texts, value binding.1 = binding.2.toList) :
    parts.flatMap (spell value) = texts.flatten := by
  induction each with
  | nil => rfl
  | cons accepts _ ih =>
    obtain ⟨named_here, named_rest⟩ := List.forall_mem_cons.mp named
    cases accepts with
    | literal text => exact congrArg (text.toList ++ ·) (ih named_rest values)
    | anyChar => cases named_here
    | anyRun => cases named_here
    | capture name =>
      obtain ⟨value_here, values_rest⟩ := List.forall_mem_cons.mp values
      rw [List.flatMap_cons, List.flatten_cons, ih named_rest values_rest, spell, value_here,
        String.toList_ofList]

end SegmentPart

namespace Segment

variable {segment : Segment} {segments front : List Segment} {text : List Char}
  {texts : List (List Char)} {bindings : Variables}

/-- A segment matches the texts that it stands for. -/
theorem exists_match?_iff (single : segment.isCatchAll = false) :
    (∃ bound, segment.match? text = some bound) ↔ segment.Accepts text := by
  constructor
  · rintro ⟨bound, found⟩
    cases segment with
    | literal fixed =>
      simp only [match?] at found
      split at found
      · next same =>
        subst same
        exact .literal fixed
      · cases found
    | wildcard => exact .wildcard text
    | capture name => exact .capture name text
    | compound parts =>
      obtain ⟨pieces, cuts⟩ :=
        SegmentPart.isSome_matchAll?_iff.mp (Option.isSome_iff_exists.mpr ⟨bound, found⟩)
      exact .compound cuts
    | catchAll name => cases single
  · intro accepts
    cases accepts with
    | literal fixed => exact ⟨[], if_pos rfl⟩
    | wildcard => exact ⟨[], rfl⟩
    | capture name => exact ⟨_, rfl⟩
    | compound cuts =>
      exact Option.isSome_iff_exists.mp (SegmentPart.isSome_matchAll?_iff.mpr ⟨_, cuts⟩)

/-- A segment binds its names. -/
theorem names_match? (single : segment.isCatchAll = false)
    (found : segment.match? text = some bindings) : bindings.map Prod.fst = segment.captureNames := by
  cases segment with
  | literal fixed =>
    simp only [match?] at found
    split at found <;> cases found
    rfl
  | wildcard =>
    cases found
    rfl
  | capture name =>
    cases found
    rfl
  | compound parts =>
    obtain ⟨pieces, cuts, rfl, -⟩ := SegmentPart.exists_cuts_of_matchAll? found
    exact SegmentPart.names_captured cuts.each
  | catchAll name => cases single

/-- A segment with a name for all that it stands for is the text, with what is bound in the place of
the names. -/
theorem spell_of_match? {value rest : String → List Char} (single : segment.isCatchAll = false)
    (named : segment.hasAnonymous = false) (found : segment.match? text = some bindings)
    (values : ∀ binding ∈ bindings, value binding.1 = binding.2.toList) :
    segment.spell value rest = text := by
  cases segment with
  | literal fixed =>
    simp only [match?] at found
    split at found
    · next same => exact same
    · cases found
  | wildcard => cases named
  | capture name =>
    cases found
    simpa [spell] using values
  | compound parts =>
    obtain ⟨pieces, cuts, rfl, -⟩ := SegmentPart.exists_cuts_of_matchAll? found
    rw [← cuts.whole]
    exact SegmentPart.flatMap_spell_eq_flatten cuts.each (by simpa [hasAnonymous] using named) values
  | catchAll name => cases single

/-- Segments end in their only catch-all, or there is none among them. -/
theorem catchAll_cases (last : ∀ segment ∈ segments.dropLast, segment.isCatchAll = false) :
    (∃ front name, segments = front ++ [.catchAll name] ∧
      ∀ segment ∈ front, segment.isCatchAll = false) ∨
    ∀ segment ∈ segments, segment.isCatchAll = false := by
  rcases List.eq_nil_or_concat segments with rfl | ⟨front, segment, rfl⟩
  · exact .inr nofun
  · rw [List.concat_eq_append, List.dropLast_concat] at *
    cases segment with
    | catchAll name => exact .inl ⟨front, name, rfl, last⟩
    | _ => exact .inr (by simpa [isCatchAll, or_imp, forall_and] using last)

theorem ne_catchAll (single : segment.isCatchAll = false) (name : Option String) :
    segment ≠ .catchAll name := by
  rintro rfl
  cases single

theorem matchPath?_cons_eq_some_iff {trailing acceptable : Bool}
    (single : segment.isCatchAll = false) :
    matchPath? trailing acceptable (segment :: segments) (text :: texts) = some bindings ↔
      ∃ bound more, segment.match? text = some bound ∧
        matchPath? trailing acceptable segments texts = some more ∧ bindings = bound ++ more := by
  rw [matchPath?.eq_5 trailing acceptable segment segments text texts (ne_catchAll single)]
  cases here : segment.match? text with
  | none => simp
  | some bound =>
    cases later : matchPath? trailing acceptable segments texts with
    | none => simp
    | some more => simp [eq_comm]

section Each

variable (single : ∀ segment ∈ front, segment.isCatchAll = false)

include single

theorem exists_bindEach_iff :
    (∃ bound, BindEach front texts bound) ↔ List.Forall₂ Accepts front texts := by
  constructor
  · rintro ⟨bound, each⟩
    induction each with
    | nil => exact .nil
    | cons found _ ih =>
      obtain ⟨single_here, single_rest⟩ := List.forall_mem_cons.mp single
      exact .cons ((exists_match?_iff single_here).mp ⟨_, found⟩) (ih single_rest)
  · intro each
    induction each with
    | nil => exact ⟨[], .nil⟩
    | cons accepts _ ih =>
      obtain ⟨single_here, single_rest⟩ := List.forall_mem_cons.mp single
      obtain ⟨bound, found⟩ := (exists_match?_iff single_here).mpr accepts
      obtain ⟨more, each_rest⟩ := ih single_rest
      exact ⟨bound ++ more, .cons found each_rest⟩

theorem BindEach.names (each : BindEach front texts bindings) :
    bindings.map Prod.fst = front.flatMap captureNames := by
  induction each with
  | nil => rfl
  | cons found _ ih =>
    obtain ⟨single_here, single_rest⟩ := List.forall_mem_cons.mp single
    rw [List.map_append, List.flatMap_cons, names_match? single_here found, ih single_rest]

theorem BindEach.spelled {value rest : String → List Char} (each : BindEach front texts bindings)
    (named : ∀ segment ∈ front, segment.hasAnonymous = false)
    (values : ∀ binding ∈ bindings, value binding.1 = binding.2.toList) :
    front.map (spell value rest) = texts := by
  induction each with
  | nil => rfl
  | cons found _ ih =>
    obtain ⟨single_here, single_rest⟩ := List.forall_mem_cons.mp single
    obtain ⟨named_here, named_rest⟩ := List.forall_mem_cons.mp named
    obtain ⟨values_here, values_rest⟩ := List.forall_mem_append.mp values
    rw [List.map_cons, spell_of_match? single_here named_here found values_here,
      ih single_rest named_rest values_rest]

/-- Segments in front of others take as many segments of the path as they are. -/
theorem matchPath?_append_iff {trailing acceptable : Bool} :
    matchPath? trailing acceptable (front ++ segments) texts = some bindings ↔
      ∃ taken rest bound more, texts = taken ++ rest ∧ BindEach front taken bound ∧
        matchPath? trailing acceptable segments rest = some more ∧ bindings = bound ++ more := by
  induction front generalizing texts bindings with
  | nil =>
    constructor
    · intro found
      exact ⟨[], texts, [], bindings, rfl, .nil, found, rfl⟩
    · rintro ⟨_, rest, _, more, rfl, ⟨⟩, found, rfl⟩
      exact found
  | cons segment front ih =>
    obtain ⟨single_here, single_rest⟩ := List.forall_mem_cons.mp single
    constructor
    · intro found
      cases texts with
      | nil =>
        rw [List.cons_append, matchPath?.eq_4 _ _ _ _ (ne_catchAll single_here)] at found
        cases found
      | cons text texts =>
        obtain ⟨bound, _, here, later, rfl⟩ := (matchPath?_cons_eq_some_iff single_here).mp found
        obtain ⟨taken, rest, bound_rest, more, rfl, each, found_rest, rfl⟩ := (ih single_rest).mp later
        exact ⟨text :: taken, rest, bound ++ bound_rest, more, rfl, .cons here each, found_rest,
          (List.append_assoc ..).symm⟩
    · rintro ⟨_, rest, _, more, rfl, each, found_rest, rfl⟩
      cases each with
      | @cons _ _ text taken bound bound_rest here each =>
        have later := (ih single_rest).mpr ⟨taken, rest, bound_rest, more, rfl, each, found_rest, rfl⟩
        rw [List.append_assoc]
        exact (matchPath?_cons_eq_some_iff single_here).mpr ⟨bound, _, here, later, rfl⟩

/-- Segments without a catch-all match as many segments of the path as they are. -/
theorem matchPath?_eq_some_iff {trailing acceptable : Bool} :
    matchPath? trailing acceptable front texts = some bindings ↔
      BindEach front texts bindings ∧ acceptable = true := by
  have split : matchPath? trailing acceptable (front ++ []) texts = some bindings ↔ _ :=
    matchPath?_append_iff single
  rw [List.append_nil] at split
  rw [split]
  constructor
  · rintro ⟨taken, rest, bound, more, rfl, each, found, rfl⟩
    cases rest with
    | nil =>
      simp only [matchPath?] at found
      split at found <;> cases found
      next accepted =>
        rw [List.append_nil, List.append_nil]
        exact ⟨each, accepted⟩
    | cons text rest => cases found
  · rintro ⟨each, rfl⟩
    exact ⟨texts, [], bindings, [], (List.append_nil _).symm, each, rfl, (List.append_nil _).symm⟩

end Each

/-- The rest of a path that is bound has the segments that are left. -/
theorem pathSegments_restOfPath {rest : List (List Char)}
    (proper : ∀ text ∈ rest, text ≠ [] ∧ '/' ∉ text) (trailing : Bool) :
    pathSegments (restOfPath trailing rest) = rest := by
  have joined : pieces ('/' :: ['/'].intercalate rest) = rest := by
    cases rest with
    | nil => rfl
    | cons text rest => rw [Text.cons_intercalate, pieces_flatMap_of_pieces proper]
  rw [pathSegments_eq_pieces, restOfPath, String.toList_ofList]
  split
  · rw [pieces_append_slash, joined, pieces_nil, List.append_nil]
  · rw [List.append_nil, joined]

end Segment

namespace PathPattern

variable {p : PathPattern} {path : String} {lenient : Bool} {bindings : Variables}

theorem hasCatchAll_eq_true {front : List Segment} {name : Option String}
    (ends : p.segments = front ++ [.catchAll name]) : p.hasCatchAll = true := by
  rw [hasCatchAll, ends, List.getLast?_concat]
  rfl

theorem hasCatchAll_eq_false (single : ∀ segment ∈ p.segments, segment.isCatchAll = false) :
    p.hasCatchAll = false := by
  rw [hasCatchAll]
  cases last : p.segments.getLast? with
  | none => rfl
  | some segment => exact single segment (List.mem_of_getLast? last)

/-- A catch-all takes what the segments before it leave. -/
theorem match?_eq_some_iff_of_catchAll {front : List Segment} {name : Option String}
    (ends : p.segments = front ++ [.catchAll name])
    (single : ∀ segment ∈ front, segment.isCatchAll = false) :
    p.match? path lenient = some bindings ↔
      ∃ taken rest bound, pathSegments path = taken ++ rest ∧ Segment.BindEach front taken bound ∧
        bindings = bound ++ name.toList.map fun name =>
          (name, Segment.restOfPath (hasTrailingSlash path) rest) := by
  rw [match?, ends, Segment.matchPath?_append_iff single]
  constructor
  · rintro ⟨taken, rest, bound, _, split, each, ⟨⟩, rfl⟩
    exact ⟨taken, rest, bound, split, each, rfl⟩
  · rintro ⟨taken, rest, bound, split, each, rfl⟩
    exact ⟨taken, rest, bound, _, split, each, rfl, rfl⟩

/-- Without a catch-all the segments match one by one, and the trailing slashes agree. -/
theorem match?_eq_some_iff (single : ∀ segment ∈ p.segments, segment.isCatchAll = false) :
    p.match? path lenient = some bindings ↔
      Segment.BindEach p.segments (pathSegments path) bindings ∧
        (hasTrailingSlash path = p.trailingSlash ∨
          lenient = true ∧ hasTrailingSlash path = true ∧ p.trailingSlash = false) := by
  have acceptable_iff {a b : Bool} :
      (a == b || (lenient && a && !b)) = true ↔ a = b ∨ lenient = true ∧ a = true ∧ b = false := by
    simp [and_assoc]
  rw [match?, Segment.matchPath?_eq_some_iff single, acceptable_iff]

theorem isSome_match?_iff_admits (parsed : p.Parsed) :
    (p.match? path lenient).isSome = true ↔ p.Admits path lenient := by
  have renders := parsed.renders
  rw [Option.isSome_iff_exists, Admits]
  rcases Segment.catchAll_cases renders.catchAll_last with ⟨front, name, ends, single⟩ | single
  · simp only [if_pos (hasCatchAll_eq_true ends), match?_eq_some_iff_of_catchAll ends single, ends,
      List.dropLast_concat, ← Segment.exists_bindEach_iff single]
    constructor
    · rintro ⟨_, taken, rest, bound, split, each, -⟩
      exact ⟨taken, rest, split, bound, each⟩
    · rintro ⟨taken, rest, split, bound, each⟩
      exact ⟨_, taken, rest, bound, split, each, rfl⟩
  · have none_at_end : ¬ p.hasCatchAll = true := by simp [hasCatchAll_eq_false single]
    simp only [if_neg none_at_end, match?_eq_some_iff single, ← Segment.exists_bindEach_iff single,
      renders.trailingSlash, exists_and_right]

theorem names_of_match? (parsed : p.Parsed) (found : p.match? path lenient = some bindings) :
    bindings.map Prod.fst = p.captureNames := by
  rw [captureNames]
  rcases Segment.catchAll_cases parsed.renders.catchAll_last with ⟨front, name, ends, single⟩ | single
  · obtain ⟨taken, rest, bound, -, each, rfl⟩ := (match?_eq_some_iff_of_catchAll ends single).mp found
    rw [ends, List.map_append, each.names single, List.flatMap_append]
    cases name <;> rfl
  · exact ((match?_eq_some_iff single).mp found).1.names single

theorem pathSegments_fill (parsed : p.Parsed) (found : p.match? path lenient = some bindings)
    (named : ∀ segment ∈ p.segments, segment.hasAnonymous = false) :
    pathSegments (p.fill bindings) = pathSegments path := by
  have distinct : (bindings.map Prod.fst).Nodup := by
    rw [names_of_match? parsed found]
    exact parsed.renders.distinct
  have values (binding : String × String) (member : binding ∈ bindings) :
      valueIn bindings binding.1 = binding.2.toList := valueIn_eq_of_mem distinct member
  have proper (text : List Char) (member : text ∈ pathSegments path) : text ≠ [] ∧ '/' ∉ text :=
    ne_nil_and_not_mem_of_mem_pieces member
  have joined (segments : List Segment) {texts : List (List Char)}
      (proper : ∀ text ∈ texts, text ≠ [] ∧ '/' ∉ text)
      (spelled : segments.map (Segment.spell (valueIn bindings) (valueIn bindings)) = texts) :
      pieces (segments.flatMap fun segment =>
        '/' :: segment.spell (valueIn bindings) (valueIn bindings)) = texts := by
    have filled := pieces_flatMap_of_pieces proper
    rwa [← spelled, List.flatMap_map, spelled] at filled
  rw [pathSegments_eq_pieces, fill, String.toList_ofList]
  rcases Segment.catchAll_cases parsed.renders.catchAll_last with ⟨front, name, ends, single⟩ | single
  · obtain ⟨taken, rest, bound, split, each, same⟩ :=
      (match?_eq_some_iff_of_catchAll ends single).mp found
    rw [ends] at named
    obtain ⟨named_front, named_last⟩ := List.forall_mem_append.mp named
    cases name with
    | none => cases named_last _ List.mem_cons_self
    | some name =>
      rw [split] at proper
      obtain ⟨proper_taken, proper_rest⟩ := List.forall_mem_append.mp proper
      have values_bound (binding : String × String) (member : binding ∈ bound) :
          valueIn bindings binding.1 = binding.2.toList :=
        values binding (same ▸ List.mem_append_left _ member)
      have spelled : front.map (Segment.spell (valueIn bindings) (valueIn bindings)) = taken :=
        each.spelled single named_front values_bound
      have value_rest := values (name, Segment.restOfPath (hasTrailingSlash path) rest) (by simp [same])
      rw [ends, List.flatMap_append, List.flatMap_singleton, pieces_append_slash,
        joined front proper_taken spelled, Segment.spell, value_rest, split, ← pathSegments_eq_pieces,
        Segment.pathSegments_restOfPath proper_rest]
  · exact joined p.segments proper (((match?_eq_some_iff single).mp found).1.spelled single named values)

/-- For every text that is read, every path and both ways to treat a trailing slash, the pattern matches
the paths that it is meant to match.  It binds its names, each once; and when it stands for nothing
without a name, it becomes the path again, up to slashes, with the values in the place of the names. -/
theorem match?_iff_admits (text : String) (p : PathPattern) (read : parse text = .ok p)
    (path : String) (lenient : Bool) :
    ((p.match? path lenient).isSome = true ↔ p.Admits path lenient) ∧
      ∀ bindings, p.match? path lenient = some bindings →
        bindings.map Prod.fst = p.captureNames ∧ p.captureNames.Nodup ∧
          ((∀ segment ∈ p.segments, segment.hasAnonymous = false) →
            pathSegments (p.fill bindings) = pathSegments path) := by
  have parsed : p.Parsed := ⟨text, read⟩
  refine ⟨isSome_match?_iff_admits parsed, fun bindings found => ?_⟩
  exact ⟨names_of_match? parsed found, parsed.renders.distinct, pathSegments_fill parsed found⟩

/-- A capture beside fixed text and a named rest, for a path with a doubled slash. -/
theorem match?_capture_rest :
    let text := "u\x7bid\x7d/\x7b*rest\x7d"
    let bindings := [("id", "7"), ("rest", "/a/b/")]
    ∃ p, parse text = .ok p ∧ p.match? "/u7//a/b/" false = some bindings ∧
      p.Admits "/u7//a/b/" false ∧ p.fill bindings = "/u7//a/b/" ∧
      pathSegments (p.fill bindings) = pathSegments "/u7//a/b/" := by
  intro text bindings
  let p : PathPattern :=
    { source := "/u\x7bid\x7d/\x7b*rest\x7d"
      segments := [.compound [.literal "u", .capture "id"], .catchAll (some "rest")]
      trailingSlash := false }
  have read : parse text = .ok p := by decide +kernel
  have found : p.match? "/u7//a/b/" false = some bindings := by decide +kernel
  have named : ∀ segment ∈ p.segments, segment.hasAnonymous = false := by decide
  obtain ⟨admits, binds⟩ := match?_iff_admits text p read "/u7//a/b/" false
  refine ⟨p, read, found, admits.mp ?_, by decide +kernel, (binds bindings found).2.2 named⟩
  rw [found]
  rfl

end PathPattern

end HttpRouting
