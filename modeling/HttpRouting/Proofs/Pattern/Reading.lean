import HttpRouting.Proofs.Pattern.Grammar
import HttpRouting.Proofs.Pattern.Pieces
import Mathlib.Data.List.Forall2

/-!
Reading whole patterns.  The reader accepts a text just when its segments are well formed and no name
occurs twice, and then the pattern says what the text says: its segments are written as those of the
text, one by one.
-/

set_option autoImplicit false
set_option relaxedAutoImplicit false

namespace HttpRouting

namespace PathPattern

/-- The pattern was read from some text. -/
def Parsed (p : PathPattern) : Prop :=
  ∃ text, parse text = .ok p

/-- Segments have a catch-all only at the end just when the first one is no catch-all with something
behind it, and the others have one only at the end. -/
theorem catchAll_last_cons_iff {segment : Segment} {later : List Segment} :
    (∀ other ∈ (segment :: later).dropLast, other.isCatchAll = false) ↔
      (segment.isCatchAll && !later.isEmpty) = false ∧
        ∀ other ∈ later.dropLast, other.isCatchAll = false := by
  cases later with
  | nil => simp
  | cons next later => simp

theorem readSegments_eq_ok_iff {source : String} {texts : List (List Char)}
    {segments : List Segment} :
    readSegments source texts = .ok segments ↔
      List.Forall₂ (fun text segment => Segment.read text = .ok segment) texts segments ∧
        ∀ segment ∈ segments.dropLast, segment.isCatchAll = false := by
  induction texts generalizing segments with
  | nil =>
    rw [readSegments, Except.ok.injEq]
    constructor
    · rintro rfl
      exact ⟨.nil, by simp⟩
    · rintro ⟨⟨⟩, -⟩
      rfl
  | cons text rest ih =>
    have nonempty {later : List Segment}
        (all : List.Forall₂ (fun text segment => Segment.read text = .ok segment) rest later) :
        rest.isEmpty = later.isEmpty := by
      cases all <;> rfl
    rw [List.forall₂_cons_left_iff]
    cases first : Segment.read text with
    | error fault => simp [readSegments, first]
    | ok segment =>
      simp only [readSegments, first]
      constructor
      · intro read
        split at read
        · cases read
        · next last =>
          obtain ⟨later, read_rest, rfl⟩ := Outcome.map_eq_ok_iff.mp read
          obtain ⟨all, only_last⟩ := ih.mp read_rest
          rw [Bool.not_eq_true, nonempty all] at last
          exact ⟨⟨segment, later, rfl, all, rfl⟩, catchAll_last_cons_iff.mpr ⟨last, only_last⟩⟩
      · rintro ⟨⟨_, later, same, all, rfl⟩, only_last⟩
        cases same
        obtain ⟨last, only_last⟩ := catchAll_last_cons_iff.mp only_last
        rw [← nonempty all] at last
        have read_rest : readSegments source rest = .ok later := ih.mpr ⟨all, only_last⟩
        simp [last, read_rest, Except.map]

theorem firstRepeated?_eq_none_iff {seen names : List String} :
    firstRepeated? seen names = none ↔ names.Nodup ∧ ∀ name ∈ names, name ∉ seen := by
  induction names generalizing seen with
  | nil => simp [firstRepeated?]
  | cons name rest ih =>
    by_cases met : name ∈ seen
    · simp [firstRepeated?, met]
    · have apart : (∀ other ∈ rest, other ∉ name :: seen) ↔
          name ∉ rest ∧ ∀ other ∈ rest, other ∉ seen := by
        simp only [List.mem_cons, not_or, forall_and]
        exact and_congr_left fun _ => ⟨fun all member => all name member rfl,
          fun none other member same => none (same ▸ member)⟩
      have goes_on : firstRepeated? seen (name :: rest) = firstRepeated? (name :: seen) rest := by
        simp [firstRepeated?, met]
      rw [goes_on, ih, apart, List.nodup_cons, List.forall_mem_cons]
      constructor
      · rintro ⟨distinct, new, later⟩
        exact ⟨⟨new, distinct⟩, met, later⟩
      · rintro ⟨⟨new, distinct⟩, -, later⟩
        exact ⟨distinct, new, later⟩

theorem parse_eq_ok_iff {text : String} {p : PathPattern} :
    parse text = .ok p ↔
      p.source = withLeadingSlash text ∧ p.trailingSlash = hasTrailingSlash p.source ∧
        readSegments p.source (pathSegments p.source) = .ok p.segments ∧ p.captureNames.Nodup := by
  simp only [parse]
  constructor
  · intro read
    split at read
    · cases read
    · next segments read_segments =>
      split at read
      · cases read
      · next distinct =>
        cases read
        exact ⟨rfl, rfl, read_segments, (firstRepeated?_eq_none_iff.mp distinct).1⟩
  · rintro ⟨same, slash, read_segments, distinct⟩
    have none_repeated : firstRepeated? [] (p.segments.flatMap Segment.captureNames) = none :=
      firstRepeated?_eq_none_iff.mpr ⟨distinct, by simp⟩
    rw [← same, read_segments]
    simp only [none_repeated, ← slash]

/-- Well-formed segments are read, with the names in their texts. -/
theorem exists_readSegments {texts : List (List Char)} {names : List String} (source : String)
    (well : WellFormedSegments texts names) :
    ∃ segments, readSegments source texts = .ok segments ∧
      segments.flatMap Segment.captureNames = names := by
  induction well with
  | nil => exact ⟨[], rfl, rfl⟩
  | @cons text rest names more first _ ih =>
    obtain ⟨segment, read, same, only_last⟩ := Segment.exists_read first
    obtain ⟨segments, read_rest, same_rest⟩ := ih
    have not_before : (segment.isCatchAll && !rest.isEmpty) = false := by
      rw [Bool.and_eq_false_iff, Bool.not_eq_false']
      cases catch_all : segment.isCatchAll with
      | false => exact .inl rfl
      | true => exact .inr (only_last catch_all)
    refine ⟨segment :: segments, ?_, ?_⟩
    · simp [readSegments, read, not_before, read_rest, Except.map]
    · rw [List.flatMap_cons, same, same_rest]

/-- Segments that are read were well formed; they are tidy, and written as they were. -/
theorem of_readSegments {source : String} {texts : List (List Char)} {segments : List Segment}
    (proper : ∀ text ∈ texts, text ≠ []) (read : readSegments source texts = .ok segments) :
    WellFormedSegments texts (segments.flatMap Segment.captureNames) ∧
      segments.map Segment.written = texts ∧ ∀ segment ∈ segments, segment.Tidy := by
  obtain ⟨all, only_last⟩ := readSegments_eq_ok_iff.mp read
  clear read
  induction all with
  | nil => exact ⟨.nil, rfl, by simp⟩
  | @cons text segment rest later first all ih =>
    obtain ⟨proper_here, proper_rest⟩ := List.forall_mem_cons.mp proper
    obtain ⟨well, same, tidy⟩ := Segment.of_read proper_here first
    obtain ⟨last, only_last_rest⟩ := catchAll_last_cons_iff.mp only_last
    have last_of_catchAll : segment.isCatchAll = true → rest.isEmpty = true := by
      intro catch_all
      cases all with
      | nil => rfl
      | cons _ _ => simp [catch_all] at last
    obtain ⟨well_rest, same_rest, tidy_rest⟩ := ih proper_rest only_last_rest
    refine ⟨.cons (well _ last_of_catchAll) well_rest, ?_, ?_⟩
    · rw [List.map_cons, same, same_rest]
    · exact List.forall_mem_cons.mpr ⟨tidy, tidy_rest⟩

/-- A pattern says what the text says that it was read from: its segments in their order, with the names
in them, and nothing else. -/
structure Renders (p : PathPattern) (text : String) : Prop where
  source : p.source = text
  trailingSlash : p.trailingSlash = hasTrailingSlash text
  wellFormed : WellFormedSegments (pathSegments text) p.captureNames
  written : p.segments.map Segment.written = pathSegments text
  catchAll_last : ∀ segment ∈ p.segments.dropLast, segment.isCatchAll = false
  distinct : p.captureNames.Nodup
  named : ∀ name ∈ p.captureNames, name ≠ ""
  tidy : ∀ segment ∈ p.segments, segment.Tidy
  hasWildcards : p.hasWildcards = true ↔ ¬ Plain text.toList

end PathPattern

theorem plain_iff_pieces {text : List Char} : Plain text ↔ ∀ piece ∈ pieces text, Plain piece := by
  have absent {c : Char} (other : c ≠ '/') : c ∉ text ↔ ∀ piece ∈ pieces text, c ∉ piece := by
    rw [← exists_mem_pieces_iff other]
    simp
  simp only [Plain, absent (c := '*') (by decide), absent (c := '?') (by decide),
    absent (c := '{') (by decide), forall_and]

namespace PathPattern

theorem Parsed.renders {p : PathPattern} (parsed : p.Parsed) : p.Renders p.source := by
  obtain ⟨text, read⟩ := parsed
  obtain ⟨-, slash, read_segments, distinct⟩ := parse_eq_ok_iff.mp read
  have proper (piece : List Char) (member : piece ∈ pathSegments p.source) : piece ≠ [] :=
    (ne_nil_and_not_mem_of_mem_pieces member).1
  obtain ⟨well, same, tidy⟩ := of_readSegments proper read_segments
  refine
    { source := rfl
      trailingSlash := slash
      wellFormed := well
      written := same
      catchAll_last := (readSegments_eq_ok_iff.mp read_segments).2
      distinct
      named := ?_
      tidy
      hasWildcards := ?_ }
  · intro name member
    obtain ⟨segment, listed, inside⟩ := List.mem_flatMap.mp member
    exact (tidy segment listed).named name inside
  · have all_plain : Plain p.source.toList ↔ ∀ segment ∈ p.segments, segment.isLiteral = true := by
      rw [plain_iff_pieces, ← pathSegments_eq_pieces, ← same, List.forall_mem_map]
      exact forall₂_congr fun segment listed => (Segment.isLiteral_iff_plain (tidy segment listed)).symm
    rw [all_plain]
    simp [hasWildcards]

/-- For every text, the reader accepts it just when, behind a leading slash, its segments are well formed
and no name occurs twice; and the pattern then says what the text says. -/
theorem parse_iff_wellFormed (text : String) :
    let source := withLeadingSlash text
    ((∃ p, parse text = .ok p) ↔
      ∃ names, WellFormedSegments (pathSegments source) names ∧ names.Nodup) ∧
      ∀ p, parse text = .ok p → p.Renders source := by
  intro source
  have renders (p : PathPattern) (read : parse text = .ok p) : p.Renders source := by
    have same : p.source = source := (parse_eq_ok_iff.mp read).1
    rw [← same]
    exact Parsed.renders ⟨text, read⟩
  refine ⟨⟨?_, ?_⟩, renders⟩
  · rintro ⟨p, read⟩
    exact ⟨p.captureNames, (renders p read).wellFormed, (renders p read).distinct⟩
  · rintro ⟨names, well, distinct⟩
    obtain ⟨segments, read, rfl⟩ := exists_readSegments source well
    exact ⟨⟨source, segments, hasTrailingSlash source⟩,
      parse_eq_ok_iff.mpr ⟨rfl, rfl, read, distinct⟩⟩

/-- A capture beside fixed text, a wildcard in a mixture, and a named rest; braces in a name. -/
theorem parse_mixture :
    let text := "files/\x7bname\x7d.t?t/\x7ba\x7bb\x7d/\x7b*rest\x7d"
    ∃ p, parse text = .ok p ∧ p.Renders (withLeadingSlash text) ∧
      p.captureNames = ["name", "a\x7bb", "rest"] := by
  intro text
  let p : PathPattern :=
    { source := "/files/\x7bname\x7d.t?t/\x7ba\x7bb\x7d/\x7b*rest\x7d"
      segments :=
        [.literal "files",
          .compound [.capture "name", .literal ".t", .anyChar, .literal "t"],
          .compound [.capture "a\x7bb"], .catchAll (some "rest")]
      trailingSlash := false }
  have read : parse text = .ok p := by decide +kernel
  exact ⟨p, read, (parse_iff_wellFormed text).2 p read, by decide⟩

end PathPattern

end HttpRouting
