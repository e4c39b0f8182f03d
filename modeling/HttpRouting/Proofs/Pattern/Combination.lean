import HttpRouting.Proofs.Pattern.Matching
import Mathlib.Data.List.DropRight
import Mathlib.Data.List.Nodup

/-!
Joining patterns.  The join works on the texts of two patterns, but cutting a wildcard off, trimming
slashes and putting one slash between never changes how a segment is read; so the segments of the one
pattern come before those of the other.
-/

set_option autoImplicit false
set_option relaxedAutoImplicit false

namespace HttpRouting

def Segment.EndInCatchAll (segments : List Segment) : Prop :=
  ∃ front name, segments = front ++ [.catchAll name]

namespace PathPattern

/-- The segments of a pattern that stay when another pattern is joined to it. -/
def kept (a : PathPattern) : List Segment :=
  if ['/', '*'] <:+ a.source.toList ∨ ['/', '*', '*'] <:+ a.source.toList then a.segments.dropLast
  else a.segments

/-- A name that a pattern would bind twice with another one joined to it. -/
def Shares (a b : PathPattern) (name : String) : Prop :=
  name ∈ a.kept.flatMap Segment.captureNames ∧ name ∈ b.captureNames

/-- What is bound on a path that has two parts: segments match the one, a pattern matches the other. -/
def BindsInTurn (front : List Segment) (b : PathPattern) (path : String) (lenient : Bool)
    (bindings : Variables) : Prop :=
  ∃ taken rest bound more, pathSegments path = taken ++ pathSegments rest ∧
    hasTrailingSlash rest = hasTrailingSlash path ∧ Segment.BindEach front taken bound ∧
      b.match? rest lenient = some more ∧ bindings = bound ++ more

end PathPattern

theorem Text.getLast?_dropTrailing_ne (mark : Char) (text : List Char) :
    (Text.dropTrailing mark text).getLast? ≠ some mark := by
  intro ends
  obtain ⟨nonempty, last⟩ := List.mem_getLast?_eq_getLast ends
  have other := List.rdropWhile_last_not (· == mark) text nonempty
  exact other (beq_iff_eq.mpr last.symm)

/-- A text has a slash at its end if what is left of it without the slashes at its beginning has. -/
theorem getLast?_dropWhile_slash {text : List Char} (left : text.dropWhile (· == '/') ≠ []) :
    (text.dropWhile (· == '/')).getLast? = text.getLast? := by
  conv_rhs => rw [← List.takeWhile_append_dropWhile (p := (· == '/')) (l := text)]
  exact (List.getLast?_append_of_ne_nil _ left).symm

namespace PathPattern

/-- The reading of a list of texts as segments, one by one. -/
abbrev Reads (texts : List (List Char)) (segments : List Segment) : Prop :=
  List.Forall₂ (fun text segment => Segment.read text = .ok segment) texts segments

theorem Reads.dropLast {texts : List (List Char)} {segments : List Segment}
    (reads : Reads texts segments) : Reads texts.dropLast segments.dropLast := by
  rw [List.dropLast_eq_take, List.dropLast_eq_take, reads.length_eq]
  exact List.forall₂_take _ reads

section Names

variable {seen names front : List String}

/-- Names of which none is met before are passed over. -/
theorem firstRepeated?_append (distinct : front.Nodup) (new : ∀ name ∈ front, name ∉ seen)
    (rest : List String) :
    firstRepeated? seen (front ++ rest) = firstRepeated? (front.reverse ++ seen) rest := by
  induction front generalizing seen with
  | nil => rfl
  | cons name front ih =>
    obtain ⟨new_here, new_rest⟩ := List.forall_mem_cons.mp new
    obtain ⟨apart, distinct_rest⟩ := List.nodup_cons.mp distinct
    have new_later : ∀ other ∈ front, other ∉ name :: seen := by
      intro other member again
      rcases List.mem_cons.mp again with rfl | earlier
      · exact apart member
      · exact new_rest other member earlier
    have passed : firstRepeated? seen (name :: (front ++ rest)) =
        firstRepeated? (name :: seen) (front ++ rest) := by
      simp [firstRepeated?, new_here]
    rw [List.cons_append, passed, ih distinct_rest new_later]
    simp

/-- Of names that differ from each other only one that was met before is reported. -/
theorem mem_of_firstRepeated?_eq_some {name : String} (distinct : names.Nodup)
    (found : firstRepeated? seen names = some name) : name ∈ names ∧ name ∈ seen := by
  induction names generalizing seen with
  | nil => cases found
  | cons other rest ih =>
    obtain ⟨apart, distinct_rest⟩ := List.nodup_cons.mp distinct
    by_cases met : other ∈ seen
    · have same : other = name := by simpa [firstRepeated?, met] using found
      exact ⟨same ▸ List.mem_cons_self, same ▸ met⟩
    · obtain ⟨member, earlier⟩ := ih distinct_rest (by simpa [firstRepeated?, met] using found)
      refine ⟨List.mem_cons_of_mem other member, ?_⟩
      rcases List.mem_cons.mp earlier with rfl | earlier
      · exact absurd member apart
      · exact earlier

end Names

/-- A catch-all with something behind it is an error. -/
theorem readSegments_eq_error (source : String) {texts rest : List (List Char)}
    {segments : List Segment} (reads : Reads texts segments)
    (caught : ∃ segment ∈ segments, segment.isCatchAll = true) (behind : rest ≠ []) :
    readSegments source (texts ++ rest) = .error (.catchAllNotLast source) := by
  induction reads with
  | nil => simp at caught
  | @cons text segment texts segments first _ ih =>
    have more : (texts ++ rest).isEmpty = false := by simp [behind]
    rw [List.cons_append]
    simp only [readSegments, first, more]
    by_cases here : segment.isCatchAll = true
    · simp [here]
    · have later : ∃ segment ∈ segments, segment.isCatchAll = true := by simpa [here] using caught
      simp [here, ih later, Except.map]

section Parsed

variable {a b : PathPattern}

theorem Parsed.reads (parsed : a.Parsed) : Reads (pieces a.source.toList) a.segments := by
  obtain ⟨text, read⟩ := parsed
  exact (readSegments_eq_ok_iff.mp (parse_eq_ok_iff.mp read).2.2.1).1

theorem Parsed.source_begins (parsed : a.Parsed) : ∃ rest, a.source.toList = '/' :: rest := by
  obtain ⟨text, read⟩ := parsed
  rw [(parse_eq_ok_iff.mp read).1, withLeadingSlash]
  split
  · next rest begins => exact ⟨rest, begins⟩
  · exact ⟨text.toList, by simp⟩

theorem withLeadingSlash_of_begins {text : String} (begins : ∃ rest, text.toList = '/' :: rest) :
    withLeadingSlash text = text := by
  obtain ⟨rest, begins⟩ := begins
  unfold withLeadingSlash
  split
  · rfl
  · next other => exact absurd begins (other rest)

/-- The text that is kept of a pattern is the beginning of its text, and reads as the segments that are
kept. -/
theorem combinationBase_spec (parsed : a.Parsed) :
    a.combinationBase <+: a.source.toList ∧ Reads (pieces a.combinationBase) a.kept := by
  have cut {front last : List Char} (same : a.source.toList = front ++ '/' :: last)
      (alone : pieces last = [last]) : Reads (pieces front) a.segments.dropLast := by
    have reads := parsed.reads.dropLast
    rwa [same, pieces_append_slash, alone, List.dropLast_concat] at reads
  have trimmed (text : List Char) : Text.dropTrailing '/' text <+: text :=
    List.rdropWhile_prefix _ text
  -- Slashes make no pieces, so trimming them does not matter for what is read.
  rw [combinationBase]
  simp only [pieces_dropTrailing_slash]
  cases two : Text.withoutEnd? ['/', '*', '*'] a.source.toList with
  | some front =>
    have same := Text.withoutEnd?_eq_some_iff.mp two
    have shorter : kept a = a.segments.dropLast := if_pos (.inr ⟨front, same.symm⟩)
    refine ⟨(trimmed front).trans ⟨_, same.symm⟩, ?_⟩
    rw [shorter]
    exact cut same rfl
  | none =>
    cases one : Text.withoutEnd? ['/', '*'] a.source.toList with
    | some front =>
      have same := Text.withoutEnd?_eq_some_iff.mp one
      have shorter : kept a = a.segments.dropLast := if_pos (.inl ⟨front, same.symm⟩)
      refine ⟨(trimmed front).trans ⟨_, same.symm⟩, ?_⟩
      rw [shorter]
      exact cut same rfl
    | none =>
      have whole : kept a = a.segments :=
        if_neg (not_or.mpr
          ⟨Text.withoutEnd?_eq_none_iff.mp one, Text.withoutEnd?_eq_none_iff.mp two⟩)
      rw [whole]
      exact ⟨trimmed _, parsed.reads⟩

theorem Parsed.segments_eq_nil_iff (parsed : b.Parsed) :
    b.segments = [] ↔ pieces b.source.toList = [] := by
  have same := parsed.reads.length_eq
  rw [← List.length_eq_zero_iff, ← same, List.length_eq_zero_iff]

theorem combinationBase_begins (parsed : a.Parsed) (nonempty : a.combinationBase ≠ []) :
    ∃ rest, a.combinationBase = '/' :: rest := by
  obtain ⟨behind, same⟩ := (combinationBase_spec parsed).1
  obtain ⟨source, begins⟩ := parsed.source_begins
  cases base : a.combinationBase with
  | nil => exact absurd base nonempty
  | cons c rest =>
    rw [base, begins, List.cons_append, List.cons.injEq] at same
    exact ⟨rest, by rw [same.1]⟩

/-- What the joined text is, without and with segments of the other pattern. -/
theorem combinedText_cases (a : PathPattern) (parsed : b.Parsed) :
    (b.segments = [] ∧ (a.combinationBase = [] ∧ combinedText a b = "/" ∨
      a.combinationBase ≠ [] ∧ (combinedText a b).toList = a.combinationBase)) ∨
    (b.segments ≠ [] ∧ ∃ tail, tail ≠ [] ∧ pieces tail = pieces b.source.toList ∧
      tail.getLast? = b.source.toList.getLast? ∧
      (combinedText a b).toList = a.combinationBase ++ '/' :: tail) := by
  have no_segments_iff : b.segments = [] ↔ b.source.toList.dropWhile (· == '/') = [] := by
    rw [parsed.segments_eq_nil_iff, dropWhile_slash_eq_nil_iff]
  have last (left : b.source.toList.dropWhile (· == '/') ≠ []) := getLast?_dropWhile_slash left
  have same_pieces := pieces_dropWhile_slash b.source.toList
  simp only [combinedText]
  cases tail : b.source.toList.dropWhile (· == '/') with
  | nil =>
    refine .inl ⟨no_segments_iff.mpr tail, ?_⟩
    cases base : a.combinationBase with
    | nil => exact .inl ⟨rfl, rfl⟩
    | cons c rest => exact .inr ⟨by simp, by simp⟩
  | cons c rest =>
    have some_segments : b.segments ≠ [] := no_segments_iff.not.mpr (by simp [tail])
    rw [tail] at last same_pieces
    exact .inr ⟨some_segments, c :: rest, by simp, same_pieces, last (by simp), String.toList_ofList⟩

theorem combinedText_begins (parsed : a.Parsed) (parsed' : b.Parsed) :
    ∃ rest, (combinedText a b).toList = '/' :: rest := by
  rcases combinedText_cases a parsed' with ⟨-, ⟨-, same⟩ | ⟨nonempty, same⟩⟩ |
    ⟨-, tail, -, -, -, same⟩
  · exact ⟨[], by rw [same]; rfl⟩
  · rw [same]
    exact combinationBase_begins parsed nonempty
  · rw [same]
    by_cases empty : a.combinationBase = []
    · exact ⟨tail, by rw [empty]; rfl⟩
    · obtain ⟨rest, begins⟩ := combinationBase_begins parsed empty
      exact ⟨rest ++ '/' :: tail, by rw [begins]; rfl⟩

theorem pathSegments_combinedText (a : PathPattern) (parsed : b.Parsed) :
    pathSegments (combinedText a b) = pieces a.combinationBase ++ pieces b.source.toList := by
  rw [pathSegments_eq_pieces]
  rcases combinedText_cases a parsed with ⟨empty, ⟨base, same⟩ | ⟨-, same⟩⟩ |
    ⟨-, tail, -, same_pieces, -, same⟩
  · rw [same, base, parsed.segments_eq_nil_iff.mp empty]
    rfl
  · rw [same, parsed.segments_eq_nil_iff.mp empty, List.append_nil]
  · rw [same, pieces_append_slash, same_pieces]

theorem Parsed.trailingSlash_eq (parsed : b.Parsed) (nonempty : b.segments ≠ []) :
    b.trailingSlash = (b.source.toList.getLast? == some '/') := by
  obtain ⟨rest, begins⟩ := parsed.source_begins
  have long : 1 < b.source.toList.length := by
    cases rest with
    | nil =>
      have no_pieces : pieces b.source.toList = [] := by
        rw [begins]
        rfl
      exact absurd (parsed.segments_eq_nil_iff.mpr no_pieces) nonempty
    | cons c rest => simp [begins]
  rw [parsed.renders.trailingSlash, hasTrailingSlash_eq, decide_eq_true long, Bool.true_and]

theorem hasTrailingSlash_combinedText (a : PathPattern) (parsed : b.Parsed) :
    hasTrailingSlash (combinedText a b) = (!b.segments.isEmpty && b.trailingSlash) := by
  rcases combinedText_cases a parsed with ⟨empty, ⟨-, same⟩ | ⟨-, same⟩⟩ |
    ⟨some_segments, tail, nonempty, -, last, same⟩
  · rw [same, empty]
    rfl
  · have ends : a.combinationBase.getLast? ≠ some '/' := Text.getLast?_dropTrailing_ne '/' _
    rw [hasTrailingSlash_eq, same, empty]
    simp [ends]
  · have ends : (a.combinationBase ++ '/' :: tail).getLast? = b.source.toList.getLast? := by
      rw [List.getLast?_append_of_ne_nil _ (by simp), ← last, List.getLast?_cons_of_ne_nil nonempty]
    have long : 1 < (a.combinationBase ++ '/' :: tail).length := by
      have := List.length_pos_of_ne_nil nonempty
      rw [List.length_append, List.length_cons]
      omega
    rw [hasTrailingSlash_eq, same, ends, decide_eq_true long, parsed.trailingSlash_eq some_segments]
    simp [some_segments]

theorem kept_prefix (a : PathPattern) : a.kept <+: a.segments := by
  rw [kept]
  split
  · exact a.segments.dropLast_prefix
  · exact List.prefix_rfl

theorem catchAll_last_kept (parsed : a.Parsed) :
    ∀ segment ∈ a.kept.dropLast, segment.isCatchAll = false := by
  intro segment member
  refine parsed.renders.catchAll_last segment ?_
  rw [kept] at member
  split at member
  · exact a.segments.dropLast.dropLast_subset member
  · exact member

/-- What is kept of a pattern ends in its only catch-all, or has none. -/
theorem kept_cases (parsed : a.Parsed) :
    Segment.EndInCatchAll a.kept ∨ ∀ segment ∈ a.kept, segment.isCatchAll = false := by
  rcases Segment.catchAll_cases (catchAll_last_kept parsed) with ⟨front, name, ends, -⟩ | single
  · exact .inl ⟨front, name, ends⟩
  · exact .inr single

theorem nodup_kept_names (parsed : a.Parsed) : (a.kept.flatMap Segment.captureNames).Nodup := by
  obtain ⟨dropped, same⟩ := a.kept_prefix
  have distinct : (a.segments.flatMap Segment.captureNames).Nodup := parsed.renders.distinct
  rw [← same, List.flatMap_append, List.nodup_append] at distinct
  exact distinct.1

theorem combine_of_catchAll (parsed : a.Parsed) (parsed' : b.Parsed)
    (ends : Segment.EndInCatchAll a.kept) (behind : b.segments ≠ []) :
    a.combine b = .error (.catchAllNotLast (combinedText a b)) := by
  obtain ⟨front, name, same⟩ := ends
  have caught : ∃ segment ∈ a.kept, segment.isCatchAll = true := ⟨.catchAll name, by simp [same], rfl⟩
  have fails := readSegments_eq_error (combinedText a b) (combinationBase_spec parsed).2 caught
    (parsed'.segments_eq_nil_iff.not.mp behind)
  simp only [combine, parse, withLeadingSlash_of_begins (combinedText_begins parsed parsed'),
    pathSegments_combinedText a parsed', fails]

section Read

variable (parsed : a.Parsed) (parsed' : b.Parsed)
  (allowed : ¬ (Segment.EndInCatchAll a.kept ∧ b.segments ≠ []))

include parsed parsed' allowed

/-- The segments of the joined text are read as they were read in the two texts. -/
theorem readSegments_combinedText :
    readSegments (combinedText a b) (pathSegments (combinedText a b)) =
      .ok (a.kept ++ b.segments) := by
  rw [pathSegments_combinedText a parsed']
  refine readSegments_eq_ok_iff.mpr
    ⟨List.rel_append (combinationBase_spec parsed).2 parsed'.reads, fun segment member => ?_⟩
  by_cases empty : b.segments = []
  · rw [empty, List.append_nil] at member
    exact catchAll_last_kept parsed segment member
  · rw [List.dropLast_append_of_ne_nil empty, List.mem_append] at member
    have single := (kept_cases parsed).resolve_left fun ends => allowed ⟨ends, empty⟩
    rcases member with kept | joined
    · exact single segment kept
    · exact parsed'.renders.catchAll_last segment joined

theorem combine_of_shared (shared : ∃ name, a.Shares b name) :
    ∃ name, a.Shares b name ∧ a.combine b = .error (.duplicateCapture (combinedText a b) name) := by
  have names : (a.kept ++ b.segments).flatMap Segment.captureNames =
      a.kept.flatMap Segment.captureNames ++ b.captureNames := List.flatMap_append
  have repeated : firstRepeated? [] ((a.kept ++ b.segments).flatMap Segment.captureNames) ≠ none := by
    intro none_repeated
    obtain ⟨name, kept, joined⟩ := shared
    have distinct := (firstRepeated?_eq_none_iff.mp none_repeated).1
    rw [names, List.nodup_append'] at distinct
    exact distinct.2.2 kept joined
  obtain ⟨name, found⟩ := Option.ne_none_iff_exists'.mp repeated
  refine ⟨name, ?_, ?_⟩
  · rw [names, firstRepeated?_append (nodup_kept_names parsed) (by simp)] at found
    obtain ⟨joined, met⟩ := mem_of_firstRepeated?_eq_some parsed'.renders.distinct found
    exact ⟨by simpa using met, joined⟩
  · simp only [combine, parse, withLeadingSlash_of_begins (combinedText_begins parsed parsed'),
      readSegments_combinedText parsed parsed' allowed, found]

theorem combine_of_apart (apart : ¬ ∃ name, a.Shares b name) :
    ∃ c, a.combine b = .ok c ∧ c.segments = a.kept ++ b.segments ∧
      c.trailingSlash = (!b.segments.isEmpty && b.trailingSlash) := by
  have distinct : ((a.kept ++ b.segments).flatMap Segment.captureNames).Nodup := by
    rw [List.flatMap_append, List.nodup_append']
    refine ⟨nodup_kept_names parsed, parsed'.renders.distinct, fun name kept joined => ?_⟩
    exact apart ⟨name, kept, joined⟩
  have source := (withLeadingSlash_of_begins (combinedText_begins parsed parsed')).symm
  refine ⟨⟨combinedText a b, a.kept ++ b.segments, hasTrailingSlash (combinedText a b)⟩, ?_, rfl,
    hasTrailingSlash_combinedText a parsed'⟩
  exact parse_eq_ok_iff.mpr ⟨source, rfl, readSegments_combinedText parsed parsed' allowed, distinct⟩

end Read

end Parsed

/-- Any segments are those of a path, which ends in a slash or not. -/
theorem exists_path {texts : List (List Char)} (proper : ∀ text ∈ texts, text ≠ [] ∧ '/' ∉ text)
    (trailing : Bool) :
    ∃ path, pathSegments path = texts ∧ hasTrailingSlash path = trailing := by
  have found : pieces ('/' :: texts.flatMap ('/' :: ·)) = texts := by
    rw [pieces_slash_cons, pieces_flatMap_of_pieces proper]
  cases trailing with
  | true =>
    refine ⟨String.ofList ('/' :: texts.flatMap ('/' :: ·) ++ ['/']), ?_, ?_⟩
    · rw [pathSegments_eq_pieces, String.toList_ofList, pieces_append_slash, found, pieces_nil,
        List.append_nil]
    · rw [hasTrailingSlash_eq, String.toList_ofList, List.getLast?_concat]
      simp
  | false =>
    refine ⟨String.ofList ('/' :: texts.flatMap ('/' :: ·)), ?_, ?_⟩
    · rw [pathSegments_eq_pieces, String.toList_ofList, found]
    · rw [hasTrailingSlash_eq, String.toList_ofList]
      rcases List.eq_nil_or_concat texts with rfl | ⟨front, text, rfl⟩
      · rfl
      · obtain ⟨nonempty, slash_free⟩ := proper text (by simp)
        have ends : ('/' :: (front.concat text).flatMap ('/' :: ·)).getLast? = text.getLast? := by
          rw [List.concat_eq_append, List.flatMap_append, List.flatMap_singleton, ← List.cons_append,
            List.getLast?_append_of_ne_nil _ (by simp), List.getLast?_cons_of_ne_nil nonempty]
        have other : text.getLast? ≠ some '/' := fun last => slash_free (List.mem_of_getLast? last)
        rw [ends]
        simp [other]

/-- Patterns whose segments are those of two others match what these match in turn. -/
theorem match?_eq_some_iff_bindsInTurn {b c : PathPattern} {front : List Segment}
    (single : ∀ segment ∈ front, segment.isCatchAll = false)
    (joined : c.segments = front ++ b.segments) (slash : c.trailingSlash = b.trailingSlash)
    {path : String} {lenient : Bool} {bindings : Variables} :
    c.match? path lenient = some bindings ↔ BindsInTurn front b path lenient bindings := by
  rw [match?, joined, slash, Segment.matchPath?_append_iff single]
  constructor
  · rintro ⟨taken, left, bound, more, split, each, found, rfl⟩
    have proper : ∀ text ∈ left, text ≠ [] ∧ '/' ∉ text := by
      intro text member
      have listed : text ∈ pathSegments path := split ▸ List.mem_append_right taken member
      exact ne_nil_and_not_mem_of_mem_pieces listed
    obtain ⟨rest, rfl, trailing⟩ := exists_path proper (hasTrailingSlash path)
    rw [← trailing] at found
    exact ⟨taken, rest, bound, more, split, trailing, each, found, rfl⟩
  · rintro ⟨taken, rest, bound, more, split, trailing, each, found, rfl⟩
    rw [match?, trailing] at found
    exact ⟨taken, pathSegments rest, bound, more, split, each, found, rfl⟩

/-- For every two patterns that were read, joining them fails when a catch-all would not be last, else
when a name would be bound twice, and in no other case.  The joined pattern has the segments that are
kept of the one and then those of the other, and matches what these match in turn. -/
theorem combine_iff (a b : PathPattern) (parsed : a.Parsed) (parsed' : b.Parsed) :
    let text := combinedText a b
    let caught := Segment.EndInCatchAll a.kept ∧ b.segments ≠ []
    let shared := ∃ name, a.Shares b name
    (a.combine b = .error (.catchAllNotLast text) ↔ caught) ∧
    ((∃ name, a.Shares b name ∧ a.combine b = .error (.duplicateCapture text name)) ↔
      ¬ caught ∧ shared) ∧
    ((∃ c, a.combine b = .ok c) ↔ ¬ caught ∧ ¬ shared) ∧
    ∀ c, a.combine b = .ok c → c.segments = a.kept ++ b.segments ∧
      c.trailingSlash = (!b.segments.isEmpty && b.trailingSlash) ∧
      (¬ Segment.EndInCatchAll a.kept → b.segments ≠ [] → ∀ path lenient bindings,
        c.match? path lenient = some bindings ↔ BindsInTurn a.kept b path lenient bindings) := by
  intro text caught shared
  by_cases is_caught : caught
  · have fails : a.combine b = .error (.catchAllNotLast text) :=
      combine_of_catchAll parsed parsed' is_caught.1 is_caught.2
    simp [fails, is_caught]
  · by_cases is_shared : shared
    · obtain ⟨name, shares, fails⟩ := combine_of_shared parsed parsed' is_caught is_shared
      simp [fails, is_caught, is_shared, shares, text]
    · obtain ⟨c, joins, segments, slash⟩ := combine_of_apart parsed parsed' is_caught is_shared
      refine ⟨?_, ?_, ?_, ?_⟩
      · simp [joins, is_caught]
      · simp [joins, is_shared]
      · simp [joins, is_caught, is_shared]
      · intro joined same
        cases joins.symm.trans same
        refine ⟨segments, slash, fun no_catchAll nonempty path lenient bindings => ?_⟩
        have single := (kept_cases parsed).resolve_left no_catchAll
        have same_slash : c.trailingSlash = b.trailingSlash := by
          rw [slash, List.isEmpty_eq_false_iff.mpr nonempty]
          rfl
        exact match?_eq_some_iff_bindsInTurn single segments same_slash

/-- A wildcard gives way to the pattern of a method, whose doubled slash and trailing slash stay. -/
theorem combine_wildcard_capture :
    let a : PathPattern := ⟨"/shops/\x7bshop\x7d/*", [.literal "shops", .capture "shop", .wildcard], false⟩
    let b : PathPattern := ⟨"//items//\x7bid\x7d/", [.literal "items", .capture "id"], true⟩
    ∃ c, a.Parsed ∧ b.Parsed ∧ a.combine b = .ok c ∧ c.segments = a.kept ++ b.segments ∧
      c.trailingSlash = true ∧
      BindsInTurn a.kept b "/shops/ace/items/7/" false [("shop", "ace"), ("id", "7")] := by
  intro a b
  let c : PathPattern :=
    { source := "/shops/\x7bshop\x7d/items//\x7bid\x7d/"
      segments := [.literal "shops", .capture "shop", .literal "items", .capture "id"]
      trailingSlash := true }
  have parsed : a.Parsed := ⟨"/shops/\x7bshop\x7d/*", by decide +kernel⟩
  have parsed' : b.Parsed := ⟨"//items//\x7bid\x7d/", by decide +kernel⟩
  have joins : a.combine b = .ok c := by decide +kernel
  have found : c.match? "/shops/ace/items/7/" false = some [("shop", "ace"), ("id", "7")] := by
    decide +kernel
  obtain ⟨segments, slash, matches_in_turn⟩ := (combine_iff a b parsed parsed').2.2.2 c joins
  have no_catchAll : ¬ Segment.EndInCatchAll a.kept := by
    rintro ⟨front, name, same⟩
    have kept : a.kept = [.literal "shops", .capture "shop"] := by decide +kernel
    have last := congrArg List.getLast? (kept.symm.trans same)
    rw [List.getLast?_concat] at last
    cases last
  exact ⟨c, parsed, parsed', joins, segments, slash,
    (matches_in_turn no_catchAll (by simp [b]) _ _ _).mp found⟩

end PathPattern

end HttpRouting
