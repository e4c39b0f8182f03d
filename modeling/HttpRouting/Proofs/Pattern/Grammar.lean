import HttpRouting.Pattern.Reader
import HttpRouting.Proofs.Outcome
import Mathlib.Data.List.Chain

/-!
The grammar of segments.  A segment is well formed by its text alone, and just then it is read; what is
read has the names that stand in the text, and is written as the text again.
-/

set_option autoImplicit false
set_option relaxedAutoImplicit false

namespace HttpRouting

/-- The text of a part, given what stands for a capture. -/
def SegmentPart.spell (capture : String → List Char) : SegmentPart → List Char
  | .literal text => text.toList
  | .anyChar => ['?']
  | .anyRun => ['*']
  | .capture name => capture name

/-- The text of a segment, given what stands for a capture and for a named catch-all. -/
def Segment.spell (capture rest : String → List Char) : Segment → List Char
  | .literal text => text.toList
  | .wildcard => ['*']
  | .capture name => capture name
  | .compound parts => parts.flatMap (SegmentPart.spell capture)
  | .catchAll none => ['*', '*']
  | .catchAll (some name) => rest name

/-- A text in braces. -/
def braced (inner : List Char) : List Char :=
  '{' :: (inner ++ ['}'])

def SegmentPart.written : SegmentPart → List Char :=
  spell fun name => braced name.toList

/-- A segment in the syntax of patterns. -/
def Segment.written : Segment → List Char :=
  spell (fun name => braced name.toList) fun name => braced ('*' :: name.toList)

/-- Text in which no character has a meaning of its own. -/
def Plain (text : List Char) : Prop :=
  '*' ∉ text ∧ '?' ∉ text ∧ '{' ∉ text

def BraceFree (text : List Char) : Prop :=
  '{' ∉ text ∧ '}' ∉ text

/-- A text with names: from left to right, every opening brace outside a name begins one, which is not
empty and goes up to the next closing brace. -/
inductive NamesIn : List Char → List String → Prop
  | nil : NamesIn [] []
  | char {c : Char} {rest : List Char} {names : List String} :
      c ≠ '{' → NamesIn rest names → NamesIn (c :: rest) names
  | name {name rest : List Char} {names : List String} : name ≠ [] → '}' ∉ name →
      NamesIn rest names → NamesIn ('{' :: (name ++ '}' :: rest)) (String.ofList name :: names)

/-- The shapes of segments that are no mixtures. -/
inductive Unmixed : List Char → Prop
  | wildcard : Unmixed ['*']
  | catchAll : Unmixed ['*', '*']
  | braced {inner : List Char} : BraceFree inner → Unmixed (braced inner)
  | plain {text : List Char} : Plain text → Unmixed text

/-- The texts of well-formed segments, with the names in them.  Some are well formed as the last segment
only. -/
inductive WellFormedSegment (last : Bool) : List Char → List String → Prop
  | wildcard : WellFormedSegment last ['*'] []
  | catchAll : last = true → WellFormedSegment last ['*', '*'] []
  | capture {name : List Char} : name ≠ [] → name.head? ≠ some '*' → BraceFree name →
      WellFormedSegment last (braced name) [String.ofList name]
  | namedCatchAll {name : List Char} : last = true → name ≠ [] → BraceFree name →
      WellFormedSegment last (braced ('*' :: name)) [String.ofList name]
  | plain {text : List Char} : Plain text → WellFormedSegment last text []
  | mixed {text : List Char} {names : List String} : ¬ Unmixed text → NamesIn text names →
      WellFormedSegment last text names

/-- All segments of a pattern are well formed, with all the names in them. -/
inductive WellFormedSegments : List (List Char) → List String → Prop
  | nil : WellFormedSegments [] []
  | cons {text : List Char} {rest : List (List Char)} {names more : List String} :
      WellFormedSegment rest.isEmpty text names → WellFormedSegments rest more →
        WellFormedSegments (text :: rest) (names ++ more)

def SegmentPart.isLiteral : SegmentPart → Bool
  | .literal _ => true
  | _ => false

/-- A fixed text that a reader leaves: it is not empty, and nothing in it has a meaning of its own. -/
def FixedText (text : String) : Prop :=
  text ≠ "" ∧ Plain text.toList

/-- Parts as a reader leaves them; no two fixed texts stand side by side. -/
structure TidyParts (parts : List SegmentPart) : Prop where
  fixed : ∀ text, .literal text ∈ parts → FixedText text
  named : ∀ name, .capture name ∈ parts → name ≠ ""
  apart : parts.IsChain fun a b => ¬ (a.isLiteral = true ∧ b.isLiteral = true)

/-- A segment as a reader leaves it. -/
def Segment.Tidy : Segment → Prop
  | .literal text => FixedText text
  | .wildcard | .catchAll none => True
  | .capture name | .catchAll (some name) => name ≠ ""
  | .compound parts => TidyParts parts ∧ ∃ part ∈ parts, part.isLiteral = false

/-- A text is scanned character by character, and by names between braces. -/
theorem scanInduction {motive : List Char → Prop} (nil : motive [])
    (char : ∀ c rest, c ≠ '{' → motive rest → motive (c :: rest))
    (unclosed : ∀ rest, '}' ∉ rest → motive ('{' :: rest))
    (name : ∀ name rest, '}' ∉ name → motive rest → motive ('{' :: (name ++ '}' :: rest)))
    (text : List Char) : motive text := by
  cases text with
  | nil => exact nil
  | cons c rest =>
    by_cases brace : c = '{'
    · subst brace
      by_cases closed : '}' ∈ rest
      · obtain ⟨inner, behind, same, first⟩ := List.eq_append_cons_of_mem closed
        have shorter : behind.length < ('{' :: rest).length := by
          rw [same, List.length_cons, List.length_append, List.length_cons]
          omega
        rw [same]
        exact name inner behind first (scanInduction nil char unclosed name behind)
      · exact unclosed rest closed
    · exact char c rest brace (scanInduction nil char unclosed name rest)
termination_by text.length

namespace SegmentPart

/-- Put the part that a character makes in front of others. -/
def prepend (c : Char) (parts : List SegmentPart) : List SegmentPart :=
  if c = '*' then .anyRun :: parts else if c = '?' then .anyChar :: parts else consChar c parts

theorem readParts_cons {c : Char} (other : c ≠ '{') (rest : List Char) :
    readParts none (c :: rest) = (readParts none rest).map (prepend c) := by
  by_cases star : c = '*'
  · subst star
    rfl
  · by_cases mark : c = '?'
    · subst mark
      rfl
    · have same : prepend c = consChar c := by
        funext parts
        simp [prepend, star, mark]
      rw [same, readParts.eq_6 c rest star mark other]

theorem readParts_unclosed {rest : List Char} (unclosed : '}' ∉ rest) (name : List Char) :
    readParts (some name) rest = .error .unclosed := by
  induction rest generalizing name with
  | nil => rfl
  | cons c rest ih =>
    obtain ⟨other, later⟩ := not_or.mp (List.mem_cons.not.mp unclosed)
    rw [readParts.eq_8 name c rest (Ne.symm other)]
    exact ih later (c :: name)

theorem readParts_closed {inner : List Char} (first : '}' ∉ inner) (name rest : List Char) :
    readParts (some name) (inner ++ '}' :: rest) =
      if name.reverse ++ inner = [] then .error .unnamed
      else (readParts none rest).map (.capture (String.ofList (name.reverse ++ inner)) :: ·) := by
  induction inner generalizing name with
  | nil => simp [readParts]
  | cons c inner ih =>
    obtain ⟨other, later⟩ := not_or.mp (List.mem_cons.not.mp first)
    rw [List.cons_append, readParts.eq_8 name c _ (Ne.symm other), ih later (c :: name)]
    simp

theorem readParts_name {name : List Char} (first : '}' ∉ name) (rest : List Char) :
    readParts none ('{' :: (name ++ '}' :: rest)) =
      if name = [] then .error .unnamed
      else (readParts none rest).map (.capture (String.ofList name) :: ·) :=
  readParts_closed first [] rest

theorem written_prepend (c : Char) (parts : List SegmentPart) :
    (prepend c parts).flatMap written = c :: parts.flatMap written := by
  simp only [prepend]
  split
  · next star => simp [written, spell, star]
  · split
    · next mark => simp [written, spell, mark]
    · cases parts with
      | nil => simp [consChar, written, spell]
      | cons part rest => cases part <;> simp [consChar, written, spell]

theorem captureNames_prepend (c : Char) (parts : List SegmentPart) :
    (prepend c parts).filterMap captureName? = parts.filterMap captureName? := by
  simp only [prepend]
  split
  · rfl
  · split
    · rfl
    · cases parts with
      | nil => rfl
      | cons part rest => cases part <;> rfl

theorem tidyParts_cons {part : SegmentPart} {parts : List SegmentPart} (tidy : TidyParts parts)
    (fixed : ∀ text, part = .literal text → FixedText text)
    (named : ∀ name, part = .capture name → name ≠ "")
    (apart : ∀ next ∈ parts.head?, ¬ (part.isLiteral = true ∧ next.isLiteral = true)) :
    TidyParts (part :: parts) where
  fixed text member := by
    rcases List.mem_cons.mp member with same | later
    · exact fixed text same.symm
    · exact tidy.fixed text later
  named name member := by
    rcases List.mem_cons.mp member with same | later
    · exact named name same.symm
    · exact tidy.named name later
  apart := List.isChain_cons.mpr ⟨apart, tidy.apart⟩

theorem tidyParts_prepend {c : Char} {parts : List SegmentPart} (other : c ≠ '{')
    (tidy : TidyParts parts) : TidyParts (prepend c parts) := by
  simp only [prepend]
  split
  · exact tidyParts_cons tidy nofun nofun (by simp [isLiteral])
  · next star =>
    split
    · exact tidyParts_cons tidy nofun nofun (by simp [isLiteral])
    · next mark =>
      have fixed_cons {text : List Char} (plain : Plain text) :
          FixedText (String.ofList (c :: text)) := by
        refine ⟨by simp, ?_⟩
        simpa [Plain, Ne.symm star, Ne.symm mark, Ne.symm other] using plain
      have alone (apart : ∀ next ∈ parts.head?, next.isLiteral = false) :
          TidyParts (.literal (String.ofList [c]) :: parts) := by
        refine tidyParts_cons tidy ?_ nofun (by simpa [isLiteral] using apart)
        rintro _ ⟨⟩
        exact fixed_cons (by simp [Plain])
      -- In front of fixed text the character goes into it, so no two fixed texts come side by side.
      cases parts with
      | nil => exact alone (by simp)
      | cons part rest =>
        cases part with
        | literal text =>
          have tidy_rest : TidyParts rest :=
            { fixed := fun text member => tidy.fixed text (List.mem_cons_of_mem _ member)
              named := fun name member => tidy.named name (List.mem_cons_of_mem _ member)
              apart := (List.isChain_cons.mp tidy.apart).2 }
          refine tidyParts_cons tidy_rest ?_ nofun (List.isChain_cons.mp tidy.apart).1
          rintro _ ⟨⟩
          exact fixed_cons (tidy.fixed text List.mem_cons_self).2
        | anyChar => exact alone (by simp [isLiteral])
        | anyRun => exact alone (by simp [isLiteral])
        | capture name => exact alone (by simp [isLiteral])

/-- What is read of a mixture is written as the mixture again. -/
theorem of_readParts {text : List Char} {parts : List SegmentPart}
    (read : readParts none text = .ok parts) :
    NamesIn text (parts.filterMap captureName?) ∧ parts.flatMap written = text ∧ TidyParts parts := by
  induction text using scanInduction generalizing parts with
  | nil =>
    cases read
    exact ⟨.nil, rfl, nofun, nofun, .nil⟩
  | char c rest other ih =>
    rw [readParts_cons other, Outcome.map_eq_ok_iff] at read
    obtain ⟨later, read_rest, rfl⟩ := read
    obtain ⟨names, same, tidy⟩ := ih read_rest
    refine ⟨?_, ?_, tidyParts_prepend other tidy⟩
    · rw [captureNames_prepend]
      exact .char other names
    · rw [written_prepend, same]
  | unclosed rest unclosed =>
    have fails : readParts none ('{' :: rest) = .error .unclosed := readParts_unclosed unclosed []
    rw [fails] at read
    cases read
  | name name rest first ih =>
    rw [readParts_name first] at read
    split at read
    · cases read
    · next nonempty =>
      obtain ⟨later, read_rest, rfl⟩ := Outcome.map_eq_ok_iff.mp read
      obtain ⟨names, same, tidy⟩ := ih read_rest
      refine ⟨.name nonempty first names, ?_, tidyParts_cons tidy nofun ?_ (by simp [isLiteral])⟩
      · simp [written, spell, braced, ← same]
      · rintro _ ⟨⟩
        simpa using nonempty

theorem exists_readParts {text : List Char} {names : List String} (closed : NamesIn text names) :
    ∃ parts, readParts none text = .ok parts ∧ parts.filterMap captureName? = names := by
  induction closed with
  | nil => exact ⟨[], rfl, rfl⟩
  | @char c rest names other _ ih =>
    obtain ⟨parts, read, same⟩ := ih
    refine ⟨prepend c parts, ?_, ?_⟩
    · rw [readParts_cons other, read]
      rfl
    · rw [captureNames_prepend, same]
  | @name name rest names nonempty first _ ih =>
    obtain ⟨parts, read, same⟩ := ih
    refine ⟨.capture (String.ofList name) :: parts, ?_, ?_⟩
    · rw [readParts_name first, if_neg nonempty, read]
      rfl
    · rw [List.filterMap_cons, same]
      rfl

end SegmentPart

namespace Segment

theorem bracedText?_eq_some_iff {text inner : List Char} :
    bracedText? text = some inner ↔ text = braced inner ∧ BraceFree inner := by
  constructor
  · intro found
    unfold bracedText? at found
    split at found
    · next rest =>
      split at found
      · next last =>
        dsimp only at found
        split at found
        · cases found
        · next free =>
          cases found
          obtain ⟨front, rfl⟩ := List.getLast?_eq_some_iff.mp last
          refine ⟨by simp [braced], ?_⟩
          simpa [BraceFree] using free
      · cases found
    · cases found
  · rintro ⟨rfl, free⟩
    simpa [bracedText?, braced, BraceFree] using free

theorem read_braced {inner : List Char} (free : BraceFree inner) :
    read (braced inner) = ofBraced inner := by
  have enclosed : bracedText? (braced inner) = some inner :=
    bracedText?_eq_some_iff.mpr ⟨rfl, free⟩
  have not_star : braced inner ≠ ['*'] := by simp [braced]
  have not_stars : braced inner ≠ ['*', '*'] := by simp [braced]
  rw [read, if_neg not_star, if_neg not_stars, enclosed]

theorem read_plain {text : List Char} (plain : Plain text) :
    read text = .ok (.literal (String.ofList text)) := by
  have no_special : (text.contains '*' || text.contains '?' || text.contains '{') = false := by
    simpa [Plain, and_assoc] using plain
  have not_braced : bracedText? text = none := by
    refine Option.eq_none_iff_forall_ne_some.mpr fun inner found => plain.2.2 ?_
    rw [(bracedText?_eq_some_iff.mp found).1]
    exact List.mem_cons_self
  have not_star : text ≠ ['*'] := by
    rintro rfl
    exact plain.1 List.mem_cons_self
  have not_stars : text ≠ ['*', '*'] := by
    rintro rfl
    exact plain.1 List.mem_cons_self
  simp only [read, if_neg not_star, if_neg not_stars, not_braced, no_special, Bool.false_eq_true,
    if_false]

theorem read_mixed {text : List Char} (mixed : ¬ Unmixed text) :
    read text = (SegmentPart.readParts none text).map .compound := by
  have not_star : text ≠ ['*'] := fun same => mixed (same ▸ .wildcard)
  have not_stars : text ≠ ['*', '*'] := fun same => mixed (same ▸ .catchAll)
  have not_braced : bracedText? text = none := by
    refine Option.eq_none_iff_forall_ne_some.mpr fun inner found => mixed ?_
    obtain ⟨rfl, free⟩ := bracedText?_eq_some_iff.mp found
    exact .braced free
  have special : (text.contains '*' || text.contains '?' || text.contains '{') = true := by
    by_contra none_special
    exact mixed (.plain (by simpa [Plain, and_assoc] using none_special))
  simp only [read, if_neg not_star, if_neg not_stars, not_braced, special, if_true]

/-- What a pair of braces around a brace-free text may make. -/
theorem ofBraced_cases {inner : List Char} (free : BraceFree inner) :
    (∃ name, inner = '*' :: name ∧ name ≠ [] ∧ BraceFree name ∧
      ofBraced inner = .ok (.catchAll (some (String.ofList name)))) ∨
    (inner ≠ [] ∧ inner.head? ≠ some '*' ∧ ofBraced inner = .ok (.capture (String.ofList inner))) ∨
    ((inner = [] ∨ inner = ['*']) ∧ ofBraced inner = .error .unnamed) := by
  cases inner with
  | nil => exact .inr (.inr ⟨.inl rfl, rfl⟩)
  | cons c name =>
    by_cases star : c = '*'
    · subst star
      cases name with
      | nil => exact .inr (.inr ⟨.inr rfl, rfl⟩)
      | cons d name =>
        refine .inl ⟨d :: name, rfl, by simp, ?_, rfl⟩
        simpa [BraceFree] using free
    · refine .inr (.inl ⟨by simp, by simpa using star, ?_⟩)
      simp [ofBraced, star]

/-- A well-formed segment is read, with the names in its text. -/
theorem exists_read {last : Bool} {text : List Char} {names : List String}
    (well : WellFormedSegment last text names) :
    ∃ segment, read text = .ok segment ∧ segment.captureNames = names ∧
      (segment.isCatchAll = true → last = true) := by
  cases well with
  | wildcard => exact ⟨.wildcard, rfl, rfl, nofun⟩
  | catchAll at_end => exact ⟨.catchAll none, rfl, rfl, fun _ => at_end⟩
  | @capture name nonempty no_star free =>
    refine ⟨.capture (String.ofList name), ?_, rfl, nofun⟩
    rw [read_braced free]
    rcases ofBraced_cases free with ⟨_, rfl, -⟩ | ⟨-, -, made⟩ | ⟨rfl | rfl, -⟩
    · exact absurd rfl no_star
    · exact made
    · exact absurd rfl nonempty
    · exact absurd rfl no_star
  | @namedCatchAll name at_end nonempty free =>
    refine ⟨.catchAll (some (String.ofList name)), ?_, rfl, fun _ => at_end⟩
    have free_star : BraceFree ('*' :: name) := by simpa [BraceFree] using free
    rw [read_braced free_star]
    rcases ofBraced_cases free_star with ⟨_, same, -, -, made⟩ | ⟨-, no_star, -⟩ | ⟨nothing, -⟩
    · cases same
      exact made
    · exact absurd rfl no_star
    · simp [nonempty] at nothing
  | plain plain => exact ⟨.literal (String.ofList text), read_plain plain, rfl, nofun⟩
  | mixed mixed closed =>
    obtain ⟨parts, read, same⟩ := SegmentPart.exists_readParts closed
    refine ⟨.compound parts, ?_, same, nofun⟩
    rw [read_mixed mixed, read]
    rfl

theorem plain_of_fixed {parts : List SegmentPart} (tidy : TidyParts parts)
    (fixed : ∀ part ∈ parts, part.isLiteral = true) : Plain (parts.flatMap SegmentPart.written) := by
  have plain (c : Char) (special : c = '*' ∨ c = '?' ∨ c = '{') :
      c ∉ parts.flatMap SegmentPart.written := by
    intro member
    obtain ⟨part, listed, inside⟩ := List.mem_flatMap.mp member
    have literal := fixed part listed
    cases part with
    | literal text =>
      have text_plain := (tidy.fixed text listed).2
      rcases special with rfl | rfl | rfl
      · exact text_plain.1 inside
      · exact text_plain.2.1 inside
      · exact text_plain.2.2 inside
    | _ => cases literal
  exact ⟨plain '*' (by simp), plain '?' (by simp), plain '{' (by simp)⟩

/-- What is read was a well-formed segment; it is tidy, and written as the segment again. -/
theorem of_read {text : List Char} {segment : Segment} (nonempty : text ≠ [])
    (read_text : read text = .ok segment) :
    (∀ last, (segment.isCatchAll = true → last = true) →
      WellFormedSegment last text segment.captureNames) ∧
      segment.written = text ∧ segment.Tidy := by
  by_cases unmixed : Unmixed text
  · cases unmixed with
    | wildcard =>
      cases read_text
      exact ⟨fun _ _ => .wildcard, rfl, trivial⟩
    | catchAll =>
      cases read_text
      exact ⟨fun _ at_end => .catchAll (at_end rfl), rfl, trivial⟩
    | @braced inner free =>
      rw [read_braced free] at read_text
      rcases ofBraced_cases free with ⟨name, rfl, named, name_free, made⟩ |
        ⟨named, no_star, made⟩ | ⟨-, fails⟩
      · cases made.symm.trans read_text
        refine ⟨fun _ at_end => .namedCatchAll (at_end rfl) named name_free, ?_, ?_⟩
        · simp [written, spell]
        · simpa [Tidy] using named
      · cases made.symm.trans read_text
        refine ⟨fun _ _ => .capture named no_star free, ?_, ?_⟩
        · simp [written, spell]
        · simpa [Tidy] using named
      · cases fails.symm.trans read_text
    | plain plain =>
      cases (read_plain plain).symm.trans read_text
      refine ⟨fun _ _ => .plain plain, ?_, ?_, ?_⟩
      · simp [written, spell]
      · simpa using nonempty
      · simpa using plain
  · rw [read_mixed unmixed] at read_text
    obtain ⟨parts, read_parts, rfl⟩ := Outcome.map_eq_ok_iff.mp read_text
    obtain ⟨closed, same, tidy⟩ := SegmentPart.of_readParts read_parts
    refine ⟨fun _ _ => .mixed unmixed closed, same, tidy, ?_⟩
    by_contra none_other
    have fixed : ∀ part ∈ parts, part.isLiteral = true := by simpa using none_other
    exact unmixed (.plain (same ▸ plain_of_fixed tidy fixed))

/-- Fixed text is what has no character with a meaning of its own. -/
theorem isLiteral_iff_plain {segment : Segment} (tidy : segment.Tidy) :
    segment.isLiteral = true ↔ Plain segment.written := by
  cases segment with
  | literal text => exact ⟨fun _ => tidy.2, fun _ => rfl⟩
  | wildcard => simp [isLiteral, written, spell, Plain]
  | capture name => simp [isLiteral, written, spell, Plain, braced]
  | catchAll name => cases name <;> simp [isLiteral, written, spell, Plain, braced]
  | compound parts =>
    obtain ⟨-, part, listed, other⟩ := tidy
    have inside {c : Char} (member : c ∈ part.written) : c ∈ (compound parts).written :=
      List.mem_flatMap.mpr ⟨part, listed, member⟩
    refine ⟨nofun, fun plain => ?_⟩
    cases part with
    | literal text => cases other
    | anyChar => exact absurd (inside List.mem_cons_self) plain.2.1
    | anyRun => exact absurd (inside List.mem_cons_self) plain.1
    | capture name => exact absurd (inside List.mem_cons_self) plain.2.2

theorem Tidy.named {segment : Segment} (tidy : segment.Tidy) :
    ∀ name ∈ segment.captureNames, name ≠ "" := by
  intro name member
  cases segment with
  | literal text => cases member
  | wildcard => cases member
  | capture own =>
    obtain rfl := List.mem_singleton.mp member
    exact tidy
  | catchAll own =>
    cases own with
    | none => cases member
    | some own =>
      obtain rfl := List.mem_singleton.mp member
      exact tidy
  | compound parts =>
    obtain ⟨part, listed, same⟩ := List.mem_filterMap.mp member
    cases part with
    | capture own =>
      cases same
      exact tidy.1.named name listed
    | _ => cases same

end Segment

end HttpRouting
