import HttpRouting.Proofs.Pattern.Parts
import Mathlib.Data.String.Basic

/-!
The parts of a mixed segment matched by backtracking.  The search tries the ends of a run from the
shortest to the longest, counts in octets, and records the places where it has failed, so that it does
not try them again.  Captures are noted on the way back and bound when the whole text is matched.

The search and the table over suffixes satisfy one specification: they bind the pieces of the cut with
the least run lengths, and miss when there is no cut.  So they come to the same.
-/

set_option autoImplicit false
set_option relaxedAutoImplicit false

namespace HttpRouting.SegmentPart

open String (utf8Len)

/-- A cut whose run lengths come first among all cuts of the text. -/
structure LeastCut (parts : List SegmentPart) (pieces : List (List Char)) (text : List Char) :
    Prop where
  cuts : Cuts parts pieces text
  least : ∀ others, Cuts parts others text → runLengths parts pieces ≤ runLengths parts others

/-- The text behind a number of octets. -/
def dropOctets : Nat → List Char → List Char
  | _, [] => []
  | count, c :: rest => if count = 0 then c :: rest else dropOctets (count - c.utf8Size) rest

def takeOctets : Nat → List Char → List Char
  | _, [] => []
  | count, c :: rest => if count = 0 then [] else c :: takeOctets (count - c.utf8Size) rest

/-- The name of a capture, and the octets of the text between which its piece stands. -/
structure Span where
  name : String
  start : Nat
  stop : Nat

/-- Places known to fail: by the number of parts before them and the octet they begin at. -/
abbrev Failed := List (Nat × Nat)

/-- What a search over parts comes to: the captures from right to left, or none when it fails, with
the failed places known behind it. -/
abbrev Outcome := Option (List Span) × Failed

/-- The ends of a run on a text, from the shortest run to the longest. -/
def ends : Nat → List Char → List Nat
  | offset, [] => [offset]
  | offset, c :: rest => offset :: ends (offset + c.utf8Size) rest

/-- The first of the ends from which the other parts match. -/
def firstEnd (others : Nat → Failed → Outcome) :
    List Nat → Failed → Option (Nat × List Span) × Failed
  | [], failed => (none, failed)
  | stop :: stops, failed =>
    match others stop failed with
    | (some spans, failed) => (some (stop, spans), failed)
    | (none, failed) => firstEnd others stops failed

/-- Match one part from an octet of the text on, and the other parts behind it. -/
def attempt (text : List Char) (others : Nat → Failed → Outcome) (part : SegmentPart)
    (offset : Nat) (failed : Failed) : Outcome :=
  let remaining := dropOctets offset text
  match part with
  | .literal fixed =>
    if fixed.toList.isPrefixOf remaining then others (offset + utf8Len fixed.toList) failed
    else (none, failed)
  | .anyChar =>
    match remaining with
    | [] => (none, failed)
    | c :: _ => others (offset + c.utf8Size) failed
  | .anyRun =>
    match firstEnd others (ends offset remaining) failed with
    | (found, failed) => (found.map Prod.snd, failed)
  | .capture name =>
    match firstEnd others (ends offset remaining) failed with
    | (found, failed) => (found.map fun (stop, spans) => spans ++ [⟨name, offset, stop⟩], failed)

/-- Match parts from an octet of the text on.  A place that has failed is not tried again. -/
def searchFrom (text : List Char) : List SegmentPart → Nat → Nat → Failed → Outcome
  | [], _, offset, failed => (if offset = utf8Len text then some [] else none, failed)
  | part :: parts, index, offset, failed =>
    if failed.contains (index, offset) then (none, failed)
    else
      match attempt text (searchFrom text parts (index + 1)) part offset failed with
      | (some spans, failed) => (some spans, failed)
      | (none, failed) => (none, (index, offset) :: failed)

/-- Bind a name to its part of the text; a name counts as bound to what it was bound to last. -/
def bindSpan (text : List Char) (bindings : Variables) (span : Span) : Variables :=
  (span.name, String.ofList (takeOctets (span.stop - span.start) (dropOctets span.start text))) ::
    bindings

/-- Whether parts match a text, and what is bound behind it: the captures as well, if they match. -/
def backtrack (parts : List SegmentPart) (text : List Char) (bindings : Variables) :
    Bool × Variables :=
  match (searchFrom text parts 0 0 []).1 with
  | some spans => (true, spans.foldl (bindSpan text) bindings)
  | none => (false, bindings)

section LeastCuts

variable {part : SegmentPart} {parts : List SegmentPart} {piece piece' rest text : List Char}
  {pieces pieces' : List (List Char)}

theorem runLengths_cons_of_not_isRun (fixed : part.isRun = false) :
    runLengths (part :: parts) (piece :: pieces) = runLengths parts pieces := by
  simp [runLengths, fixed]

theorem length_eq_of_accepts (fixed : part.isRun = false) (accepts : part.Accepts piece)
    (accepts' : part.Accepts piece') : piece.length = piece'.length := by
  cases accepts with
  | literal text =>
    cases accepts'
    rfl
  | anyChar c =>
    cases accepts'
    rfl
  | anyRun => cases fixed
  | capture => cases fixed

theorem Cuts.eq_of_runLengths (cuts : Cuts parts pieces text) (cuts' : Cuts parts pieces' text)
    (same : runLengths parts pieces = runLengths parts pieces') : pieces = pieces' := by
  induction parts generalizing text pieces pieces' with
  | nil => rw [(cuts_nil_iff.mp cuts).1, (cuts_nil_iff.mp cuts').1]
  | cons part parts ih =>
    obtain ⟨piece, others, rest, accepts, behind, rfl, rfl⟩ := cuts_cons_iff.mp cuts
    obtain ⟨piece', others', rest', accepts', behind', rfl, split⟩ := cuts_cons_iff.mp cuts'
    have lengths : piece.length = piece'.length ∧
        runLengths parts others = runLengths parts others' := by
      cases run : part.isRun with
      | true =>
        rw [runLengths_cons_of_isRun run, runLengths_cons_of_isRun run] at same
        exact List.cons.inj same
      | false =>
        rw [runLengths_cons_of_not_isRun run, runLengths_cons_of_not_isRun run] at same
        exact ⟨length_eq_of_accepts run accepts accepts', same⟩
    obtain ⟨rfl, rfl⟩ := List.append_inj split lengths.1
    rw [ih behind behind' lengths.2]

theorem LeastCut.unique (least : LeastCut parts pieces text) (least' : LeastCut parts pieces' text) :
    pieces = pieces' :=
  least.cuts.eq_of_runLengths least'.cuts
    (le_antisymm (least.least pieces' least'.cuts) (least'.least pieces least.cuts))

theorem LeastCut.nil : LeastCut [] [] [] :=
  ⟨cuts_nil_iff.mpr ⟨rfl, rfl⟩, fun _ _ => le_refl []⟩

theorem LeastCut.cons_fixed (fixed : part.isRun = false) (accepts : part.Accepts piece)
    (behind : LeastCut parts pieces rest) :
    LeastCut (part :: parts) (piece :: pieces) (piece ++ rest) := by
  refine ⟨behind.cuts.cons accepts, fun others cuts => ?_⟩
  obtain ⟨piece', others, rest', accepts', cuts_rest, rfl, split⟩ := cuts_cons_iff.mp cuts
  obtain ⟨rfl, rfl⟩ := List.append_inj split (length_eq_of_accepts fixed accepts accepts')
  rw [runLengths_cons_of_not_isRun fixed, runLengths_cons_of_not_isRun fixed]
  exact behind.least others cuts_rest

/-- A run begins the least cut when the other parts match behind it and behind no shorter one. -/
theorem LeastCut.cons_run (run : part.isRun = true) (behind : LeastCut parts pieces rest)
    (shortest : ∀ earlier later, piece = earlier ++ later → later ≠ [] →
      ∀ others, ¬ Cuts parts others (later ++ rest)) :
    LeastCut (part :: parts) (piece :: pieces) (piece ++ rest) := by
  refine ⟨behind.cuts.cons (accepts_of_isRun run piece), fun others cuts => ?_⟩
  obtain ⟨piece', others, rest', -, cuts_rest, rfl, split⟩ := cuts_cons_iff.mp cuts
  rw [runLengths_cons_of_isRun run, runLengths_cons_of_isRun run, cons_le_cons_iff]
  rcases List.append_eq_append_iff.mp split with ⟨more, rfl, rfl⟩ | ⟨more, rfl, rfl⟩
  · cases more with
    | nil =>
      right
      exact ⟨by simp, behind.least others cuts_rest⟩
    | cons c more =>
      left
      rw [List.length_append, List.length_cons]
      omega
  · cases more with
    | nil =>
      right
      exact ⟨by simp, behind.least others cuts_rest⟩
    | cons c more => exact absurd cuts_rest (shortest piece' (c :: more) rfl (by simp) others)

end LeastCuts

theorem matchAll?_eq_some_iff {parts : List SegmentPart} {text : List Char} {bindings : Variables} :
    matchAll? parts text = some bindings ↔
      ∃ pieces, LeastCut parts pieces text ∧ bindings = captured parts pieces := by
  constructor
  · intro found
    obtain ⟨pieces, cuts, rfl, least⟩ := exists_cuts_of_matchAll? found
    exact ⟨pieces, ⟨cuts, least⟩, rfl⟩
  · rintro ⟨pieces, least, rfl⟩
    obtain ⟨bindings, found⟩ :=
      Option.isSome_iff_exists.mp (isSome_matchAll?_iff.mpr ⟨pieces, least.cuts⟩)
    obtain ⟨pieces', cuts, rfl, least'⟩ := exists_cuts_of_matchAll? found
    rw [found, least.unique ⟨cuts, least'⟩]

section Octets

variable {before piece rest : List Char}

theorem dropOctets_append : dropOctets (utf8Len before) (before ++ rest) = rest := by
  induction before with
  | nil => cases rest <;> rfl
  | cons c before ih =>
    have some_octets := c.utf8Size_pos
    rw [List.cons_append, dropOctets, String.utf8Len_cons, if_neg (by omega), Nat.add_sub_cancel]
    exact ih

theorem takeOctets_append : takeOctets (utf8Len piece) (piece ++ rest) = piece := by
  induction piece with
  | nil => cases rest <;> rfl
  | cons c piece ih =>
    have some_octets := c.utf8Size_pos
    rw [List.cons_append, takeOctets, String.utf8Len_cons, if_neg (by omega), Nat.add_sub_cancel, ih]

end Octets

/-- Where the captures stand when the pieces begin at an octet, from right to left. -/
def spansOf : List SegmentPart → Nat → List (List Char) → List Span
  | .capture name :: parts, offset, piece :: pieces =>
    spansOf parts (offset + utf8Len piece) pieces ++ [⟨name, offset, offset + utf8Len piece⟩]
  | _ :: parts, offset, piece :: pieces => spansOf parts (offset + utf8Len piece) pieces
  | _, _, _ => []

/-- What a search over parts must come to on a text that begins at an octet. -/
structure Answers (parts : List SegmentPart) (offset : Nat) (text : List Char)
    (answer : Option (List Span)) : Prop where
  found : ∀ spans, answer = some spans → ∃ pieces, LeastCut parts pieces text ∧
    spans = spansOf parts offset pieces
  missed : answer = none → ∀ pieces, ¬ Cuts parts pieces text

/-- What the search for the end of a run in front of parts must come to. -/
structure RunAnswers (parts : List SegmentPart) (offset : Nat) (text : List Char)
    (answer : Option (Nat × List Span)) : Prop where
  found : ∀ stop spans, answer = some (stop, spans) → ∃ piece rest pieces, text = piece ++ rest ∧
    stop = offset + utf8Len piece ∧ LeastCut parts pieces rest ∧
    spans = spansOf parts stop pieces ∧ ∀ earlier later, piece = earlier ++ later → later ≠ [] →
      ∀ others, ¬ Cuts parts others (later ++ rest)
  missed : answer = none → ∀ piece rest, text = piece ++ rest → ∀ pieces, ¬ Cuts parts pieces rest

/-- At the places recorded as failed the parts do not match. -/
def Sound (text : List Char) (all : List SegmentPart) (failed : Failed) : Prop :=
  ∀ index offset, (index, offset) ∈ failed →
    ∀ pieces, ¬ Cuts (all.drop index) pieces (dropOctets offset text)

/-- A search answers rightly wherever it starts, and records failures only. -/
def Serves (text : List Char) (all parts : List SegmentPart) (search : Nat → Failed → Outcome) :
    Prop :=
  ∀ before rest failed, text = before ++ rest → Sound text all failed →
    Answers parts (utf8Len before) rest (search (utf8Len before) failed).1 ∧
      Sound text all (search (utf8Len before) failed).2

section Runs

variable {part : SegmentPart} {parts : List SegmentPart} {offset : Nat} {text rest : List Char}
  {answer : Option (Nat × List Span)}

theorem RunAnswers.of_found {spans : List Span} (here : Answers parts offset text (some spans)) :
    RunAnswers parts offset text (some (offset, spans)) := by
  refine ⟨fun stop spans' same => ?_, nofun⟩
  cases same
  obtain ⟨pieces, least, rfl⟩ := here.found spans rfl
  refine ⟨[], text, pieces, rfl, rfl, least, rfl, ?_⟩
  intro earlier later split nonempty
  exact absurd (List.append_eq_nil_iff.mp split.symm).2 nonempty

theorem RunAnswers.nil (here : Answers parts offset [] none) : RunAnswers parts offset [] none := by
  refine ⟨nofun, fun _ piece rest split => ?_⟩
  obtain ⟨rfl, rfl⟩ := List.append_eq_nil_iff.mp split.symm
  exact here.missed rfl

/-- When the other parts do not match at once, the run takes a character. -/
theorem RunAnswers.cons {c : Char} (here : Answers parts offset (c :: rest) none)
    (behind : RunAnswers parts (offset + c.utf8Size) rest answer) :
    RunAnswers parts offset (c :: rest) answer := by
  constructor
  · intro stop spans same
    obtain ⟨piece, suffix, pieces, rfl, rfl, least, located, shortest⟩ := behind.found stop spans same
    refine ⟨c :: piece, suffix, pieces, rfl, ?_, least, located, ?_⟩
    · rw [String.utf8Len_cons]
      omega
    · intro earlier later split nonempty
      cases earlier with
      | nil =>
        obtain rfl : c :: piece = later := split
        exact here.missed rfl
      | cons d earlier => exact shortest earlier later (List.cons.inj split).2 nonempty
  · intro none_found piece suffix split
    cases piece with
    | nil =>
      obtain rfl : c :: rest = suffix := split
      exact here.missed rfl
    | cons d piece => exact behind.missed none_found piece suffix (List.cons.inj split).2

theorem RunAnswers.answers (run : part.isRun = true) (ends : RunAnswers parts offset text answer)
    (finish : Nat × List Span → List Span)
    (finishes : ∀ piece pieces, spansOf (part :: parts) offset (piece :: pieces) =
      finish (offset + utf8Len piece, spansOf parts (offset + utf8Len piece) pieces)) :
    Answers (part :: parts) offset text (answer.map finish) := by
  constructor
  · intro spans same
    obtain ⟨⟨stop, spans⟩, found, rfl⟩ := Option.map_eq_some_iff.mp same
    obtain ⟨piece, rest, pieces, rfl, rfl, least, rfl, shortest⟩ := ends.found stop spans found
    exact ⟨piece :: pieces, least.cons_run run shortest, (finishes piece pieces).symm⟩
  · intro none_found pieces cuts
    obtain ⟨piece, pieces, rest, -, cuts_rest, -, split⟩ := cuts_cons_iff.mp cuts
    exact ends.missed (Option.map_eq_none_iff.mp none_found) piece rest split pieces cuts_rest

theorem Answers.cons_fixed {piece : List Char} {answer : Option (List Span)}
    (fixed : part.isRun = false) (accepts : part.Accepts piece)
    (behind : Answers parts (offset + utf8Len piece) rest answer) :
    Answers (part :: parts) offset (piece ++ rest) answer := by
  constructor
  · intro spans same
    obtain ⟨pieces, least, rfl⟩ := behind.found spans same
    refine ⟨piece :: pieces, least.cons_fixed fixed accepts, ?_⟩
    cases accepts with
    | literal | anyChar => rfl
    | anyRun | capture => cases fixed
  · intro none_found pieces cuts
    obtain ⟨piece', pieces, rest', accepts', cuts_rest, -, split⟩ := cuts_cons_iff.mp cuts
    obtain ⟨rfl, rfl⟩ := List.append_inj split (length_eq_of_accepts fixed accepts accepts')
    exact behind.missed none_found pieces cuts_rest

end Runs

section Search

variable {text before rest : List Char} {all parts : List SegmentPart} {part : SegmentPart}
  {others : Nat → Failed → Outcome} {failed : Failed}

theorem firstEnd_spec (serves : Serves text all parts others) (here : text = before ++ rest)
    (sound : Sound text all failed) :
    let outcome := firstEnd others (ends (utf8Len before) rest) failed
    RunAnswers parts (utf8Len before) rest outcome.1 ∧ Sound text all outcome.2 := by
  -- The end at hand is tried first; only when the others fail there does the run take a character.
  induction rest generalizing before failed with
  | nil =>
    obtain ⟨answers, sound'⟩ := serves before [] failed here sound
    simp only [ends, firstEnd]
    rcases tried : others (utf8Len before) failed with ⟨_ | spans, failed'⟩
    · rw [tried] at answers sound'
      exact ⟨.nil answers, sound'⟩
    · rw [tried] at answers sound'
      exact ⟨.of_found answers, sound'⟩
  | cons c rest ih =>
    obtain ⟨answers, sound'⟩ := serves before (c :: rest) failed here sound
    simp only [ends, firstEnd]
    rcases tried : others (utf8Len before) failed with ⟨_ | spans, failed'⟩
    · rw [tried] at answers sound'
      have next : utf8Len (before ++ [c]) = utf8Len before + c.utf8Size := by simp
      have split : text = (before ++ [c]) ++ rest := by simp [here]
      obtain ⟨behind, sound_behind⟩ := ih split sound'
      rw [next] at behind sound_behind
      exact ⟨.cons answers behind, sound_behind⟩
    · rw [tried] at answers sound'
      exact ⟨.of_found answers, sound'⟩

theorem attempt_spec (serves : Serves text all parts others) :
    Serves text all (part :: parts) (attempt text others part) := by
  rintro before rest failed rfl sound
  have ends_spec := firstEnd_spec serves rfl sound
  simp only [attempt, dropOctets_append]
  cases part with
  | literal fixed =>
    dsimp only
    split
    · next begins =>
      obtain ⟨rest, rfl⟩ := List.isPrefixOf_iff_prefix.mp begins
      obtain ⟨answers, sound'⟩ :=
        serves (before ++ fixed.toList) rest failed (by simp) sound
      rw [String.utf8Len_append] at answers sound'
      exact ⟨answers.cons_fixed rfl (.literal fixed), sound'⟩
    · next differs =>
      refine ⟨⟨nofun, fun _ pieces cuts => differs ?_⟩, sound⟩
      obtain ⟨piece, pieces, rest, accepts, -, -, rfl⟩ := cuts_cons_iff.mp cuts
      cases accepts
      exact List.isPrefixOf_iff_prefix.mpr (List.prefix_append _ rest)
  | anyChar =>
    cases rest with
    | nil =>
      refine ⟨⟨nofun, fun _ pieces cuts => ?_⟩, sound⟩
      obtain ⟨piece, pieces, rest, accepts, -, -, split⟩ := cuts_cons_iff.mp cuts
      cases accepts
      cases split
    | cons c rest =>
      obtain ⟨answers, sound'⟩ := serves (before ++ [c]) rest failed (by simp) sound
      have one : utf8Len [c] = c.utf8Size := by simp
      rw [String.utf8Len_append] at answers sound'
      have answers := answers.cons_fixed rfl (.anyChar c)
      rw [one] at answers sound'
      exact ⟨answers, sound'⟩
  | anyRun => exact ⟨ends_spec.1.answers rfl Prod.snd fun _ _ => rfl, ends_spec.2⟩
  | capture name => exact ⟨ends_spec.1.answers rfl _ fun _ _ => rfl, ends_spec.2⟩

/-- The search serves behind any number of parts. -/
theorem searchFrom_spec {index : Nat} (behind : all.drop index = parts) :
    Serves text all parts (searchFrom text parts index) := by
  induction parts generalizing index with
  | nil =>
    rintro before rest failed rfl sound
    simp only [searchFrom, String.utf8Len_append]
    refine ⟨?_, sound⟩
    split
    · next at_end =>
      obtain rfl : rest = [] := String.utf8Len_eq_zero.mp (by omega)
      refine ⟨fun spans same => ⟨[], .nil, (Option.some.inj same).symm⟩, nofun⟩
    · next not_at_end =>
      refine ⟨nofun, fun _ pieces cuts => not_at_end ?_⟩
      rw [(cuts_nil_iff.mp cuts).2]
      rfl
  | cons part parts ih =>
    have behind' : all.drop (index + 1) = parts := by
      rw [← List.tail_drop, behind, List.tail_cons]
    rintro before rest failed rfl sound
    simp only [searchFrom]
    split
    · -- What is skipped has failed before, so it would fail again.
      next known =>
      have fails := sound index (utf8Len before) (List.contains_iff_mem.mp known)
      rw [behind, dropOctets_append] at fails
      exact ⟨⟨nofun, fun _ => fails⟩, sound⟩
    · have serves : Serves (before ++ rest) all (part :: parts)
          (attempt (before ++ rest) (searchFrom (before ++ rest) parts (index + 1)) part) :=
        attempt_spec (ih behind')
      obtain ⟨answers, sound'⟩ := serves before rest failed rfl sound
      split
      · next spans failed' tried =>
        rw [tried] at answers sound'
        exact ⟨answers, sound'⟩
      · next failed' tried =>
        rw [tried] at answers sound'
        -- What is recorded has just failed.
        refine ⟨answers, fun index' offset listed => ?_⟩
        rcases List.mem_cons.mp listed with here | before
        · cases here
          rw [behind, dropOctets_append]
          exact answers.missed rfl
        · exact sound' index' offset before

end Search

/-- The spans lead to the pieces of the captures. -/
theorem foldl_bindSpan {parts : List SegmentPart} {pieces : List (List Char)} {rest : List Char}
    (before : List Char) (cuts : Cuts parts pieces rest) (bindings : Variables) :
    (spansOf parts (utf8Len before) pieces).foldl (bindSpan (before ++ rest)) bindings =
      captured parts pieces ++ bindings := by
  induction parts generalizing before pieces rest with
  | nil =>
    obtain ⟨rfl, rfl⟩ := cuts_nil_iff.mp cuts
    rfl
  | cons part parts ih =>
    obtain ⟨piece, pieces, rest, accepts, cuts_rest, rfl, rfl⟩ := cuts_cons_iff.mp cuts
    have later := ih (before ++ piece) cuts_rest
    rw [String.utf8Len_append, List.append_assoc] at later
    cases accepts with
    | literal | anyChar | anyRun => exact later
    | capture name piece =>
      have bound : takeOctets (utf8Len before + utf8Len piece - utf8Len before)
          (dropOctets (utf8Len before) (before ++ (piece ++ rest))) = piece := by
        rw [dropOctets_append, Nat.add_sub_cancel_left, takeOctets_append]
      rw [spansOf, List.foldl_append, later, List.foldl_cons, List.foldl_nil, bindSpan, bound]
      rfl

/-- Backtracking comes to what the table comes to; when nothing matches, it binds nothing. -/
theorem backtrack_eq (parts : List SegmentPart) (text : List Char) (bindings : Variables) :
    backtrack parts text bindings =
      match matchAll? parts text with
      | some captures => (true, captures ++ bindings)
      | none => (false, bindings) := by
  have serves : Serves text parts parts (searchFrom text parts 0) := searchFrom_spec List.drop_zero
  obtain ⟨answers, -⟩ := serves [] text [] rfl nofun
  rw [String.utf8Len_nil] at answers
  rw [backtrack]
  cases outcome : (searchFrom text parts 0 0 []).1 with
  | none =>
    have missed : matchAll? parts text = none := by
      rw [← Option.not_isSome_iff_eq_none, isSome_matchAll?_iff]
      rintro ⟨pieces, cuts⟩
      exact answers.missed outcome pieces cuts
    rw [missed]
  | some spans =>
    obtain ⟨pieces, least, rfl⟩ := answers.found spans outcome
    rw [matchAll?_eq_some_iff.mpr ⟨pieces, least, rfl⟩]
    exact congrArg (true, ·) (foldl_bindSpan [] least.cuts bindings)

/-- For all parts and every text: the parts match just when the text can be cut into pieces for them.
Then there is one cut with the least run lengths, and what is bound are its pieces.  The search with its
record of failed places comes to the same, adds to what is bound before, and adds nothing when it fails. -/
theorem match_least_cut (parts : List SegmentPart) (text : List Char) :
    ((matchAll? parts text).isSome = true ↔ ∃ pieces, Cuts parts pieces text) ∧
      ((∃ pieces, Cuts parts pieces text) → ∃! pieces, LeastCut parts pieces text) ∧
      (∀ captures, matchAll? parts text = some captures ↔
        ∃ pieces, LeastCut parts pieces text ∧ captures = captured parts pieces) ∧
      ∀ bindings, backtrack parts text bindings =
        match matchAll? parts text with
        | some captures => (true, captures ++ bindings)
        | none => (false, bindings) := by
  refine ⟨isSome_matchAll?_iff, ?_, fun captures => matchAll?_eq_some_iff, backtrack_eq parts text⟩
  intro cut
  obtain ⟨captures, found⟩ := Option.isSome_iff_exists.mp (isSome_matchAll?_iff.mpr cut)
  obtain ⟨pieces, least, -⟩ := matchAll?_eq_some_iff.mp found
  exact ⟨pieces, least, fun others least' => least'.unique least⟩

/-- The first of two captures ends before the first point; its last character takes two octets. -/
theorem match_two_captures :
    let parts := [.capture "name", .literal ".", .capture "kind"]
    let text := "zoë.tar.gz".toList
    let captures := [("name", "zoë"), ("kind", "tar.gz")]
    (∃! pieces, LeastCut parts pieces text) ∧
      (∃ pieces, LeastCut parts pieces text ∧ captures = captured parts pieces) ∧
      backtrack parts text [("id", "7")] = (true, captures ++ [("id", "7")]) := by
  intro parts text captures
  obtain ⟨cut, only, least, search⟩ := match_least_cut parts text
  have found : matchAll? parts text = some captures := by decide
  refine ⟨only (cut.mp ?_), (least captures).mp found, ?_⟩
  · rw [found]
    rfl
  · rw [search, found]

end HttpRouting.SegmentPart
