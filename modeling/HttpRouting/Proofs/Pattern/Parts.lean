import HttpRouting.Pattern.Match
import Mathlib.Data.List.Forall2
import Mathlib.Data.List.Lex

/-!
What mixed segments match.  The parts match a text when it can be cut into pieces, one for each part.
The table over suffixes holds what plain backtracking would find, which tries every run as short as it
can be; so it finds a cut whenever there is one, and of all cuts the one with the least run lengths.
-/

set_option autoImplicit false
set_option relaxedAutoImplicit false

namespace HttpRouting.SegmentPart

/-- The texts that a part stands for. -/
inductive Accepts : SegmentPart → List Char → Prop
  | literal (text : String) : Accepts (.literal text) text.toList
  | anyChar (c : Char) : Accepts .anyChar [c]
  | anyRun (text : List Char) : Accepts .anyRun text
  | capture (name : String) (text : List Char) : Accepts (.capture name) text

/-- A text is cut into pieces, one for each part. -/
structure Cuts (parts : List SegmentPart) (pieces : List (List Char)) (text : List Char) : Prop where
  each : List.Forall₂ Accepts parts pieces
  whole : pieces.flatten = text

/-- Whether a part stands for any text. -/
def isRun : SegmentPart → Bool
  | .anyRun | .capture _ => true
  | .literal _ | .anyChar => false

/-- The lengths of the runs among pieces. -/
def runLengths : List SegmentPart → List (List Char) → RunLengths
  | part :: parts, piece :: pieces =>
    if part.isRun then piece.length :: runLengths parts pieces else runLengths parts pieces
  | _, _ => []

/-- What the captures among parts bind, given the pieces. -/
def captured : List SegmentPart → List (List Char) → Variables
  | .capture name :: parts, piece :: pieces => (name, String.ofList piece) :: captured parts pieces
  | _ :: parts, _ :: pieces => captured parts pieces
  | _, _ => []

/-- The run lengths with which parts match a text. -/
def lengths? (parts : List SegmentPart) (text : List Char) : Option RunLengths :=
  entryAt (table text parts) 0

theorem nil_le (lengths : RunLengths) : [] ≤ lengths :=
  not_lt.mp (List.not_lt_nil lengths)

theorem cons_le_cons_iff {length length' : Nat} {lengths lengths' : RunLengths} :
    length :: lengths ≤ length' :: lengths' ↔
      length < length' ∨ length = length' ∧ lengths ≤ lengths' := by
  rw [← not_lt, ← not_lt, List.cons_lt_cons_iff]
  rcases lt_trichotomy length length' with less | rfl | greater
  · simp [less, less.not_gt, less.ne']
  · simp
  · simp [greater, greater.not_gt, greater.ne']

variable {parts : List SegmentPart} {pieces : List (List Char)} {text : List Char}

theorem entryAt_tail (table : SuffixTable) (distance : Nat) :
    entryAt table.tail distance = entryAt table (distance + 1) := by
  cases table <;> rfl

theorem length_literalTable (fixed text : List Char) (table : SuffixTable) :
    (literalTable fixed text table).length = text.length + 1 := by
  induction text generalizing table with
  | nil => rfl
  | cons c rest ih => rw [literalTable, List.length_cons, ih, List.length_cons]

theorem length_runTable (text : List Char) (table : SuffixTable) :
    (runTable text table).length = text.length + 1 := by
  induction text generalizing table with
  | nil => rfl
  | cons c rest ih => rw [runTable, List.length_cons, ih, List.length_cons]

theorem length_table (text : List Char) (parts : List SegmentPart) :
    (table text parts).length = text.length + 1 := by
  induction parts with
  | nil =>
    induction text with
    | nil => rfl
    | cons c rest ih => exact congrArg (· + 1) ih
  | cons part parts ih =>
    cases part with
    | literal fixed => exact length_literalTable fixed.toList text _
    | anyChar =>
      rw [table, anyCharTable, List.length_append, List.length_tail, ih]
      rfl
    | anyRun => exact length_runTable text _
    | capture name => exact length_runTable text _

/-- Behind its first entry a table is the table of the rest of the text. -/
theorem tail_table (c : Char) (rest : List Char) (parts : List SegmentPart) :
    (table (c :: rest) parts).tail = table rest parts := by
  induction parts with
  | nil => rfl
  | cons part parts ih =>
    cases part with
    | literal fixed => simp only [table, literalTable, List.tail_cons, ih]
    | anyChar =>
      have nonempty : table rest parts ≠ [] := by
        have := length_table rest parts
        exact List.ne_nil_of_length_pos (by omega)
      rw [table, anyCharTable, ih, List.tail_append_of_ne_nil nonempty]
      rfl
    | anyRun => simp only [table, runTable, List.tail_cons, ih]
    | capture name => simp only [table, runTable, List.tail_cons, ih]

/-- The entries of a table are those of the suffixes. -/
theorem entryAt_table {distance : Nat} (within : distance ≤ text.length) :
    entryAt (table text parts) distance = lengths? parts (text.drop distance) := by
  induction distance generalizing text with
  | zero => rfl
  | succ distance ih =>
    cases text with
    | nil => simp at within
    | cons c rest =>
      rw [← entryAt_tail, tail_table, List.drop_succ_cons]
      exact ih (Nat.le_of_succ_le_succ within)

theorem lengths?_nil (text : List Char) :
    lengths? [] text = if text = [] then some [] else none := by
  cases text <;> rfl

theorem lengths?_literal (fixed : String) (parts : List SegmentPart) (text : List Char) :
    lengths? (.literal fixed :: parts) text =
      if fixed.toList <+: text then lengths? parts (text.drop fixed.toList.length) else none := by
  cases text with
  | nil =>
    by_cases empty : fixed.toList = []
    · simp [lengths?, table, literalTable, empty, entryAt]
    · simp [lengths?, table, literalTable, empty, entryAt]
  | cons c rest =>
    by_cases begins : fixed.toList <+: c :: rest
    · have here : lengths? (.literal fixed :: parts) (c :: rest) =
          entryAt (table (c :: rest) parts) fixed.toList.length := by
        simp [lengths?, table, literalTable, entryAt, List.isPrefixOf_iff_prefix.mpr begins]
      rw [here, entryAt_table begins.length_le, if_pos begins]
    · have differs : fixed.toList.isPrefixOf (c :: rest) = false := by
        rw [Bool.eq_false_iff, ne_eq, List.isPrefixOf_iff_prefix]
        exact begins
      simp [lengths?, table, literalTable, entryAt, differs, begins]

theorem lengths?_anyChar (parts : List SegmentPart) (text : List Char) :
    lengths? (.anyChar :: parts) text =
      match text with
      | [] => none
      | _ :: rest => lengths? parts rest := by
  cases text with
  | nil =>
    have short := length_table [] parts
    cases found : table [] parts with
    | nil => simp [lengths?, table, anyCharTable, found, entryAt]
    | cons entry others =>
      have none_behind : others = [] := by simpa [found] using short
      simp [lengths?, table, anyCharTable, found, none_behind, entryAt]
  | cons c rest =>
    have long := length_table rest parts
    show entryAt (anyCharTable (table (c :: rest) parts)) 0 = entryAt (table rest parts) 0
    rw [anyCharTable, tail_table]
    cases found : table rest parts with
    | nil => simp [found] at long
    | cons entry others => rfl

section Run

variable {part : SegmentPart} (run : part.isRun = true) (parts : List SegmentPart)

include run

theorem table_run (text : List Char) :
    table text (part :: parts) = runTable text (table text parts) := by
  cases part with
  | literal _ => cases run
  | anyChar => cases run
  | anyRun => rfl
  | capture _ => rfl

theorem lengths?_run_nil : lengths? (part :: parts) [] = (lengths? parts []).map (0 :: ·) := by
  rw [lengths?, table_run run]
  rfl

/-- A run is as short as it can be: it takes a character only when the others do not match here. -/
theorem lengths?_run_cons (c : Char) (rest : List Char) :
    lengths? (part :: parts) (c :: rest) =
      ((lengths? parts (c :: rest)).map (0 :: ·)).or
        ((lengths? (part :: parts) rest).map lengthen) := by
  rw [lengths?, table_run run, runTable, tail_table, ← table_run run]
  show entryAt (_ :: _) 0 = ((entryAt (table (c :: rest) parts) 0).map (0 :: ·)).or _
  cases entryAt (table (c :: rest) parts) 0 <;> rfl

end Run

theorem Cuts.cons {part : SegmentPart} {piece : List Char} (accepts : part.Accepts piece)
    (cuts : Cuts parts pieces text) : Cuts (part :: parts) (piece :: pieces) (piece ++ text) :=
  ⟨.cons accepts cuts.each, congrArg (piece ++ ·) cuts.whole⟩

theorem cuts_cons_iff {part : SegmentPart} :
    Cuts (part :: parts) pieces text ↔ ∃ piece pieces' rest, part.Accepts piece ∧
      Cuts parts pieces' rest ∧ pieces = piece :: pieces' ∧ text = piece ++ rest := by
  constructor
  · rintro ⟨each, rfl⟩
    obtain ⟨piece, pieces', accepts, each', rfl⟩ := List.forall₂_cons_left_iff.mp each
    exact ⟨piece, pieces', _, accepts, ⟨each', rfl⟩, rfl, rfl⟩
  · rintro ⟨piece, pieces', rest, accepts, cuts, rfl, rfl⟩
    exact cuts.cons accepts

theorem cuts_nil_iff : Cuts [] pieces text ↔ pieces = [] ∧ text = [] := by
  constructor
  · rintro ⟨⟨⟩, rfl⟩
    exact ⟨rfl, rfl⟩
  · rintro ⟨rfl, rfl⟩
    exact ⟨.nil, rfl⟩

section Run

variable {part : SegmentPart} (run : part.isRun = true)

include run

theorem accepts_of_isRun (piece : List Char) : part.Accepts piece := by
  cases part with
  | literal _ => cases run
  | anyChar => cases run
  | anyRun => exact .anyRun piece
  | capture name => exact .capture name piece

theorem runLengths_cons_of_isRun (piece : List Char) (pieces : List (List Char)) :
    runLengths (part :: parts) (piece :: pieces) = piece.length :: runLengths parts pieces := by
  simp [runLengths, run]

theorem exists_cuts_of_run {lengths : RunLengths} (of_parts : ∀ {text lengths},
      lengths? parts text = some lengths → ∃ pieces, Cuts parts pieces text ∧
        runLengths parts pieces = lengths)
    (found : lengths? (part :: parts) text = some lengths) :
    ∃ pieces, Cuts (part :: parts) pieces text ∧ runLengths (part :: parts) pieces = lengths := by
  have of_others {text : List Char} {later : RunLengths}
      (others : lengths? parts text = some later) : ∃ pieces,
      Cuts (part :: parts) pieces text ∧ runLengths (part :: parts) pieces = 0 :: later := by
    obtain ⟨pieces, cuts, rfl⟩ := of_parts others
    exact ⟨[] :: pieces, cuts.cons (accepts_of_isRun run []), runLengths_cons_of_isRun run [] pieces⟩
  -- The run is as long as there are characters before the suffix that the others match.
  induction text generalizing lengths with
  | nil =>
    rw [lengths?_run_nil run] at found
    obtain ⟨later, others, rfl⟩ := Option.map_eq_some_iff.mp found
    exact of_others others
  | cons c rest ih =>
    rw [lengths?_run_cons run, Option.or_eq_some_iff] at found
    rcases found with here | ⟨-, behind⟩
    · obtain ⟨later, others, rfl⟩ := Option.map_eq_some_iff.mp here
      exact of_others others
    · obtain ⟨shorter, found_rest, rfl⟩ := Option.map_eq_some_iff.mp behind
      obtain ⟨pieces, cuts, rfl⟩ := ih found_rest
      obtain ⟨piece, pieces', suffix, -, cuts', rfl, rfl⟩ := cuts_cons_iff.mp cuts
      refine ⟨(c :: piece) :: pieces', cuts'.cons (accepts_of_isRun run (c :: piece)), ?_⟩
      rw [runLengths_cons_of_isRun run, runLengths_cons_of_isRun run, lengthen, List.length_cons]

theorem exists_le_of_run {rest : List Char} (of_parts : ∃ lengths,
      lengths? parts rest = some lengths ∧ lengths ≤ runLengths parts pieces) (piece : List Char) :
    ∃ lengths, lengths? (part :: parts) (piece ++ rest) = some lengths ∧
      lengths ≤ runLengths (part :: parts) (piece :: pieces) := by
  have of_others {text : List Char} {later : RunLengths} (others : lengths? parts text = some later) :
      lengths? (part :: parts) text = some (0 :: later) := by
    cases text with
    | nil => simp [lengths?_run_nil run, others]
    | cons c text => simp [lengths?_run_cons run, others]
  -- A run that ends before the piece does is shorter, whatever comes behind it.
  induction piece with
  | nil =>
    obtain ⟨later, found, least⟩ := of_parts
    refine ⟨0 :: later, of_others found, ?_⟩
    rw [runLengths_cons_of_isRun run]
    exact cons_le_cons_iff.mpr (.inr ⟨rfl, least⟩)
  | cons c piece ih =>
    obtain ⟨shorter, found, least⟩ := ih
    cases others : lengths? parts (c :: piece ++ rest) with
    | some later =>
      refine ⟨0 :: later, of_others others, ?_⟩
      rw [runLengths_cons_of_isRun run]
      exact cons_le_cons_iff.mpr (.inl (by simp))
    | none =>
      refine ⟨lengthen shorter, ?_, ?_⟩
      · rw [List.cons_append] at others ⊢
        rw [lengths?_run_cons run, others, found]
        rfl
      · rw [runLengths_cons_of_isRun run] at least ⊢
        cases shorter with
        | nil => exact nil_le _
        | cons length lengths =>
          rcases cons_le_cons_iff.mp least with less | ⟨rfl, least_rest⟩
          · exact cons_le_cons_iff.mpr (.inl (by simpa using less))
          · exact cons_le_cons_iff.mpr (.inr ⟨by simp, least_rest⟩)

end Run

/-- The lengths that are found belong to a cut. -/
theorem exists_cuts_of_lengths? {lengths : RunLengths} (found : lengths? parts text = some lengths) :
    ∃ pieces, Cuts parts pieces text ∧ runLengths parts pieces = lengths := by
  induction parts generalizing text lengths with
  | nil =>
    rw [lengths?_nil] at found
    split at found
    · next empty =>
      cases found
      exact ⟨[], cuts_nil_iff.mpr ⟨rfl, empty⟩, rfl⟩
    · cases found
  | cons part parts ih =>
    cases part with
    | literal fixed =>
      rw [lengths?_literal] at found
      split at found
      · next begins =>
        obtain ⟨rest, rfl⟩ := begins
        rw [List.drop_left] at found
        obtain ⟨pieces, cuts, rfl⟩ := ih found
        exact ⟨_, cuts.cons (.literal fixed), rfl⟩
      · cases found
    | anyChar =>
      rw [lengths?_anyChar] at found
      cases text with
      | nil => cases found
      | cons c rest =>
        obtain ⟨pieces, cuts, rfl⟩ := ih found
        exact ⟨_, cuts.cons (.anyChar c), rfl⟩
    | anyRun => exact exists_cuts_of_run rfl ih found
    | capture name => exact exists_cuts_of_run rfl ih found

/-- Whenever there is a cut, lengths are found, and none that come later in the order. -/
theorem exists_lengths?_le (cuts : Cuts parts pieces text) :
    ∃ lengths, lengths? parts text = some lengths ∧ lengths ≤ runLengths parts pieces := by
  induction parts generalizing text pieces with
  | nil =>
    obtain ⟨rfl, rfl⟩ := cuts_nil_iff.mp cuts
    exact ⟨[], rfl, le_refl []⟩
  | cons part parts ih =>
    obtain ⟨piece, pieces', rest, accepts, cuts_rest, rfl, rfl⟩ := cuts_cons_iff.mp cuts
    obtain ⟨lengths, found, least⟩ := ih cuts_rest
    cases accepts with
    | literal fixed =>
      refine ⟨lengths, ?_, least⟩
      rw [lengths?_literal, if_pos (List.prefix_append _ rest), List.drop_left, found]
    | anyChar c =>
      refine ⟨lengths, ?_, least⟩
      rw [← found]
      exact lengths?_anyChar parts (c :: rest)
    | anyRun piece => exact exists_le_of_run rfl ⟨lengths, found, least⟩ piece
    | capture name piece => exact exists_le_of_run rfl ⟨lengths, found, least⟩ piece

theorem bound_eq_captured (cuts : Cuts parts pieces text) :
    bound parts (runLengths parts pieces) text = captured parts pieces := by
  induction parts generalizing text pieces with
  | nil =>
    obtain ⟨rfl, rfl⟩ := cuts_nil_iff.mp cuts
    rfl
  | cons part parts ih =>
    obtain ⟨piece, pieces', rest, accepts, cuts_rest, rfl, rfl⟩ := cuts_cons_iff.mp cuts
    have bound_rest := ih cuts_rest
    cases accepts with
    | literal fixed =>
      show bound parts _ ((fixed.toList ++ rest).drop fixed.toList.length) = captured parts pieces'
      rw [List.drop_left]
      exact bound_rest
    | anyChar c => exact bound_rest
    | anyRun piece =>
      show bound parts _ ((piece ++ rest).drop piece.length) = captured parts pieces'
      rw [List.drop_left]
      exact bound_rest
    | capture name piece =>
      show (name, String.ofList ((piece ++ rest).take piece.length)) ::
        bound parts _ ((piece ++ rest).drop piece.length) = _
      rw [List.take_left, List.drop_left]
      exact congrArg _ bound_rest

/-- Parts match a text just when it can be cut for them. -/
theorem isSome_matchAll?_iff :
    (matchAll? parts text).isSome = true ↔ ∃ pieces, Cuts parts pieces text := by
  have same : (matchAll? parts text).isSome = (lengths? parts text).isSome := Option.isSome_map
  rw [same, Option.isSome_iff_exists]
  constructor
  · rintro ⟨lengths, found⟩
    obtain ⟨pieces, cuts, -⟩ := exists_cuts_of_lengths? found
    exact ⟨pieces, cuts⟩
  · rintro ⟨pieces, cuts⟩
    obtain ⟨lengths, found, -⟩ := exists_lengths?_le cuts
    exact ⟨lengths, found⟩

/-- What is bound are the pieces of a cut, which has the least run lengths of all cuts. -/
theorem exists_cuts_of_matchAll? {bindings : Variables}
    (found : matchAll? parts text = some bindings) :
    ∃ pieces, Cuts parts pieces text ∧ bindings = captured parts pieces ∧
      ∀ others, Cuts parts others text → runLengths parts pieces ≤ runLengths parts others := by
  obtain ⟨lengths, found_lengths, rfl⟩ := Option.map_eq_some_iff.mp found
  obtain ⟨pieces, cuts, rfl⟩ := exists_cuts_of_lengths? found_lengths
  refine ⟨pieces, cuts, bound_eq_captured cuts, fun others cuts' => ?_⟩
  obtain ⟨least, found_least, le⟩ := exists_lengths?_le cuts'
  have same : runLengths parts pieces = least := Option.some.inj (found_lengths.symm.trans found_least)
  exact same ▸ le

end HttpRouting.SegmentPart
