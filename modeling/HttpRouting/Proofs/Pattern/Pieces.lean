import HttpRouting.Pattern.Basic
import HttpRouting.Text.Split
import Mathlib.Data.List.Induction

/-!
The pieces of a path between its slashes.  How many slashes stand between two pieces, before the first
one or behind the last one does not matter, so the pieces of two texts joined by a slash are those of
the one and then those of the other.
-/

set_option autoImplicit false
set_option relaxedAutoImplicit false

namespace HttpRouting

/-- The pieces of a text between its slashes, the empty ones left out. -/
def pieces (text : List Char) : List (List Char) :=
  (text.splitOn '/').filter fun piece => !piece.isEmpty

theorem pathSegments_eq_pieces (path : String) : pathSegments path = pieces path.toList :=
  rfl

@[simp]
theorem pieces_nil : pieces [] = [] :=
  rfl

theorem pieces_append_slash (front rest : List Char) :
    pieces (front ++ '/' :: rest) = pieces front ++ pieces rest := by
  rw [pieces, List.splitOn_append_cons_self, List.filter_append]
  rfl

@[simp]
theorem pieces_slash_cons (rest : List Char) : pieces ('/' :: rest) = pieces rest :=
  pieces_append_slash [] rest

theorem pieces_of_not_mem {text : List Char} (slash_free : '/' ∉ text) (nonempty : text ≠ []) :
    pieces text = [text] := by
  rw [pieces, List.splitOn_eq_singleton slash_free]
  simp [nonempty]

/-- A text is free of slashes, or it has a first slash and a text behind it. -/
theorem slashInduction {motive : List Char → Prop}
    (slash_free : ∀ text, '/' ∉ text → motive text)
    (split : ∀ front rest, '/' ∉ front → motive rest → motive (front ++ '/' :: rest))
    (text : List Char) : motive text := by
  by_cases slash : '/' ∈ text
  · obtain ⟨front, rest, same, first⟩ := List.eq_append_cons_of_mem slash
    have shorter : rest.length < text.length := by
      rw [same, List.length_append, List.length_cons]
      omega
    rw [same]
    exact split front rest first (slashInduction slash_free split rest)
  · exact slash_free text slash
termination_by text.length

theorem mem_pieces_of_not_mem {text piece : List Char} (slash_free : '/' ∉ text) :
    piece ∈ pieces text ↔ piece = text ∧ text ≠ [] := by
  by_cases empty : text = []
  · simp [empty]
  · simp [pieces_of_not_mem slash_free empty, empty]

theorem ne_nil_and_not_mem_of_mem_pieces {text piece : List Char} (member : piece ∈ pieces text) :
    piece ≠ [] ∧ '/' ∉ piece := by
  induction text using slashInduction with
  | slash_free text slash_free =>
    obtain ⟨rfl, nonempty⟩ := (mem_pieces_of_not_mem slash_free).mp member
    exact ⟨nonempty, slash_free⟩
  | split front rest slash_free ih =>
    rw [pieces_append_slash, List.mem_append] at member
    rcases member with here | later
    · obtain ⟨rfl, nonempty⟩ := (mem_pieces_of_not_mem slash_free).mp here
      exact ⟨nonempty, slash_free⟩
    · exact ih later

/-- All characters but slashes stand in the pieces. -/
theorem exists_mem_pieces_iff {text : List Char} {c : Char} (other : c ≠ '/') :
    (∃ piece ∈ pieces text, c ∈ piece) ↔ c ∈ text := by
  have of_slash_free {text : List Char} (slash_free : '/' ∉ text) :
      (∃ piece ∈ pieces text, c ∈ piece) ↔ c ∈ text := by
    simp only [mem_pieces_of_not_mem slash_free]
    constructor
    · rintro ⟨_, ⟨rfl, -⟩, member⟩
      exact member
    · intro member
      exact ⟨text, ⟨rfl, List.ne_nil_of_mem member⟩, member⟩
  induction text using slashInduction with
  | slash_free text slash_free => exact of_slash_free slash_free
  | split front rest slash_free ih =>
    simp only [pieces_append_slash, List.mem_append, or_and_right, exists_or, ih,
      of_slash_free slash_free, List.mem_cons, other, false_or]

/-- A text that does not begin with a slash has a first piece. -/
theorem pieces_cons_ne_nil {c : Char} (other : c ≠ '/') (rest : List Char) :
    pieces (c :: rest) ≠ [] := by
  rw [pieces, List.splitOn_cons_eq_if_modifyHead, if_neg (by simpa using other)]
  cases split : rest.splitOn '/' with
  | nil => exact absurd split (List.splitOn_ne_nil '/' rest)
  | cons first others => simp

theorem pieces_dropWhile_slash (text : List Char) :
    pieces (text.dropWhile (· == '/')) = pieces text := by
  induction text with
  | nil => rfl
  | cons c rest ih =>
    by_cases slash : c = '/'
    · subst slash
      simpa using ih
    · simp [slash]

/-- Nothing is left behind the slashes at the beginning just when there are no pieces. -/
theorem dropWhile_slash_eq_nil_iff (text : List Char) :
    text.dropWhile (· == '/') = [] ↔ pieces text = [] := by
  rw [← pieces_dropWhile_slash text]
  constructor
  · intro nothing
    rw [nothing, pieces_nil]
  · intro none_left
    cases left : text.dropWhile (· == '/') with
    | nil => rfl
    | cons c rest =>
      have other : c ≠ '/' := by
        have := List.head_dropWhile_not (p := (· == '/')) (l := text) (by simp [left])
        simpa [left] using this
      exact absurd (left ▸ none_left) (pieces_cons_ne_nil other rest)

theorem pieces_dropTrailing_slash (text : List Char) :
    pieces (Text.dropTrailing '/' text) = pieces text := by
  induction text using List.reverseRecOn with
  | nil => rfl
  | append_singleton front c ih =>
    by_cases slash : c = '/'
    · subst slash
      have shorter : Text.dropTrailing '/' (front ++ ['/']) = Text.dropTrailing '/' front := by
        simp [Text.dropTrailing]
      rw [shorter, ih, pieces_append_slash, pieces_nil, List.append_nil]
    · simp [Text.dropTrailing, slash]

theorem pieces_append_flatMap (text : List Char) (texts : List (List Char)) :
    pieces (text ++ texts.flatMap ('/' :: ·)) = pieces text ++ texts.flatMap pieces := by
  induction texts generalizing text with
  | nil => simp
  | cons next rest ih =>
    rw [List.flatMap_cons, List.flatMap_cons, List.cons_append, pieces_append_slash, ih]

/-- Pieces that are put behind slashes are found again. -/
theorem pieces_flatMap_of_pieces {texts : List (List Char)}
    (proper : ∀ text ∈ texts, text ≠ [] ∧ '/' ∉ text) : pieces (texts.flatMap ('/' :: ·)) = texts := by
  have same : texts.flatMap pieces = texts := by
    induction texts with
    | nil => rfl
    | cons text rest ih =>
      obtain ⟨⟨nonempty, slash_free⟩, proper_rest⟩ := List.forall_mem_cons.mp proper
      rw [List.flatMap_cons, pieces_of_not_mem slash_free nonempty, ih proper_rest]
      rfl
  have split := pieces_append_flatMap [] texts
  rwa [List.nil_append, pieces_nil, List.nil_append, same] at split

theorem hasTrailingSlash_eq (path : String) :
    hasTrailingSlash path = (decide (1 < path.toList.length) && (path.toList.getLast? == some '/')) := by
  rw [hasTrailingSlash]
  rcases path.toList with _ | ⟨c, _ | ⟨d, rest⟩⟩
  · rfl
  · rfl
  · simp

end HttpRouting
