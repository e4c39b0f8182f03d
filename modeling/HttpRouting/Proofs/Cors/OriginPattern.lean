import HttpRouting.Cors.Config
import HttpRouting.Proofs.Text.Split

/-!
Patterns of origins.  An asterisk stands for any text and every other character for itself.  An origin
is cut from left to right, at the first place where each piece of the pattern stands; nothing is lost
thereby, because what an earlier cut leaves over belongs to the next asterisk.
-/

set_option autoImplicit false
set_option relaxedAutoImplicit false

namespace HttpRouting.CorsConfig

/-- The texts that a pattern stands for: some text is put in the place of each asterisk, and every
other character stays. -/
inductive StandsFor : List Char → List Char → Prop
  | nil : StandsFor [] []
  | asterisk {pattern text : List Char} (run : List Char) : StandsFor pattern text →
      StandsFor ('*' :: pattern) (run ++ text)
  | char {c : Char} {pattern text : List Char} : c ≠ '*' → StandsFor pattern text →
      StandsFor (c :: pattern) (c :: text)

namespace StandsFor

variable {pattern piece text : List Char}

theorem nil_iff : StandsFor [] text ↔ text = [] := by
  constructor
  · intro stands
    cases stands
    rfl
  · rintro rfl
    exact .nil

theorem asterisk_iff :
    StandsFor ('*' :: pattern) text ↔ ∃ run rest, text = run ++ rest ∧ StandsFor pattern rest := by
  constructor
  · intro stands
    cases stands with
    | asterisk run later => exact ⟨run, _, rfl, later⟩
    | char other => exact absurd rfl other
  · rintro ⟨run, rest, rfl, stands⟩
    exact .asterisk run stands

theorem append_iff (plain : '*' ∉ piece) :
    StandsFor (piece ++ pattern) text ↔ ∃ rest, text = piece ++ rest ∧ StandsFor pattern rest := by
  induction piece generalizing text with
  | nil => simp
  | cons c piece ih =>
    rw [List.mem_cons, not_or] at plain
    constructor
    · intro stands
      cases stands with
      | asterisk => exact absurd rfl plain.1
      | char _ later =>
        obtain ⟨rest, rfl, stands⟩ := (ih plain.2).mp later
        exact ⟨rest, rfl, stands⟩
    · rintro ⟨rest, rfl, stands⟩
      exact .char (Ne.symm plain.1) ((ih plain.2).mpr ⟨rest, rfl, stands⟩)

theorem plain_iff (plain : '*' ∉ pattern) : StandsFor pattern text ↔ text = pattern := by
  have whole : StandsFor (pattern ++ []) text ↔ ∃ rest, text = pattern ++ rest ∧ StandsFor [] rest :=
    append_iff plain
  simpa only [List.append_nil, nil_iff, exists_eq_right] using whole

theorem asterisk_append_iff (plain : '*' ∉ piece) :
    StandsFor ('*' :: (piece ++ pattern)) text ↔
      ∃ run rest, text = run ++ piece ++ rest ∧ StandsFor pattern rest := by
  simp only [asterisk_iff, append_iff plain]
  constructor
  · rintro ⟨run, _, rfl, rest, rfl, stands⟩
    exact ⟨run, rest, (List.append_assoc ..).symm, stands⟩
  · rintro ⟨run, rest, rfl, stands⟩
    exact ⟨run, _, List.append_assoc .., rest, rfl, stands⟩

/-- Text that comes before belongs to what the asterisk stands for. -/
theorem of_suffix {rest : List Char} (stands : StandsFor ('*' :: pattern) rest)
    (ends : rest <:+ text) : StandsFor ('*' :: pattern) text := by
  obtain ⟨more, rfl⟩ := ends
  obtain ⟨run, behind, rfl, later⟩ := asterisk_iff.mp stands
  exact asterisk_iff.mpr ⟨more ++ run, behind, (List.append_assoc ..).symm, later⟩

end StandsFor

theorem piecesMatch_cons_cons (piece next : List Char) (pieces : List (List Char))
    (text : List Char) : piecesMatch (piece :: next :: pieces) text = true ↔
      ∃ before behind, Text.splitOnce? piece text = some (before, behind) ∧
        piecesMatch (next :: pieces) behind = true := by
  rcases cut : Text.splitOnce? piece text with _ | ⟨before, behind⟩ <;> simp [piecesMatch, cut]

/-- Pieces match a text when they stand in it in order, with any text before each. -/
theorem piecesMatch_iff {pieces : List (List Char)} (plain : ∀ piece ∈ pieces, '*' ∉ piece)
    {text : List Char} :
    piecesMatch pieces text = true ↔ StandsFor (pieces.flatMap ('*' :: ·)) text := by
  induction pieces generalizing text with
  | nil => rw [piecesMatch, List.isEmpty_iff, List.flatMap_nil, StandsFor.nil_iff]
  | cons piece pieces ih =>
    obtain ⟨plain_here, plain_rest⟩ := List.forall_mem_cons.mp plain
    rw [List.flatMap_cons, List.cons_append, StandsFor.asterisk_append_iff plain_here]
    cases pieces with
    | nil =>
      simp only [piecesMatch, Option.isSome_iff_exists, Text.withoutEnd?_eq_some_iff,
        List.flatMap_nil, StandsFor.nil_iff, exists_eq_right, List.append_nil]
    | cons next pieces =>
      rw [piecesMatch_cons_cons]
      constructor
      · rintro ⟨before, behind, cut, matched⟩
        exact ⟨before, behind, Text.append_of_splitOnce?_eq_some cut, (ih plain_rest).mp matched⟩
      · -- The piece may stand at several places; what is behind any of them ends what is behind the
        -- first, and the next asterisk takes up what comes before.
        rintro ⟨run, rest, rfl, stands⟩
        obtain ⟨before, behind, cut, ends⟩ := Text.exists_splitOnce?_of_append run piece rest
        exact ⟨before, behind, cut, (ih plain_rest).mpr (stands.of_suffix ends)⟩

variable {pattern origin : String}

theorem originFits_of_pieces (particular : pattern ≠ wildcard) {first : List Char}
    {pieces : List (List Char)} (cut : pattern.toList.splitOn '*' = first :: pieces) :
    originFits pattern origin = true ↔
      ∃ rest, origin.toList = first ++ rest ∧ piecesMatch pieces rest = true := by
  rw [originFits, cut, Bool.or_eq_true, beq_iff_eq, or_iff_right particular]
  constructor
  · intro fits
    cases begins : first.isPrefixOf? origin.toList with
    | none => simp [begins] at fits
    | some rest =>
      simp only [begins] at fits
      exact ⟨rest, (List.isPrefixOf?_eq_some_iff_append_eq.mp begins).symm, fits⟩
  · rintro ⟨rest, whole, matched⟩
    simpa only [List.isPrefixOf?_eq_some_iff_append_eq.mpr whole.symm] using matched

theorem originFits_wildcard (origin : String) : originFits wildcard origin = true :=
  rfl

theorem originFits_iff :
    originFits pattern origin = true ↔ StandsFor pattern.toList origin.toList := by
  by_cases whole : pattern = wildcard
  · subst whole
    have stands : StandsFor wildcard.toList (origin.toList ++ []) := .asterisk origin.toList .nil
    rw [List.append_nil] at stands
    exact iff_of_true (originFits_wildcard origin) stands
  · cases cut : pattern.toList.splitOn '*' with
    | nil => exact absurd cut (List.splitOn_ne_nil '*' pattern.toList)
    | cons first pieces =>
      have plain (piece : List Char) (listed : piece ∈ first :: pieces) : '*' ∉ piece :=
        (Text.of_mem_splitOn (cut ▸ listed)).1
      obtain ⟨plain_first, plain_rest⟩ := List.forall_mem_cons.mp plain
      have made : pattern.toList = first ++ pieces.flatMap ('*' :: ·) := by
        have marked := Text.cons_intercalate '*' first pieces
        rw [← cut, List.intercalate_splitOn, cut] at marked
        exact List.tail_eq_of_cons_eq marked
      rw [originFits_of_pieces whole cut, made, StandsFor.append_iff plain_first]
      simp only [piecesMatch_iff plain_rest]

/-- An origin fits a pattern exactly when it comes of the pattern by putting some text in the place of
each asterisk; so a pattern without asterisks fits nothing but itself. -/
theorem originFits_iff_standsFor (pattern origin : String) :
    (originFits pattern origin = true ↔ StandsFor pattern.toList origin.toList) ∧
      ('*' ∉ pattern.toList → (originFits pattern origin = true ↔ origin = pattern)) := by
  refine ⟨originFits_iff, fun plain => ?_⟩
  rw [originFits_iff, StandsFor.plain_iff plain, String.toList_inj]

/-- The pieces of a pattern must not overlap in the origin, and the first of them may stand in it more
than once. -/
theorem originFits_two_pieces :
    StandsFor "https://*.b*.b.example".toList "https://a.b.b.b.example".toList ∧
      ¬ StandsFor "https://*.b*.b.example".toList "https://a.b.example".toList ∧
      '*' ∉ "https://a.example".toList ∧
      (originFits "https://a.example" "https://a.example/" = true ↔
        "https://a.example/" = "https://a.example") := by
  have fits : originFits "https://*.b*.b.example" "https://a.b.b.b.example" = true := by
    decide +kernel
  have overlap : originFits "https://*.b*.b.example" "https://a.b.example" ≠ true := by
    decide +kernel
  have plain : '*' ∉ "https://a.example".toList := by decide +kernel
  exact ⟨(originFits_iff_standsFor _ _).1.mp fits,
    fun stands => overlap ((originFits_iff_standsFor _ _).1.mpr stands), plain,
    (originFits_iff_standsFor _ _).2 plain⟩

end HttpRouting.CorsConfig
