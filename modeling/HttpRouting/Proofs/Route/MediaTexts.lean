import HttpRouting.Proofs.Equality
import HttpRouting.Proofs.Outcome
import HttpRouting.Proofs.Text.Blank
import HttpRouting.Proofs.Text.Split
import Mathlib.Data.List.Basic

/-!
The texts of media type expressions.  The names that are read hold no slash, and a main type that is
not negated does not begin with the mark of a negation, so an expression that was read can be told from
its text.
-/

set_option autoImplicit false
set_option relaxedAutoImplicit false

namespace HttpRouting

namespace MediaType

/-- Both names of a media type are there, without a slash, and they begin where the text does. -/
theorem of_names? {essence mainType subtype : List Char}
    (named : names? essence = some (mainType, subtype)) :
    '/' ∉ mainType ∧ '/' ∉ subtype ∧ ∃ c, essence.head? = some c ∧ mainType.head? = some c := by
  rw [names?] at named
  split at named
  · cases named
  · next first second cut =>
    obtain ⟨written, free⟩ := Text.eq_append_of_splitOnce?_eq_some cut
    split at named
    · cases named
    · next complete =>
      split at named
      · cases named
      · cases named
        simp only [Bool.or_eq_true, List.isEmpty_iff, List.contains_iff_mem, not_or] at complete
        refine ⟨free, complete.2, ?_⟩
        obtain ⟨c, rest, rfl⟩ := List.exists_cons_of_ne_nil complete.1.1
        refine ⟨c, ?_, rfl⟩
        split at written
        · next star =>
          rw [star, ← (List.cons.inj written).1]
          rfl
        · rw [written]
          rfl

theorem of_parse {value : String} {m : MediaType} (read : parse value = .ok m) :
    ∃ essence parameters mainType subtype, value.toList.splitOn ';' = essence :: parameters ∧
      names? (Text.trim essence) = some (mainType, subtype) ∧
      m.mainType.toList = mainType.map Char.toLower ∧
      m.subtype.toList = subtype.map Char.toLower := by
  rw [parse] at read
  split at read
  · cases read
  · next essence parameters pieces =>
    split at read
    · next mainType subtype _ named _ =>
      cases read
      exact ⟨essence, parameters, mainType, subtype, pieces, named, by simp [Text.lower],
        by simp [Text.lower]⟩
    · cases read

theorem names_of_parse {value : String} {m : MediaType} (read : parse value = .ok m) :
    '/' ∉ m.mainType.toList ∧ '/' ∉ m.subtype.toList ∧ ∃ c, m.mainType.toList.head? = some c := by
  have lowered {name : List Char} (free : '/' ∉ name) : '/' ∉ name.map Char.toLower :=
    fun member => free (Text.mem_of_mem_map_toLower (by decide) member)
  obtain ⟨_, _, mainType, subtype, -, named, main, sub⟩ := of_parse read
  obtain ⟨free, free', c, -, begins⟩ := of_names? named
  rw [main, sub]
  exact ⟨lowered free, lowered free', c.toLower, by rw [List.head?_map, begins]; rfl⟩

/-- A text that begins with a visible character is read as a main type that begins with it. -/
theorem head?_mainType_of_parse {value : String} {m : MediaType} (read : parse value = .ok m)
    (shows : ∀ c, value.toList.head? = some c → Text.isBlank c = false) :
    ∃ c, value.toList.head? = some c ∧ m.mainType.toList.head? = some c.toLower := by
  obtain ⟨essence, parameters, mainType, subtype, pieces, named, main, -⟩ := of_parse read
  obtain ⟨-, -, c, begins, begins'⟩ := of_names? named
  have first : m.mainType.toList.head? = some c.toLower := by rw [main, List.head?_map, begins']; rfl
  refine ⟨c, ?_, first⟩
  -- Neither the cut at semicolons nor the trimming takes a visible first character away.
  cases text : value.toList with
  | nil =>
    rw [text, List.splitOn_nil] at pieces
    cases pieces
    cases begins
  | cons d rest =>
    rw [text, List.splitOn_cons_eq_if_modifyHead] at pieces
    split at pieces
    · cases pieces
      cases begins
    · cases later : rest.splitOn ';' with
      | nil => exact absurd later (List.splitOn_ne_nil _ _)
      | cons piece others =>
        rw [later] at pieces
        cases pieces
        rw [Text.trim_cons (shows d (by rw [text]; rfl))] at begins
        exact begins

end MediaType

namespace MediaExpression

/-- What the names of an expression that was read are like: they hold no slash, and the main type does
not pass for a negation. -/
structure Legible (e : MediaExpression) : Prop where
  mainType : '/' ∉ e.mediaType.mainType.toList
  subtype : '/' ∉ e.mediaType.subtype.toList
  begins : ∃ c, e.mediaType.mainType.toList.head? = some c ∧ (e.negated = false → c ≠ '!')

theorem legible_of_parse {text : String} {e : MediaExpression} (read : parse text = .ok e) :
    e.Legible := by
  rw [parse] at read
  split at read
  · obtain ⟨m, type, rfl⟩ := Outcome.map_eq_ok_iff.mp read
    obtain ⟨main, sub, c, begins⟩ := MediaType.names_of_parse type
    exact ⟨main, sub, c, begins, nofun⟩
  · next unmarked =>
    obtain ⟨m, type, rfl⟩ := Outcome.map_eq_ok_iff.mp read
    obtain ⟨main, sub, -⟩ := MediaType.names_of_parse type
    have begins_trimmed {c : Char}
        (first : (String.ofList (Text.trim text.toList)).toList.head? = some c) :
        ∃ more, Text.trim text.toList = c :: more :=
      List.head?_eq_some_iff.mp (by rwa [String.toList_ofList] at first)
    obtain ⟨c, first, begins⟩ := MediaType.head?_mainType_of_parse type fun c first =>
      (begins_trimmed first).elim fun _ => Text.not_isBlank_of_trim_eq_cons
    refine ⟨main, sub, c.toLower, begins, fun _ lowered => ?_⟩
    have mark : c = '!' := Text.eq_of_toLower_eq lowered (by decide)
    obtain ⟨more, marked⟩ := begins_trimmed first
    rw [mark] at marked
    exact unmarked more marked

/-- The text of an expression: the mark of a negation, and the names joined by a slash. -/
theorem toList_text (e : MediaExpression) : e.text.toList =
    (if e.negated then ['!'] else []) ++
      (e.mediaType.mainType.toList ++ '/' :: e.mediaType.subtype.toList) := by
  obtain ⟨mediaType, negated⟩ := e
  cases negated <;> simp [text, MediaType.text]

/-- The two names can be read off their text. -/
theorem Legible.names_eq {a b : MediaExpression} (read : a.Legible)
    (same : a.mediaType.mainType.toList ++ '/' :: a.mediaType.subtype.toList =
      b.mediaType.mainType.toList ++ '/' :: b.mediaType.subtype.toList) :
    a.mediaType.mainType = b.mediaType.mainType ∧ a.mediaType.subtype = b.mediaType.subtype := by
  obtain ⟨main, -, sub⟩ := (List.append_cons_inj_of_notMem read.mainType read.subtype).mp same
  exact ⟨String.toList_injective main, String.toList_injective sub⟩

/-- What is not negated does not pass for a negation. -/
theorem Legible.not_marked {e : MediaExpression} (read : e.Legible) (plain : e.negated = false)
    (rest : List Char) :
    e.mediaType.mainType.toList ++ '/' :: e.mediaType.subtype.toList ≠ '!' :: rest := by
  obtain ⟨c, begins, unmarked⟩ := read.begins
  obtain ⟨more, begins⟩ := List.head?_eq_some_iff.mp begins
  rw [begins]
  intro same
  exact unmarked plain (List.cons.inj same).1

/-- Expressions that were read are told apart by their texts. -/
theorem Legible.text_eq_iff {a b : MediaExpression} (read : a.Legible) (read' : b.Legible) :
    a.text = b.text ↔ a.part = b.part := by
  simp only [part, Prod.mk.injEq]
  constructor
  · intro same
    have same := congrArg String.toList same
    rw [toList_text, toList_text] at same
    cases negated : a.negated <;> cases negated' : b.negated <;> rw [negated, negated'] at same
    · obtain ⟨main, sub⟩ := read.names_eq same
      exact ⟨main, sub, rfl⟩
    · exact absurd same (read.not_marked negated _)
    · exact absurd same.symm (read'.not_marked negated' _)
    · obtain ⟨main, sub⟩ := read.names_eq (List.cons.inj same).2
      exact ⟨main, sub, rfl⟩
  · rintro ⟨main, sub, negations⟩
    simp [text, MediaType.text, main, sub, negations]

end MediaExpression

end HttpRouting
