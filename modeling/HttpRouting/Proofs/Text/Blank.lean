import HttpRouting.Proofs.Text.Split
import HttpRouting.Text.Blank
import Mathlib.Data.List.DropRight

/-!
Trimming stops at the first character that is not blank, from either end.  So a text stays as it is
exactly when it has no blank at an end, whatever its letters are.
-/

set_option autoImplicit false
set_option relaxedAutoImplicit false

namespace HttpRouting.Text

variable {c : Char} {rest text : List Char}

theorem trimEnd_cons (shows : isBlank c = false) : trimEnd (c :: rest) = c :: trimEnd rest := by
  rw [trimEnd, trimEnd, List.reverse_cons, List.dropWhile_append]
  split
  · next all_blank =>
    rw [List.isEmpty_iff.mp all_blank, List.dropWhile_cons_of_neg (by simp [shows])]
    rfl
  · rw [List.reverse_append]
    rfl

theorem trim_cons (shows : isBlank c = false) : trim (c :: rest) = c :: trimEnd rest := by
  rw [trim, trimStart, List.dropWhile_cons_of_neg (by simp [shows]), trimEnd_cons shows]

theorem trim_isInfix (text : List Char) : trim text <:+: text :=
  (List.rdropWhile_prefix isBlank (trimStart text)).isInfix.trans (List.dropWhile_suffix isBlank).isInfix

theorem not_isBlank_of_trim_eq_cons (begins : trim text = c :: rest) : isBlank c = false := by
  rw [trim] at begins
  have first := List.head?_dropWhile_not isBlank text
  cases started : trimStart text with
  | nil =>
    rw [started] at begins
    cases begins
  | cons d more =>
    rw [trimStart] at started
    rw [started] at first
    have shows : isBlank d = false := by simpa using first
    rw [trimStart, started, trimEnd_cons shows] at begins
    rwa [← (List.cons.inj begins).1]

theorem not_isBlank_of_mem_head?_trim (first : c ∈ (trim text).head?) : isBlank c = false := by
  obtain ⟨more, begins⟩ := List.head?_eq_some_iff.mp (Option.mem_def.mp first)
  exact not_isBlank_of_trim_eq_cons begins

theorem not_isBlank_of_mem_getLast?_trim (last : c ∈ (trim text).getLast?) : isBlank c = false := by
  have ends : (trim text).getLast? = ((trimStart text).reverse.dropWhile isBlank).head? := by
    rw [trim, trimEnd, List.getLast?_reverse]
  have stops := List.head?_dropWhile_not isBlank (trimStart text).reverse
  rw [← ends, Option.mem_def.mp last] at stops
  simpa using stops

/-- A text is trimmed when no blank stands at either end. -/
theorem trim_eq_self_iff : trim text = text ↔
    (∀ c ∈ text.head?, isBlank c = false) ∧ ∀ c ∈ text.getLast?, isBlank c = false := by
  constructor
  · intro trimmed
    rw [← trimmed]
    exact ⟨fun c => not_isBlank_of_mem_head?_trim, fun c => not_isBlank_of_mem_getLast?_trim⟩
  · rintro ⟨begins, ends⟩
    cases text with
    | nil => rfl
    | cons c rest =>
      have kept : trimEnd (c :: rest) = c :: rest := by
        refine List.rdropWhile_eq_self_iff.mpr fun nonempty => ?_
        rw [ends _ (List.getLast?_eq_some_getLast nonempty)]
        exact Bool.false_ne_true
      have shows := begins c rfl
      rw [trim_cons shows, ← trimEnd_cons shows, kept]

theorem trim_eq_self (shows : ∀ c ∈ text, isBlank c = false) : trim text = text :=
  trim_eq_self_iff.mpr ⟨fun c first => shows c (List.mem_of_mem_head? first),
    fun c last => shows c (List.mem_of_mem_getLast? last)⟩

theorem trim_trim (text : List Char) : trim (trim text) = trim text :=
  trim_eq_self_iff.mpr
    ⟨fun _ => not_isBlank_of_mem_head?_trim, fun _ => not_isBlank_of_mem_getLast?_trim⟩

/-- Two trimmed texts with a visible character between them make a trimmed text. -/
theorem trim_append_cons {before behind : List Char} (trimmed : trim before = before)
    (shows : isBlank c = false) (trimmed' : trim behind = behind) :
    trim (before ++ c :: behind) = before ++ c :: behind := by
  refine trim_eq_self_iff.mpr ⟨fun d first => ?_, fun d last => ?_⟩
  · cases before with
    | nil =>
      cases first
      exact shows
    | cons _ _ => exact (trim_eq_self_iff.mp trimmed).1 d first
  · rw [List.getLast?_append_cons] at last
    cases behind with
    | nil =>
      cases last
      exact shows
    | cons _ _ =>
      rw [List.getLast?_cons_cons] at last
      exact (trim_eq_self_iff.mp trimmed').2 d last

/-- No visible ASCII character is blank. -/
theorem not_isBlank_of_visible (from_mark : 0x21 ≤ c.toNat) (to_tilde : c.toNat ≤ 0x7E) :
    isBlank c = false := by
  simp [isBlank, blankRanges]
  omega

theorem isBlank_toLower (c : Char) : isBlank c.toLower = isBlank c := by
  rcases toLower_cases c with same | ⟨from_a, to_z, small⟩
  · rw [same]
  · rw [not_isBlank_of_visible (c := c) (by omega) (by omega),
      not_isBlank_of_visible (by omega) (by omega)]

theorem trim_map_toLower (trimmed : trim text = text) :
    trim (text.map Char.toLower) = text.map Char.toLower := by
  obtain ⟨begins, ends⟩ := trim_eq_self_iff.mp trimmed
  refine trim_eq_self_iff.mpr ⟨fun c first => ?_, fun c last => ?_⟩
  · rw [List.head?_map] at first
    obtain ⟨d, stood, rfl⟩ := Option.map_eq_some_iff.mp first
    rw [isBlank_toLower, begins d stood]
  · rw [List.getLast?_map] at last
    obtain ⟨d, stood, rfl⟩ := Option.map_eq_some_iff.mp last
    rw [isBlank_toLower, ends d stood]

end HttpRouting.Text
