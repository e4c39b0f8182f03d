import HttpRouting.Text.Split
import Mathlib.Data.List.DropRight
import Mathlib.Data.List.Infix
import Mathlib.Data.List.TakeWhile

/-!
Texts that are cut at a character or a piece and joined again.
-/

set_option autoImplicit false
set_option relaxedAutoImplicit false

namespace HttpRouting.Text

variable {mark c : Char} {text piece before behind : List Char}

theorem withoutEnd?_eq_some_iff {ending front : List Char} :
    withoutEnd? ending text = some front ↔ text = front ++ ending := by
  rw [withoutEnd?, Option.map_eq_some_iff]
  constructor
  · rintro ⟨behind, found, rfl⟩
    rw [← List.reverse_inj, ← List.isPrefixOf?_eq_some_iff_append_eq.mp found]
    simp
  · rintro rfl
    refine ⟨front.reverse, List.isPrefixOf?_eq_some_iff_append_eq.mpr ?_, List.reverse_reverse _⟩
    simp

theorem withoutEnd?_eq_none_iff {ending : List Char} :
    withoutEnd? ending text = none ↔ ¬ ending <:+ text := by
  rw [Option.eq_none_iff_forall_ne_some]
  constructor
  · rintro none_fits ⟨front, rfl⟩
    exact none_fits front (withoutEnd?_eq_some_iff.mpr rfl)
  · intro differs front found
    exact differs ⟨front, (withoutEnd?_eq_some_iff.mp found).symm⟩

/-- Pieces are joined by putting the mark before each but the first. -/
theorem cons_intercalate (mark : Char) (first : List Char) (pieces : List (List Char)) :
    mark :: [mark].intercalate (first :: pieces) = (first :: pieces).flatMap (mark :: ·) := by
  induction pieces generalizing first with
  | nil => simp
  | cons next pieces ih =>
    rw [List.intercalate_cons_cons, List.flatMap_cons, ← ih next]
    simp

theorem mem_intercalate {separator : List Char} {pieces : List (List Char)}
    (member : c ∈ separator.intercalate pieces) : c ∈ separator ∨ ∃ piece ∈ pieces, c ∈ piece := by
  induction pieces with
  | nil =>
    rw [List.intercalate_nil] at member
    cases member
  | cons piece pieces ih =>
    cases pieces with
    | nil =>
      rw [List.intercalate_singleton] at member
      exact .inr ⟨piece, List.mem_cons_self, member⟩
    | cons next rest =>
      rw [List.intercalate_cons_cons, List.mem_append, List.mem_append] at member
      rcases member with (first | between) | later
      · exact .inr ⟨piece, List.mem_cons_self, first⟩
      · exact .inl between
      · rcases ih later with between | ⟨piece', listed, member⟩
        · exact .inl between
        · exact .inr ⟨piece', List.mem_cons_of_mem _ listed, member⟩

/-- A text has one piece more than marks. -/
theorem length_splitOn (mark : Char) (text : List Char) :
    (text.splitOn mark).length = text.count mark + 1 := by
  induction text with
  | nil => rfl
  | cons c text ih =>
    rw [List.splitOn_cons_eq_if_modifyHead, List.count_cons]
    split
    · rw [List.length_cons, ih]
    · rw [List.length_modifyHead, ih]

theorem of_mem_splitOn (member : piece ∈ text.splitOn mark) :
    mark ∉ piece ∧ ∀ c ∈ piece, c ∈ text := by
  induction text generalizing piece with
  | nil =>
    rw [List.splitOn_nil, List.mem_singleton] at member
    subst member
    exact ⟨nofun, nofun⟩
  | cons c text ih =>
    rw [List.splitOn_cons_eq_if_modifyHead] at member
    split at member
    · rcases List.mem_cons.mp member with rfl | later
      · exact ⟨nofun, nofun⟩
      · exact (ih later).imp_right fun within x listed => List.mem_cons_of_mem _ (within x listed)
    · next other =>
      rw [beq_iff_eq] at other
      cases split : text.splitOn mark with
      | nil => exact absurd split (List.splitOn_ne_nil mark text)
      | cons first others =>
        rw [split] at ih member
        rcases List.mem_cons.mp member with rfl | later
        · obtain ⟨free, within⟩ := ih List.mem_cons_self
          refine ⟨by simp [free, Ne.symm other], ?_⟩
          intro x listed
          rcases List.mem_cons.mp listed with rfl | listed
          · exact List.mem_cons_self
          · exact List.mem_cons_of_mem _ (within x listed)
        · obtain ⟨free, within⟩ := ih (List.mem_cons_of_mem _ later)
          exact ⟨free, fun x listed => List.mem_cons_of_mem _ (within x listed)⟩

theorem afterLast?_eq_none_iff : afterLast? mark text = none ↔ mark ∉ text := by
  induction text with
  | nil => simp [afterLast?]
  | cons c text ih =>
    rw [afterLast?, List.mem_cons, not_or, ← ih]
    cases later : afterLast? mark text with
    | some behind => simp
    | none => simp [eq_comm]

theorem afterLast?_eq_some_iff :
    afterLast? mark text = some behind ↔ mark ∉ behind ∧ ∃ front, text = front ++ mark :: behind := by
  constructor
  · intro found
    induction text with
    | nil => cases found
    | cons c text ih =>
      rw [afterLast?] at found
      cases later : afterLast? mark text with
      | some _ =>
        rw [later] at found ih
        obtain ⟨free, front, cut⟩ := ih found
        exact ⟨free, c :: front, by rw [cut, List.cons_append]⟩
      | none =>
        rw [later] at found
        by_cases here : c = mark
        · rw [if_pos here] at found
          cases found
          exact ⟨afterLast?_eq_none_iff.mp later, [], by rw [here, List.nil_append]⟩
        · rw [if_neg here] at found
          cases found
  · rintro ⟨free, front, rfl⟩
    induction front with
    | nil => rw [List.nil_append, afterLast?, afterLast?_eq_none_iff.mpr free, if_pos rfl]
    | cons c front ih => rw [List.cons_append, afterLast?, ih]

theorem upTo_eq_self (free : mark ∉ text) : upTo mark text = text := by
  refine List.takeWhile_eq_self_iff.mpr fun c listed => ?_
  rw [bne_iff_ne]
  rintro rfl
  exact free listed

theorem splitOnce?_append (free : mark ∉ before) (behind : List Char) :
    splitOnce? [mark] (before ++ mark :: behind) = some (before, behind) := by
  induction before with
  | nil => simp [splitOnce?, List.isPrefixOf?]
  | cons c before ih =>
    rw [List.mem_cons, not_or] at free
    have other : [mark].isPrefixOf? (c :: (before ++ mark :: behind)) = none :=
      if_neg (by simpa using free.1)
    rw [List.cons_append, splitOnce?, other, ih free.2]
    rfl

theorem append_of_splitOnce?_eq_some (cut : splitOnce? piece text = some (before, behind)) :
    text = before ++ piece ++ behind := by
  induction text generalizing before with
  | nil =>
    rw [splitOnce?] at cut
    split at cut
    · next empty =>
      cases cut
      rw [List.isEmpty_iff.mp empty]
      rfl
    · cases cut
  | cons c text ih =>
    rw [splitOnce?] at cut
    split at cut
    · next rest begins =>
      cases cut
      exact (List.isPrefixOf?_eq_some_iff_append_eq.mp begins).symm
    · obtain ⟨⟨first, last⟩, later, same⟩ := Option.map_eq_some_iff.mp cut
      cases same
      rw [ih later]
      rfl

/-- What stands before and behind the first mark can be read off a text. -/
theorem append_cons_inj {before' behind' : List Char} (free : mark ∉ before) (free' : mark ∉ before')
    (same : before ++ mark :: behind = before' ++ mark :: behind') :
    before = before' ∧ behind = behind' := by
  have cut := splitOnce?_append free behind
  rw [same, splitOnce?_append free'] at cut
  cases cut
  exact ⟨rfl, rfl⟩

/-- A text that holds a piece is cut at it, and no later than where it is seen to stand. -/
theorem exists_splitOnce?_of_append (front piece rest : List Char) :
    ∃ before behind, splitOnce? piece (front ++ piece ++ rest) = some (before, behind) ∧
      rest <:+ behind := by
  induction front with
  | nil =>
    cases whole : piece ++ rest with
    | nil =>
      obtain ⟨rfl, rfl⟩ := List.append_eq_nil_iff.mp whole
      exact ⟨[], [], rfl, List.suffix_rfl⟩
    | cons c text =>
      have begins : piece.isPrefixOf? (c :: text) = some rest :=
        List.isPrefixOf?_eq_some_iff_append_eq.mpr whole
      refine ⟨[], rest, ?_, List.suffix_rfl⟩
      rw [List.nil_append, whole, splitOnce?, begins]
  | cons c front ih =>
    rw [List.cons_append, List.cons_append, splitOnce?]
    cases begins : piece.isPrefixOf? (c :: (front ++ piece ++ rest)) with
    | none =>
      obtain ⟨before, behind, cut, ends⟩ := ih
      exact ⟨c :: before, behind, by rw [cut]; rfl, ends⟩
    | some behind =>
      -- Both are ends of the one text, and this one leaves no more than the piece before it.
      have whole := List.isPrefixOf?_eq_some_iff_append_eq.mp begins
      have length := congrArg List.length whole
      have ends : rest <:+ c :: (front ++ piece ++ rest) := ⟨c :: (front ++ piece), rfl⟩
      refine ⟨[], behind, rfl, List.suffix_of_suffix_length_le ends ⟨piece, whole⟩ ?_⟩
      simp only [List.length_append, List.length_cons] at length
      omega

/-- A text is cut where the piece occurs first. -/
theorem not_isInfix_of_splitOnce?_eq_some (visible : piece ≠ [])
    (cut : splitOnce? piece text = some (before, behind)) : ¬ piece <:+: before := by
  rintro ⟨front, rest, rfl⟩
  -- The piece is seen before the cut, and the text is cut no later than that.
  obtain ⟨first, later, found, ends⟩ :=
    exists_splitOnce?_of_append front piece (rest ++ piece ++ behind)
  have whole : text = front ++ piece ++ (rest ++ piece ++ behind) := by
    rw [append_of_splitOnce?_eq_some cut]
    simp only [List.append_assoc]
  rw [← whole, cut] at found
  cases found
  have length := ends.length_le
  have some_length := List.length_pos_of_ne_nil visible
  simp only [List.length_append] at length
  omega

theorem splitOnce?_eq_none_iff : splitOnce? piece text = none ↔ ¬ piece <:+: text := by
  constructor
  · rintro uncut ⟨front, rest, rfl⟩
    obtain ⟨_, _, found, -⟩ := exists_splitOnce?_of_append front piece rest
    rw [uncut] at found
    cases found
  · intro free
    cases cut : splitOnce? piece text with
    | none => rfl
    | some found =>
      obtain ⟨first, later⟩ := found
      exact absurd ⟨first, later, (append_of_splitOnce?_eq_some cut).symm⟩ free

theorem splitOnce?_eq_none (free : mark ∉ text) : splitOnce? [mark] text = none :=
  splitOnce?_eq_none_iff.mpr fun within => free ((List.singleton_infix_iff mark text).mp within)

theorem eq_append_of_splitOnce?_eq_some (cut : splitOnce? [mark] text = some (before, behind)) :
    text = before ++ mark :: behind ∧ mark ∉ before := by
  have whole : text = before ++ mark :: behind := by
    rw [append_of_splitOnce?_eq_some cut, List.append_assoc]
    rfl
  refine ⟨whole, fun member => ?_⟩
  exact not_isInfix_of_splitOnce?_eq_some (List.cons_ne_nil mark []) cut
    ((List.singleton_infix_iff mark before).mpr member)

/-- A text is cut at the first pair of two different marks. -/
theorem splitOnce?_append_pair {mark' : Char} (apart : mark ≠ mark')
    (free : ¬ [mark, mark'] <:+: before) (behind : List Char) :
    splitOnce? [mark, mark'] (before ++ mark :: mark' :: behind) = some (before, behind) := by
  induction before with
  | nil => simp [splitOnce?, List.isPrefixOf?]
  | cons c before ih =>
    -- The pair cannot lie across the end of what stands before it, as its marks differ.
    have elsewhere :
        [mark, mark'].isPrefixOf? (c :: (before ++ mark :: mark' :: behind)) = none := by
      refine Option.eq_none_iff_forall_ne_some.mpr fun rest found => ?_
      obtain ⟨rfl, same⟩ := List.cons.inj (List.isPrefixOf?_eq_some_iff_append_eq.mp found)
      cases before with
      | nil => exact apart (List.cons.inj same).1.symm
      | cons d before =>
        obtain ⟨rfl, -⟩ := List.cons.inj same
        exact free ⟨[], before, rfl⟩
    have later : ¬ [mark, mark'] <:+: before := fun within => free (List.infix_cons within)
    rw [List.cons_append, splitOnce?, elsewhere, ih later]
    rfl

/-- What a small letter becomes is no small letter. -/
theorem toUpper_toUpper (c : Char) : c.toUpper.toUpper = c.toUpper := by
  have kept {d : Char} (other : ¬('a'.val ≤ d.val ∧ d.val ≤ 'z'.val)) : d.toUpper = d := by
    delta Char.toUpper
    exact dif_neg other
  by_cases small : 'a'.val ≤ c.val ∧ c.val ≤ 'z'.val
  · apply kept
    rintro ⟨from_a, -⟩
    have value : c.toUpper.val = c.val + ('A'.val - 'a'.val) := by
      delta Char.toUpper
      rw [dif_pos small]
    have from_a' : 'a'.val.toNat ≤ c.toUpper.val.toNat := from_a
    have to_z : c.val.toNat ≤ 'z'.val.toNat := small.2
    have from_a'' : 'a'.val.toNat ≤ c.val.toNat := small.1
    rw [value, UInt32.toNat_add] at from_a'
    simp at from_a' from_a'' to_z
    omega
  · rw [kept small, kept small]

theorem upper_upper (text : String) : upper (upper text) = upper text := by
  have fixed : Char.toUpper ∘ Char.toUpper = Char.toUpper := funext toUpper_toUpper
  rw [upper, upper, String.toList_ofList, List.map_map, fixed]

/-- Only capital letters become small, each by moving 32 places on. -/
theorem toLower_cases (c : Char) :
    c.toLower = c ∨ 0x41 ≤ c.toNat ∧ c.toNat ≤ 0x5A ∧ c.toLower.toNat = c.toNat + 0x20 := by
  by_cases capital : 'A'.val ≤ c.val ∧ c.val ≤ 'Z'.val
  · right
    have from_a : 0x41 ≤ c.toNat := capital.1
    have to_z : c.toNat ≤ 0x5A := capital.2
    have value : c.toLower.val = c.val + ('a'.val - 'A'.val) := by
      delta Char.toLower
      rw [dif_pos capital]
    refine ⟨from_a, to_z, ?_⟩
    rw [← Char.toNat_val, value, UInt32.toNat_add]
    simp
    omega
  · left
    delta Char.toLower
    exact dif_neg capital

/-- Only letters change their case, so a character before the small letters comes from itself. -/
theorem eq_of_toLower_eq {d : Char} (lowered : c.toLower = d) (early : d.toNat < 0x61) : c = d := by
  rcases toLower_cases c with same | ⟨capital, -, small⟩
  · exact same.symm.trans lowered
  · rw [lowered] at small
    omega

theorem mem_of_mem_map_toLower (early : c.toNat < 0x61) (member : c ∈ text.map Char.toLower) :
    c ∈ text := by
  obtain ⟨d, listed, lowered⟩ := List.mem_map.mp member
  rwa [← eq_of_toLower_eq lowered early]

/-- Small letters bring in no piece that consists of other characters. -/
theorem isInfix_of_isInfix_map_toLower (early : ∀ c ∈ piece, c.toNat < 0x61)
    (within : piece <:+: text.map Char.toLower) : piece <:+: text := by
  obtain ⟨own, within, rfl⟩ := List.infix_map_iff.mp within
  have fixed : own.map Char.toLower = own := by
    refine (List.map_congr_left fun c member => ?_).trans (List.map_id own)
    exact (eq_of_toLower_eq rfl (early _ (List.mem_map_of_mem member))).symm
  rwa [fixed]

end HttpRouting.Text
