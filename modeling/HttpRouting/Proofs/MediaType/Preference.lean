import HttpRouting.MediaType
import HttpRouting.Proofs.Sorting

/-!
The order of accept lists.  An entry is preferred to another one when its quality is higher, or when
the qualities are equal and it is more specific.  A quality that is no number compares with none, and
the comparison that sorts a list takes it as equal to all.  So in a list short enough to be sorted by
insertion, an entry stands in front of one that is preferred to it only where an entry with such a
quality stands between the two.
-/

set_option autoImplicit false
set_option relaxedAutoImplicit false

namespace HttpRouting

instance : Std.OrientedCmp Quality.order where
  eq_swap {a b} := by
    unfold Quality.order
    cases a.rank? with
    | none => cases b.rank? <;> rfl
    | some x =>
      cases b.rank? with
      | none => rfl
      | some y =>
        have swapped : compare x y = (compare y x).swap := Std.OrientedCmp.eq_swap
        exact swapped

theorem Quality.rank?_eq_none_iff {quality : Quality} : quality.rank? = none ↔ quality = .nan := by
  cases quality <;> simp [Quality.rank?]

theorem Quality.exists_rank? {quality : Quality} (number : quality ≠ .nan) :
    ∃ x, quality.rank? = some x :=
  Option.ne_none_iff_exists'.mp (rank?_eq_none_iff.not.mpr number)

namespace MediaType

variable {a b c m : MediaType}

/-- An entry is preferred to another one: its quality is higher, or it has the same quality and is more
specific. -/
def Preferred (a b : MediaType) : Prop :=
  ∃ x y, a.quality.rank? = some x ∧ b.quality.rank? = some y ∧
    (y < x ∨ x = y ∧ a.wildcardRank < b.wildcardRank)

/-- Two entries have one quality and are equally specific. -/
def ties (a b : MediaType) : Bool :=
  a.quality.rank?.isSome && a.quality.rank? == b.quality.rank? && a.wildcardRank == b.wildcardRank

instance : Std.OrientedCmp preference where
  eq_swap {a b} := by
    have qualities : Quality.order b.quality a.quality = (Quality.order a.quality b.quality).swap :=
      Std.OrientedCmp.eq_swap
    have levels : compare a.wildcardRank b.wildcardRank = (compare b.wildcardRank a.wildcardRank).swap :=
      Std.OrientedCmp.eq_swap
    rw [preference, preference, specificity, specificity, Ordering.swap_then, ← qualities, ← levels]

/-- Among entries whose qualities are numbers the comparison follows the preference. -/
theorem preference_eq_lt_iff {x y : Int} (quality : a.quality.rank? = some x)
    (quality' : b.quality.rank? = some y) :
    preference a b = .lt ↔ y < x ∨ x = y ∧ a.wildcardRank < b.wildcardRank := by
  rw [preference, Quality.order, quality, quality', specificity]
  simp only [Ordering.then_eq_lt, Int.compare_eq_lt, Std.compare_eq_iff_eq, Nat.compare_eq_lt,
    eq_comm (a := y)]

theorem Preferred.numbers (preferred : Preferred a b) : a.quality ≠ .nan ∧ b.quality ≠ .nan := by
  obtain ⟨x, y, quality, quality', -⟩ := preferred
  rw [Ne, Ne, ← Quality.rank?_eq_none_iff, ← Quality.rank?_eq_none_iff, quality, quality']
  exact ⟨nofun, nofun⟩

theorem Preferred.preference_eq_lt (preferred : Preferred a b) : preference a b = .lt := by
  obtain ⟨x, y, quality, quality', better⟩ := preferred
  exact (preference_eq_lt_iff quality quality').mpr better

theorem ties_iff : ties a b = true ↔
    ∃ x, a.quality.rank? = some x ∧ b.quality.rank? = some x ∧ a.wildcardRank = b.wildcardRank := by
  simp only [ties, Bool.and_eq_true, beq_iff_eq, Option.isSome_iff_exists]
  constructor
  · rintro ⟨⟨⟨x, quality⟩, same⟩, level⟩
    exact ⟨x, quality, same ▸ quality, level⟩
  · rintro ⟨x, quality, quality', level⟩
    exact ⟨⟨⟨x, quality⟩, quality.trans quality'.symm⟩, level⟩

/-- Entries that tie with a third one are not strictly before each other. -/
theorem preference_ne_lt_of_ties (first : ties m a = true) (second : ties m b = true) :
    preference a b ≠ .lt := by
  obtain ⟨x, own, quality, level⟩ := ties_iff.mp first
  obtain ⟨y, own', quality', level'⟩ := ties_iff.mp second
  obtain rfl : x = y := Option.some.inj (own.symm.trans own')
  rw [Ne, preference_eq_lt_iff quality quality']
  omega

/-- Among entries whose qualities are numbers, what is not preferred to the middle of three is not
preferred to the first. -/
theorem not_lt_trans (number : a.quality ≠ .nan) (number' : b.quality ≠ .nan)
    (number'' : c.quality ≠ .nan) (first : preference b a ≠ .lt) (second : preference c b ≠ .lt) :
    preference c a ≠ .lt := by
  obtain ⟨x, quality⟩ := Quality.exists_rank? number
  obtain ⟨y, quality'⟩ := Quality.exists_rank? number'
  obtain ⟨z, quality''⟩ := Quality.exists_rank? number''
  rw [Ne, preference_eq_lt_iff quality' quality] at first
  rw [Ne, preference_eq_lt_iff quality'' quality'] at second
  rw [Ne, preference_eq_lt_iff quality'' quality]
  omega

/-- A stretch of the sorted list in which all qualities are numbers follows the preference. -/
theorem pairwise_of_numbers {types front stretch behind : List MediaType}
    (cut : sortByPreference types = front ++ (stretch ++ behind))
    (numbers : ∀ m ∈ stretch, m.quality ≠ .nan) :
    stretch.Pairwise fun a b => ¬ Preferred b a := by
  have whole : (front ++ (stretch ++ behind)).IsChain fun a b => preference b a ≠ .lt := by
    rw [← cut]
    exact Sorting.sortBy_isChain types
  have chain : stretch.IsChain fun a b => preference b a ≠ .lt :=
    whole.right_of_append.left_of_append
  have ordered : stretch.Pairwise fun a b => preference b a ≠ .lt := by
    clear cut whole
    induction stretch with
    | nil => exact .nil
    | cons a stretch ih =>
      obtain ⟨here, later⟩ := List.forall_mem_cons.mp numbers
      have behind := ih later (List.isChain_of_isChain_cons chain)
      refine List.pairwise_cons.mpr ⟨?_, behind⟩
      intro c member
      cases stretch with
      | nil => cases member
      | cons b stretch =>
        have next : preference b a ≠ .lt := (List.isChain_cons_cons.mp chain).1
        rcases List.mem_cons.mp member with rfl | farther
        · exact next
        · have apart := (List.pairwise_cons.mp behind).1 c farther
          exact not_lt_trans here (later b List.mem_cons_self) (later c member) next apart
  exact ordered.imp fun apart preferred => apart preferred.preference_eq_lt

/-- Behind an entry and in front of one that is preferred to it, insertion leaves an entry whose quality
is no number. -/
theorem exists_nan_of_preferred {types front between behind : List MediaType}
    (cut : sortByPreference types = front ++ a :: (between ++ b :: behind))
    (preferred : Preferred b a) : ∃ m ∈ between, m.quality = .nan := by
  by_contra none_between
  have stretch : sortByPreference types = front ++ (a :: (between ++ [b]) ++ behind) := by simp [cut]
  have numbers : ∀ m ∈ a :: (between ++ [b]), m.quality ≠ .nan := by
    intro m member undefined
    rcases List.mem_cons.mp member with rfl | later
    · exact preferred.numbers.2 undefined
    · rcases List.mem_append.mp later with inside | last
      · exact none_between ⟨m, inside, undefined⟩
      · exact preferred.numbers.1 (List.mem_singleton.mp last ▸ undefined)
  have ordered := pairwise_of_numbers stretch numbers
  exact (List.pairwise_cons.mp ordered).1 b (by simp) preferred

theorem ties_of_not_preferred (number : a.quality ≠ .nan) (number' : b.quality ≠ .nan)
    (not_before : ¬ Preferred a b) (not_behind : ¬ Preferred b a) : ties a b = true := by
  obtain ⟨x, quality⟩ := Quality.exists_rank? number
  obtain ⟨y, quality'⟩ := Quality.exists_rank? number'
  have not_better : ¬ (y < x ∨ x = y ∧ a.wildcardRank < b.wildcardRank) := fun better =>
    not_before ⟨x, y, quality, quality', better⟩
  have not_worse : ¬ (x < y ∨ y = x ∧ b.wildcardRank < a.wildcardRank) := fun better =>
    not_behind ⟨y, x, quality', quality, better⟩
  obtain rfl : x = y := by omega
  exact ties_iff.mpr ⟨x, quality, quality', by omega⟩

/-- Entries whose qualities are numbers can be arranged in one way only if the preferred ones come first
and those that tie stand as they stood. -/
theorem eq_of_arranged {types others : List MediaType} (numbers : ∀ m ∈ types, m.quality ≠ .nan)
    (rearranged : types.Perm others) (ordered : types.Pairwise fun a b => ¬ Preferred b a)
    (ordered' : others.Pairwise fun a b => ¬ Preferred b a)
    (stable : ∀ m : MediaType, types.filter m.ties = others.filter m.ties) : types = others := by
  refine Sorting.eq_of_ordered_of_filter_eq rearranged ?_ ?_ ordered ordered' stable
  · intro a listed b listed' not_before not_behind
    exact ties_of_not_preferred (numbers a listed) (numbers b listed') not_before not_behind
  · intro a listed
    obtain ⟨x, quality⟩ := Quality.exists_rank? (numbers a listed)
    exact ties_iff.mpr ⟨x, quality, quality, rfl⟩

/-- For every header text that lists no more than twenty types, or types whose qualities all are numbers.
The sorted list is a rearrangement of the entries in which entries of one quality that are equally
specific stand as they stood, and where an entry stands in front of one that is preferred to it, an
entry whose quality is no number stands between the two.

When all qualities are numbers, higher ones come first and more specific types among equal ones, and no
other rearrangement is in that order and keeps the order of equal entries, so that all stable sorts
agree.  What becomes of more than twenty entries with one whose quality is no number depends on the
sort, and nothing is said of it here. -/
theorem parseList_sorted_by_preference (value : String) :
    ((parseList value).length ≤ 20 ∨ (∀ m ∈ parseList value, m.quality ≠ .nan) →
      (sortByPreference (parseList value)).Perm (parseList value) ∧
        (∀ m : MediaType,
          (sortByPreference (parseList value)).filter m.ties = (parseList value).filter m.ties) ∧
        ∀ front a between b behind,
          sortByPreference (parseList value) = front ++ a :: (between ++ b :: behind) →
          Preferred b a → ∃ m ∈ between, m.quality = .nan) ∧
    ((∀ m ∈ parseList value, m.quality ≠ .nan) →
      ((sortByPreference (parseList value)).Pairwise fun a b => ¬ Preferred b a) ∧
        ∀ others : List MediaType, others.Perm (parseList value) →
          (others.Pairwise fun a b => ¬ Preferred b a) →
          (∀ m : MediaType, others.filter m.ties = (parseList value).filter m.ties) →
          others = sortByPreference (parseList value)) := by
  generalize parseList value = types
  have rearranged : (sortByPreference types).Perm types := Sorting.sortBy_perm preference types
  have stable (m : MediaType) : (sortByPreference types).filter m.ties = types.filter m.ties :=
    Sorting.filter_sortBy types fun a b first second => preference_ne_lt_of_ties first second
  refine ⟨fun _ => ⟨rearranged, stable, ?_⟩, fun numbers => ?_⟩
  · intro front a between b behind cut preferred
    exact exists_nan_of_preferred cut preferred
  · have whole : sortByPreference types = [] ++ (sortByPreference types ++ []) := by simp
    have ordered : (sortByPreference types).Pairwise fun a b => ¬ Preferred b a :=
      pairwise_of_numbers whole fun m member => numbers m (rearranged.mem_iff.mp member)
    refine ⟨ordered, fun others rearranged' ordered' stable' => ?_⟩
    have same : others.Perm (sortByPreference types) := rearranged'.trans rearranged.symm
    exact eq_of_arranged (fun m member => numbers m (rearranged'.mem_iff.mp member)) same ordered'
      ordered fun m => (stable' m).trans (stable m).symm

/-- Two equal entries behind a wildcard, all with numbers for qualities; and a list in which an entry
without one stands in front of one of a higher quality. -/
theorem sorted_with_and_without_numbers :
    let numbered := parseList "text/*;q=0.5, text/b, text/a"
    let parted := parseList "a/a;q=0.25, a/b;q=nan, a/c;q=0.75"
    let unknown : MediaType := ⟨"a", "b", .nan⟩
    ((∀ m ∈ numbered, m.quality ≠ .nan) ∧ (sortByPreference numbered).Perm numbered ∧
        (sortByPreference numbered).Pairwise fun a b => ¬ Preferred b a) ∧
      parted.length ≤ 20 ∧ ∃ low high,
        sortByPreference parted = [] ++ low :: ([unknown] ++ high :: []) ∧
          Preferred high low ∧ ∃ m ∈ [unknown], m.quality = .nan := by
  intro numbered parted unknown
  have numbers : ∀ m ∈ numbered, m.quality ≠ .nan := by decide +kernel
  have few : parted.length ≤ 20 := by decide +kernel
  obtain ⟨arranged, inOrder⟩ := parseList_sorted_by_preference "text/*;q=0.5, text/b, text/a"
  obtain ⟨-, -, apart⟩ := (parseList_sorted_by_preference "a/a;q=0.25, a/b;q=nan, a/c;q=0.75").1 (.inl few)
  let low : MediaType := ⟨"a", "a", .number false 0x3E800000⟩
  let high : MediaType := ⟨"a", "c", .number false 0x3F400000⟩
  have cut : sortByPreference parted = [] ++ low :: ([unknown] ++ high :: []) := by
    decide +kernel
  have preferred : Preferred high low := ⟨_, _, rfl, rfl, .inl (by decide)⟩
  exact ⟨⟨numbers, (arranged (.inr numbers)).1, (inOrder numbers).1⟩, few, low, high, cut, preferred,
    apart _ _ _ _ _ cut preferred⟩

/-- A lower quality stays in front of a higher one behind a quality that is no number. -/
theorem lower_quality_in_front_of_higher :
    let sorted := sortByPreference (parseList "a/a;q=0.1,a/b;q=nan,a/c;q=0.9")
    sorted.map text = ["a/a", "a/b", "a/c"] ∧ ¬ sorted.Pairwise fun a b => ¬ Preferred b a := by
  intro sorted
  refine ⟨by decide +kernel, fun ordered => ?_⟩
  have entries : sorted = [⟨"a", "a", .number false 0x3DCCCCCD⟩, ⟨"a", "b", .nan⟩,
      ⟨"a", "c", .number false 0x3F666666⟩] := by decide +kernel
  rw [entries] at ordered
  exact (List.pairwise_cons.mp ordered).1 ⟨"a", "c", .number false 0x3F666666⟩ (by simp)
    ⟨_, _, rfl, rfl, .inl (by decide)⟩

end MediaType

end HttpRouting
