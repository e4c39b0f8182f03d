import HttpRouting.Sorting
import Mathlib.Data.List.Chain
import Mathlib.Data.List.Induction
import Mathlib.Data.List.Pairwise

/-!
Sorting by a comparison that is a total preorder: the sorted list is a rearrangement in which nothing
comes before something better.  An element is the strict least of a list exactly when it comes first
and is strictly before the second.  The first of the least elements is the one that a search from the
front arrives at, whether repetitions are left out of the list or not.
-/

set_option autoImplicit false
set_option relaxedAutoImplicit false

namespace HttpRouting.Sorting

variable {α : Type} {order : α → α → Ordering}

theorem insertFromEnd_perm (order : α → α → Ordering) (x : α) (sorted : List α) :
    (insertFromEnd order x sorted).Perm (x :: sorted) := by
  induction sorted with
  | nil => exact .refl _
  | cons y before ih =>
    simp only [insertFromEnd]
    split
    · exact (ih.cons y).trans (.swap x y before)
    · exact .refl _

/-- Sorting rearranges. -/
theorem sortBy_perm (order : α → α → Ordering) (items : List α) :
    (sortBy order items).Perm items := by
  have from_sorted (sorted : List α) :
      (items.foldl (fun sorted x => insertFromEnd order x sorted) sorted).Perm (items ++ sorted) := by
    induction items generalizing sorted with
    | nil => exact .refl _
    | cons x items ih =>
      exact (ih _).trans
        (((insertFromEnd_perm order x sorted).append_left items).trans List.perm_middle)
  simpa [sortBy] using (List.reverse_perm _).trans (from_sorted [])

theorem insertFromEnd_pairwise [Std.TransCmp order] (x : α) {sorted : List α}
    (descending : sorted.Pairwise fun a b => (order b a).isLE = true) :
    (insertFromEnd order x sorted).Pairwise fun a b => (order b a).isLE = true := by
  induction sorted with
  | nil => exact List.pairwise_singleton _ _
  | cons y before ih =>
    obtain ⟨below, descending'⟩ := List.pairwise_cons.mp descending
    simp only [insertFromEnd]
    split
    · next smaller =>
      refine List.pairwise_cons.mpr ⟨?_, ih descending'⟩
      intro z member
      rcases List.mem_cons.mp ((insertFromEnd_perm order x before).mem_iff.mp member) with rfl | old
      · simp [smaller]
      · exact below z old
    · next not_smaller =>
      have above : (order y x).isLE = true := by
        rw [← Std.OrientedCmp.isGE_iff_isLE]
        cases compared : order x y <;> simp_all
      refine List.pairwise_cons.mpr ⟨?_, descending⟩
      intro z member
      rcases List.mem_cons.mp member with rfl | old
      · exact above
      · exact Std.TransCmp.isLE_trans (below z old) above

/-- In the sorted list nothing comes before something better. -/
theorem sortBy_pairwise [Std.TransCmp order] (items : List α) :
    (sortBy order items).Pairwise fun a b => (order a b).isLE = true := by
  have from_sorted (sorted : List α)
      (descending : sorted.Pairwise fun a b => (order b a).isLE = true) :
      (items.foldl (fun sorted x => insertFromEnd order x sorted) sorted).Pairwise
        fun a b => (order b a).isLE = true := by
    induction items generalizing sorted with
    | nil => exact descending
    | cons x items ih => exact ih _ (insertFromEnd_pairwise x descending)
  exact List.pairwise_reverse.mpr (from_sorted [] .nil)

section AnyComparison

variable {keeps : α → Bool}

/-- Elements of which none is strictly before another do not overtake each other. -/
theorem filter_insertFromEnd (x : α) (sorted : List α)
    (tied : ∀ a b, keeps a = true → keeps b = true → order a b ≠ .lt) :
    (insertFromEnd order x sorted).filter keeps = (x :: sorted).filter keeps := by
  induction sorted with
  | nil => rfl
  | cons y before ih =>
    rw [insertFromEnd]
    split
    · next smaller =>
      -- What is overtaken is not of the kind that stays behind.
      by_cases kept : keeps y = true
      · have other : ¬ keeps x = true := fun own => tied x y own kept smaller
        rw [List.filter_cons_of_pos kept, ih, List.filter_cons_of_neg other,
          List.filter_cons_of_neg other, List.filter_cons_of_pos kept]
      · rw [List.filter_cons_of_neg kept, ih, List.filter_cons, List.filter_cons,
          List.filter_cons_of_neg kept]
    · rfl

/-- Elements of which none is strictly before another keep their order, also where the comparison does
not order the list. -/
theorem filter_sortBy (items : List α)
    (tied : ∀ a b, keeps a = true → keeps b = true → order a b ≠ .lt) :
    (sortBy order items).filter keeps = items.filter keeps := by
  have from_sorted (sorted : List α) :
      (items.foldl (fun sorted x => insertFromEnd order x sorted) sorted).filter keeps =
        (items.filter keeps).reverse ++ sorted.filter keeps := by
    induction items generalizing sorted with
    | nil => rfl
    | cons x items ih =>
      rw [List.foldl_cons, ih, filter_insertFromEnd x sorted tied]
      by_cases kept : keeps x = true
      · rw [List.filter_cons_of_pos kept, List.filter_cons_of_pos kept, List.reverse_cons,
          List.append_assoc, List.singleton_append]
      · rw [List.filter_cons_of_neg kept, List.filter_cons_of_neg kept]
  rw [sortBy, List.filter_reverse, from_sorted [], List.filter_nil, List.append_nil,
    List.reverse_reverse]

variable [Std.OrientedCmp order]

theorem insertFromEnd_isChain (x : α) {sorted : List α}
    (descending : sorted.IsChain fun a b => order a b ≠ .lt) :
    (insertFromEnd order x sorted).IsChain fun a b => order a b ≠ .lt := by
  induction sorted with
  | nil => exact .singleton x
  | cons y before ih =>
    rw [insertFromEnd]
    split
    · next smaller =>
      have swapped : order y x = (order x y).swap := Std.OrientedCmp.eq_swap
      have behind : order y x ≠ .lt := by
        rw [swapped, smaller]
        decide
      have chain := ih (List.isChain_of_isChain_cons descending)
      cases before with
      | nil => exact .cons_cons behind chain
      | cons z before =>
        have apart : order y z ≠ .lt := (List.isChain_cons_cons.mp descending).1
        rw [insertFromEnd] at chain ⊢
        split
        · next smaller' =>
          rw [if_pos smaller'] at chain
          exact .cons_cons apart chain
        · next not_smaller =>
          rw [if_neg not_smaller] at chain
          exact .cons_cons behind chain
    · next not_smaller => exact .cons_cons not_smaller descending

/-- No element is strictly before its left neighbour, also where the comparison does not order the
list. -/
theorem sortBy_isChain (items : List α) :
    (sortBy order items).IsChain fun a b => order b a ≠ .lt := by
  have from_sorted (sorted : List α) (descending : sorted.IsChain fun a b => order a b ≠ .lt) :
      (items.foldl (fun sorted x => insertFromEnd order x sorted) sorted).IsChain
        fun a b => order a b ≠ .lt := by
    induction items generalizing sorted with
    | nil => exact descending
    | cons x items ih => exact ih _ (insertFromEnd_isChain x descending)
  exact List.isChain_reverse.mpr (from_sorted [] .nil)

end AnyComparison

/-- Two rearrangements of one list in which nothing comes before something better are equal when the
elements that tie with one another stand in one order in both. -/
theorem eq_of_ordered_of_filter_eq {before : α → α → Prop} {ties : α → α → Bool} {items others : List α}
    (rearranged : items.Perm others) (total : ∀ a ∈ items, ∀ b ∈ items,
      ¬ before a b → ¬ before b a → ties a b = true) (own : ∀ a ∈ items, ties a a = true)
    (ordered : items.Pairwise fun a b => ¬ before b a)
    (ordered' : others.Pairwise fun a b => ¬ before b a)
    (stable : ∀ a, items.filter (ties a) = others.filter (ties a)) : items = others := by
  induction items generalizing others with
  | nil => exact rearranged.nil_eq
  | cons a items ih =>
    cases others with
    | nil => exact rearranged.eq_nil
    | cons b others =>
      obtain ⟨best, behind_ordered⟩ := List.pairwise_cons.mp ordered
      obtain ⟨best', behind_ordered'⟩ := List.pairwise_cons.mp ordered'
      -- The two first elements tie, and the first of those that tie with them is the same.
      obtain rfl : a = b := by
        by_contra other
        have behind : b ∈ items :=
          (List.mem_cons.mp (rearranged.mem_iff.mpr List.mem_cons_self)).resolve_left (Ne.symm other)
        have behind' : a ∈ others :=
          (List.mem_cons.mp (rearranged.mem_iff.mp List.mem_cons_self)).resolve_left other
        have tied : ties a b = true :=
          total a List.mem_cons_self b (List.mem_cons_of_mem a behind) (best' a behind') (best b behind)
        have first := stable a
        rw [List.filter_cons_of_pos (own a List.mem_cons_self), List.filter_cons_of_pos tied] at first
        exact other (List.cons.inj first).1
      refine congrArg (a :: ·)
        (ih rearranged.cons_inv ?_ ?_ behind_ordered behind_ordered' fun c => ?_)
      · intro c listed d listed'
        exact total c (List.mem_cons_of_mem a listed) d (List.mem_cons_of_mem a listed')
      · intro c listed
        exact own c (List.mem_cons_of_mem a listed)
      · have same := stable c
        rw [List.filter_cons, List.filter_cons] at same
        split at same
        · exact (List.cons.inj same).2
        · exact same

/-- A list in order stays as it is. -/
theorem sortBy_eq_self [Std.OrientedCmp order] {items : List α}
    (ascending : items.Pairwise fun a b => (order a b).isLE = true) : sortBy order items = items := by
  have from_sorted (sorted rest : List α)
      (ascending : (sorted.reverse ++ rest).Pairwise fun a b => (order a b).isLE = true) :
      rest.foldl (fun sorted x => insertFromEnd order x sorted) sorted = rest.reverse ++ sorted := by
    induction rest generalizing sorted with
    | nil => rfl
    | cons x rest ih =>
      have behind : insertFromEnd order x sorted = x :: sorted := by
        cases sorted with
        | nil => rfl
        | cons y before =>
          have up_to : (order y x).isLE = true :=
            (List.pairwise_append.mp ascending).2.2 y (by simp) x List.mem_cons_self
          exact if_neg fun smaller => Std.OrientedCmp.not_isLE_of_lt smaller up_to
      rw [List.foldl_cons, behind, ih (x :: sorted) (by simpa using ascending), List.reverse_cons,
        List.append_assoc, List.singleton_append]
  rw [sortBy, from_sorted [] items ascending, List.append_nil, List.reverse_reverse]

theorem sortBy_eq_nil_iff {items : List α} : sortBy order items = [] ↔ items = [] := by
  constructor
  · intro none_sorted
    have rearranged := sortBy_perm order items
    rw [none_sorted] at rearranged
    exact rearranged.nil_eq.symm
  · rintro rfl
    rfl

/-- Dropping neighbouring repetitions only leaves elements out. -/
theorem dropRepeats_sublist [BEq α] (items : List α) : (dropRepeats items).Sublist items := by
  induction items with
  | nil => exact .slnil
  | cons x rest ih =>
    simp only [dropRepeats]
    split
    · exact (List.nil_sublist rest).cons_cons x
    · next y kept repeats =>
      rw [repeats] at ih
      split
      · exact ((List.sublist_cons_self y kept).trans ih).cons_cons x
      · exact ih.cons_cons x

/-- An element of a list that is strictly before every other one. -/
def StrictlyLeast (order : α → α → Ordering) (items : List α) (x : α) : Prop :=
  x ∈ items ∧ ∀ y ∈ items, y ≠ x → order x y = .lt

section Sorted

variable [Std.TransCmp order] {items rest : List α} {first second : α}

theorem isLE_first_of_sortBy_eq_cons (sorted : sortBy order items = first :: rest) {x : α}
    (member : x ∈ items) : (order first x).isLE = true := by
  have ascending : (sortBy order items).Pairwise fun a b => (order a b).isLE = true :=
    sortBy_pairwise items
  rw [sorted] at ascending
  rw [← (sortBy_perm order items).mem_iff, sorted] at member
  rcases List.mem_cons.mp member with rfl | later
  · exact Std.ReflCmp.isLE_rfl
  · exact (List.pairwise_cons.mp ascending).1 x later

theorem lt_second_of_sortBy_eq_cons (sorted : sortBy order items = first :: second :: rest)
    (untied : order first second ≠ .eq) : order first second = .lt := by
  have listed : second ∈ items := by
    rw [← (sortBy_perm order items).mem_iff, sorted]
    simp
  have up_to_second := isLE_first_of_sortBy_eq_cons sorted listed
  cases compared : order first second with
  | lt => rfl
  | eq => exact absurd compared untied
  | gt => simp [compared] at up_to_second

/-- The first of a sorted list is strictly before all behind it exactly when it does not tie with the
second. -/
theorem forall_lt_first_iff (sorted : sortBy order items = first :: second :: rest) :
    (∀ x ∈ second :: rest, order first x = .lt) ↔ order first second ≠ .eq := by
  constructor
  · intro before tied
    have less := before second List.mem_cons_self
    rw [tied] at less
    cases less
  · intro untied x behind
    have less := lt_second_of_sortBy_eq_cons sorted untied
    have ascending : (sortBy order items).Pairwise fun a b => (order a b).isLE = true :=
      sortBy_pairwise items
    rw [sorted] at ascending
    rcases List.mem_cons.mp behind with rfl | later
    · exact less
    · have up_to := (List.pairwise_cons.mp (List.pairwise_cons.mp ascending).2).1 x later
      exact Std.TransCmp.lt_of_lt_of_isLE less up_to

/-- The strict least is the first of the sorted list, when that is strictly before the second. -/
theorem strictlyLeast_iff (distinct : items.Nodup)
    (sorted : sortBy order items = first :: second :: rest) (x : α) :
    StrictlyLeast order items x ↔ x = first ∧ order first second ≠ .eq := by
  have sorted_distinct := (sortBy_perm order items).nodup_iff.mpr distinct
  rw [sorted] at sorted_distinct
  have different : second ≠ first := by
    rintro rfl
    simp at sorted_distinct
  have member (y : α) (listed : y ∈ first :: second :: rest) : y ∈ items := by
    rwa [← sorted, (sortBy_perm order items).mem_iff] at listed
  constructor
  · rintro ⟨listed, least⟩
    have is_first : x = first := by
      by_contra other
      have before := least first (member first (by simp)) (Ne.symm other)
      exact Std.OrientedCmp.not_isLE_of_lt before (isLE_first_of_sortBy_eq_cons sorted listed)
    subst is_first
    have before := least second (member second (by simp)) different
    exact ⟨rfl, by simp [before]⟩
  · rintro ⟨rfl, not_tied⟩
    refine ⟨member x (by simp), fun y listed other => ?_⟩
    rw [← (sortBy_perm order items).mem_iff, sorted] at listed
    have behind : y ∈ second :: rest := (List.mem_cons.mp listed).resolve_left other
    exact (forall_lt_first_iff sorted).mpr not_tied y behind

end Sorted

/-- The first of the least elements of a list: it is strictly before all that stand in front of it and
no worse than all behind it. -/
def FirstLeast (order : α → α → Ordering) (items : List α) (x : α) : Prop :=
  ∃ before after, items = before ++ x :: after ∧
    (∀ y ∈ before, order x y = .lt) ∧ ∀ y ∈ after, (order x y).isLE = true

namespace FirstLeast

variable {items : List α} {x y : α}

theorem mem (least : FirstLeast order items x) : x ∈ items := by
  obtain ⟨before, after, rfl, -, -⟩ := least
  exact List.mem_append_cons_self

theorem filter (keeps : α → Bool) (least : FirstLeast order items x) (kept : keeps x = true) :
    FirstLeast order (items.filter keeps) x := by
  obtain ⟨before, after, rfl, earlier, later⟩ := least
  refine ⟨before.filter keeps, after.filter keeps, ?_, ?_, ?_⟩
  · rw [List.filter_append, List.filter_cons_of_pos kept]
  · intro y member
    exact earlier y (List.mem_filter.mp member).1
  · intro y member
    exact later y (List.mem_filter.mp member).1

variable [Std.TransCmp order]

theorem isLE (least : FirstLeast order items x) (member : y ∈ items) : (order x y).isLE = true := by
  obtain ⟨before, after, rfl, earlier, later⟩ := least
  rcases List.mem_append.mp member with front | rest
  · rw [earlier y front]
    rfl
  · rcases List.mem_cons.mp rest with rfl | behind
    · exact Std.ReflCmp.isLE_rfl
    · exact later y behind

/-- A new last element takes over when it is strictly before the least so far. -/
theorem concat_of_lt (least : FirstLeast order items x) (better : order y x = .lt) :
    FirstLeast order (items ++ [y]) y := by
  refine ⟨items, [], rfl, ?_, List.forall_mem_nil _⟩
  intro z member
  exact Std.TransCmp.lt_of_lt_of_isLE better (least.isLE member)

theorem concat_of_not_lt (least : FirstLeast order items x) (no_better : order y x ≠ .lt) :
    FirstLeast order (items ++ [y]) x := by
  obtain ⟨before, after, rfl, earlier, later⟩ := least
  refine ⟨before, after ++ [y], by simp, earlier, ?_⟩
  intro z member
  rcases List.mem_append.mp member with old | new
  · exact later z old
  · rw [List.mem_singleton.mp new]
    have swapped : order x y = (order y x).swap := Std.OrientedCmp.eq_swap
    cases compared : order y x with
    | lt => exact absurd compared no_better
    | eq => simp [swapped, compared]
    | gt => simp [swapped, compared]

end FirstLeast

section First

variable {items : List α} {x y : α}

theorem firstLeast?_concat (items : List α) (y : α) : firstLeast? order (items ++ [y]) =
    some (match firstLeast? order items with
      | none => y
      | some best => if order y best = .lt then y else best) := by
  cases items with
  | nil => rfl
  | cons first rest =>
    show some (List.foldl _ first (rest ++ [y])) = _
    rw [List.foldl_append]
    rfl

theorem firstLeast?_map {β : Type} (order : β → β → Ordering) (f : α → β) (items : List α) :
    firstLeast? order (items.map f) = (firstLeast? (fun a b => order (f a) (f b)) items).map f := by
  induction items using List.reverseRecOn with
  | nil => rfl
  | append_singleton items x ih =>
    rw [List.map_append, List.map_singleton, firstLeast?_concat, firstLeast?_concat, ih]
    cases firstLeast? (fun a b => order (f a) (f b)) items with
    | none => rfl
    | some best =>
      simp only [Option.map_some]
      split <;> rfl

theorem firstLeast?_eq_none_iff : firstLeast? order items = none ↔ items = [] := by
  cases items <;> simp [firstLeast?]

variable [Std.TransCmp order]

theorem firstLeast_of_firstLeast? (found : firstLeast? order items = some x) :
    FirstLeast order items x := by
  induction items using List.reverseRecOn generalizing x with
  | nil => cases found
  | append_singleton items y ih =>
    rw [firstLeast?_concat] at found
    cases known : firstLeast? order items with
    | none =>
      rw [known] at found
      obtain rfl := Option.some.inj found
      rw [firstLeast?_eq_none_iff.mp known]
      exact ⟨[], [], rfl, List.forall_mem_nil _, List.forall_mem_nil _⟩
    | some best =>
      have least := ih known
      simp only [known, Option.some.injEq] at found
      split at found
      · next better =>
        subst found
        exact least.concat_of_lt better
      · next no_better =>
        subst found
        exact least.concat_of_not_lt no_better

theorem FirstLeast.unique (least : FirstLeast order items x) (least' : FirstLeast order items y) :
    x = y := by
  obtain ⟨before, after, rfl, earlier, later⟩ := least
  obtain ⟨before', after', same, earlier', later'⟩ := least'
  -- Whichever stands in front is no worse than the other, and the other strictly before it.
  have apart {a b : α} (behind : (order a b).isLE = true) (front : order b a = .lt) : False :=
    Std.OrientedCmp.not_isLE_of_lt front behind
  rcases List.append_eq_append_iff.mp same with ⟨between, more, rest⟩ | ⟨between, more, rest⟩
  · cases between with
    | nil => exact (List.cons.inj rest).1
    | cons z between =>
      obtain ⟨rfl, rfl⟩ := List.cons.inj rest
      exact (apart (later y (by simp)) (earlier' x (by simp [more]))).elim
  · cases between with
    | nil => exact (List.cons.inj rest).1.symm
    | cons z between =>
      obtain ⟨rfl, rfl⟩ := List.cons.inj rest
      exact (apart (later' x (by simp)) (earlier y (by simp [more]))).elim

theorem firstLeast?_eq_some_iff : firstLeast? order items = some x ↔ FirstLeast order items x := by
  constructor
  · exact firstLeast_of_firstLeast?
  · intro least
    cases found : firstLeast? order items with
    | none =>
      rw [firstLeast?_eq_none_iff.mp found] at least
      cases least.mem
    | some best => rw [(firstLeast_of_firstLeast? found).unique least]

/-- What is in a list already does not change its first least element. -/
theorem firstLeast?_concat_of_mem (member : y ∈ items) :
    firstLeast? order (items ++ [y]) = firstLeast? order items := by
  rw [firstLeast?_concat]
  cases found : firstLeast? order items with
  | none =>
    rw [firstLeast?_eq_none_iff.mp found] at member
    cases member
  | some best =>
    have least := firstLeast_of_firstLeast? found
    have no_better : order y best ≠ .lt :=
      fun better => Std.OrientedCmp.not_isLE_of_lt better (least.isLE member)
    simp only [if_neg no_better]

end First

/-- A list from which repetitions of what stands in front of them are left out, some of them or
all. -/
inductive Thinned : List α → List α → Prop
  | nil : Thinned [] []
  | concat {kept all : List α} (x : α) : Thinned kept all → Thinned (kept ++ [x]) (all ++ [x])
  | repeated {kept all : List α} {x : α} : Thinned kept all → x ∈ kept → Thinned kept (all ++ [x])

namespace Thinned

variable {kept all : List α} {x : α}

theorem mem_iff (thinned : Thinned kept all) : x ∈ kept ↔ x ∈ all := by
  induction thinned with
  | nil => exact .rfl
  | concat y _ ih => rw [List.mem_append, List.mem_append, ih]
  | repeated _ member ih =>
    rw [List.mem_append, ← ih, List.mem_singleton]
    constructor
    · exact .inl
    · rintro (old | rfl)
      · exact old
      · exact member

theorem filter (keeps : α → Bool) (thinned : Thinned kept all) :
    Thinned (kept.filter keeps) (all.filter keeps) := by
  induction thinned with
  | nil => exact .nil
  | concat y _ ih =>
    rw [List.filter_append, List.filter_append]
    cases here : keeps y with
    | true =>
      rw [List.filter_cons_of_pos here]
      exact ih.concat y
    | false =>
      rwa [List.filter_cons_of_neg (by simp [here]), List.filter_nil, List.append_nil, List.append_nil]
  | @repeated _ _ y _ member ih =>
    rw [List.filter_append]
    cases here : keeps y with
    | true =>
      rw [List.filter_cons_of_pos here]
      exact ih.repeated (List.mem_filter.mpr ⟨member, here⟩)
    | false => rwa [List.filter_cons_of_neg (by simp [here]), List.filter_nil, List.append_nil]

theorem firstLeast?_eq [Std.TransCmp order] (thinned : Thinned kept all) :
    firstLeast? order kept = firstLeast? order all := by
  induction thinned with
  | nil => rfl
  | concat y _ ih => rw [firstLeast?_concat, firstLeast?_concat, ih]
  | repeated thinned member ih =>
    rw [ih, firstLeast?_concat_of_mem (thinned.mem_iff.mp member)]

end Thinned

/-! Sorted lists without repetitions are normal forms: they are told apart by the parts that occur in
them, and by nothing else. -/
section Parts

variable {β : Type} [BEq α] {part : α → β} {items others : List α}

/-- Dropping repetitions leaves every part. -/
theorem mem_map_dropRepeats_iff (same_iff : ∀ a b : α, (a == b) = true ↔ part a = part b) {p : β} :
    p ∈ (dropRepeats items).map part ↔ p ∈ items.map part := by
  induction items with
  | nil => rfl
  | cons x rest ih =>
    rw [List.map_cons, List.mem_cons, ← ih]
    simp only [dropRepeats]
    split
    · next repeats =>
      rw [repeats]
      simp
    · next y kept repeats =>
      rw [repeats]
      split
      · next same =>
        rw [same_iff] at same
        simp [same]
      · simp

/-- Sorting and dropping repetitions leaves every part. -/
theorem mem_map_dropRepeats_sortBy_iff (same_iff : ∀ a b : α, (a == b) = true ↔ part a = part b)
    {p : β} : p ∈ (dropRepeats (sortBy order items)).map part ↔ p ∈ items.map part := by
  rw [mem_map_dropRepeats_iff same_iff, ((sortBy_perm order items).map part).mem_iff]

/-- In a sorted list without repetitions everything is strictly before what comes behind it. -/
theorem dropRepeats_pairwise_lt [Std.TransCmp order]
    (ascending : items.Pairwise fun a b => (order a b).isLE = true)
    (told : ∀ a ∈ items, ∀ b ∈ items, order a b = .eq → (a == b) = true) :
    (dropRepeats items).Pairwise fun a b => order a b = .lt := by
  induction items with
  | nil => exact .nil
  | cons x rest ih =>
    obtain ⟨up_to, ascending⟩ := List.pairwise_cons.mp ascending
    have strict := ih ascending fun a member b member' =>
      told a (List.mem_cons_of_mem x member) b (List.mem_cons_of_mem x member')
    have part_of_rest := (dropRepeats_sublist rest).subset
    simp only [dropRepeats]
    split
    · exact List.pairwise_singleton _ _
    · next y kept repeats =>
      rw [repeats] at strict part_of_rest
      -- What is kept behind `y` is strictly after it, and `x` is not after `y`.
      have listed : y ∈ rest := part_of_rest List.mem_cons_self
      obtain ⟨before, strict⟩ := List.pairwise_cons.mp strict
      have x_before {z : α} (member : z ∈ kept) : order x z = .lt :=
        Std.TransCmp.lt_of_isLE_of_lt (up_to y listed) (before z member)
      split
      · exact List.pairwise_cons.mpr ⟨fun z member => x_before member, strict⟩
      · next different =>
        refine List.pairwise_cons.mpr ⟨fun z member => ?_, List.pairwise_cons.mpr ⟨before, strict⟩⟩
        rcases List.mem_cons.mp member with rfl | later
        · have untied : order x z ≠ .eq := fun tied => different
            (told x List.mem_cons_self z (List.mem_cons_of_mem x listed) tied)
          exact Ordering.isLE_iff_eq_lt_or_eq_eq.mp (up_to z listed) |>.resolve_right untied
        · exact x_before later

/-- The order of the elements of a list as an order of their parts. -/
def PartBefore (order : α → α → Ordering) (part : α → β) (within : List α) (p q : β) : Prop :=
  ∃ a ∈ within, ∃ b ∈ within, part a = p ∧ part b = q ∧ order a b = .lt

omit [BEq α] in
theorem PartBefore.asymm [Std.TransCmp order] {within : List α}
    (told : ∀ a ∈ within, ∀ b ∈ within, order a b = .eq ↔ part a = part b) {p q : β}
    (first : PartBefore order part within p q) (second : PartBefore order part within q p) : False := by
  -- The elements stand in a circle: `a` before `b`, level with `c`, before `d`, level with `a`.
  obtain ⟨a, ha, b, hb, rfl, rfl, less⟩ := first
  obtain ⟨c, hc, d, hd, back, forth, less'⟩ := second
  have b_c : order b c = .eq := (told b hb c hc).mpr back.symm
  have d_a : order d a = .eq := (told d hd a ha).mpr forth
  have a_c : order a c = .lt := Std.TransCmp.lt_of_lt_of_eq less b_c
  have a_a : order a a = .lt := Std.TransCmp.lt_of_lt_of_eq (Std.TransCmp.lt_trans a_c less') d_a
  have self : order a a = .eq := Std.ReflCmp.compare_self
  cases self.symm.trans a_a

theorem pairwise_partBefore [Std.TransCmp order] {within : List α}
    (same_iff : ∀ a b : α, (a == b) = true ↔ part a = part b)
    (told : ∀ a ∈ within, ∀ b ∈ within, order a b = .eq ↔ part a = part b)
    (listed : ∀ a ∈ items, a ∈ within) :
    ((dropRepeats (sortBy order items)).map part).Pairwise (PartBefore order part within) := by
  have sorted {a : α} (member : a ∈ sortBy order items) : a ∈ within :=
    listed a ((sortBy_perm order items).mem_iff.mp member)
  have kept := (dropRepeats_sublist (sortBy order items)).subset
  have ascending : (sortBy order items).Pairwise fun a b => (order a b).isLE = true :=
    sortBy_pairwise items
  have strict := dropRepeats_pairwise_lt ascending fun a member b member' tied =>
    (same_iff a b).mpr ((told a (sorted member) b (sorted member')).mp tied)
  refine List.pairwise_map.mpr (strict.imp_of_mem fun {a b} member member' less => ?_)
  exact ⟨a, sorted (kept member), b, sorted (kept member'), rfl, rfl, less⟩

/-- Two lists come to the same parts exactly when the same parts occur in them, provided that the order
ties elements exactly when their parts agree. -/
theorem map_dropRepeats_sortBy_eq_iff [Std.TransCmp order]
    (same_iff : ∀ a b : α, (a == b) = true ↔ part a = part b)
    (told : ∀ a ∈ items ++ others, ∀ b ∈ items ++ others, order a b = .eq ↔ part a = part b) :
    (dropRepeats (sortBy order items)).map part = (dropRepeats (sortBy order others)).map part ↔
      ∀ p, p ∈ items.map part ↔ p ∈ others.map part := by
  have occurs (entries : List α) (p : β) :
      p ∈ (dropRepeats (sortBy order entries)).map part ↔ p ∈ entries.map part :=
    mem_map_dropRepeats_sortBy_iff same_iff
  constructor
  · intro same p
    rw [← occurs items, same, occurs others]
  · intro same
    have ordered := pairwise_partBefore same_iff told fun a => List.mem_append_left others
    have ordered' := pairwise_partBefore same_iff told fun a => List.mem_append_right items
    have distinct {parts : List β}
        (ordered : parts.Pairwise (PartBefore order part (items ++ others))) : parts.Nodup :=
      ordered.imp fun {p q} first (same : p = q) =>
        PartBefore.asymm told (same ▸ first) (same ▸ first)
    refine List.Perm.eq_of_pairwise (fun p q _ _ first second => (first.asymm told second).elim)
      ordered ordered' ((List.perm_ext_iff_of_nodup (distinct ordered) (distinct ordered')).mpr ?_)
    intro p
    rw [occurs items, same p, occurs others]

end Parts

end HttpRouting.Sorting
