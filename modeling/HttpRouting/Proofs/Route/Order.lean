import HttpRouting.Proofs.Route.Built
import HttpRouting.Proofs.Sorting
import HttpRouting.Route.Order

/-!
Comparing routes for a request is a total preorder: swapping the routes swaps the answer, and being
no worse is transitive.  Each condition has a comparison of its own with this property, most of them
by a number; the whole is their lexicographic combination.
-/

set_option autoImplicit false
set_option relaxedAutoImplicit false

namespace HttpRouting

/-- Swapping turns the answer around, everything is level with itself, and being no worse is
transitive. -/
structure TotalPreorder {α : Type} (order : α → α → Ordering) : Prop where
  swap : ∀ a b, order a b = (order b a).swap
  self : ∀ a, order a a = .eq
  trans : ∀ {a b c}, order a b ≠ .gt → order b c ≠ .gt → order a c ≠ .gt

theorem TotalPreorder.of_transCmp {α : Type} {order : α → α → Ordering}
    (known : Std.TransCmp order) : TotalPreorder order where
  swap a b := Std.OrientedCmp.eq_swap
  self a := Std.ReflCmp.compare_self
  trans first second := by
    have first := Ordering.isLE_iff_ne_gt.mpr first
    have second := Ordering.isLE_iff_ne_gt.mpr second
    exact Ordering.isLE_iff_ne_gt.mp (Std.TransCmp.isLE_trans first second)

section Combinations

variable {α β : Type} {first second : α → α → Ordering}

/-- Two comparisons, the second for what the first leaves open. -/
theorem transCmp_then (before : Std.TransCmp first) (behind : Std.TransCmp second) :
    Std.TransCmp fun a b => (first a b).then (second a b) :=
  inferInstanceAs (Std.TransCmp (compareLex first second))

/-- A comparison of measures. -/
theorem transCmp_by [Ord β] [Std.TransOrd β] (measure : α → β) :
    Std.TransCmp fun a b => compare (measure a) (measure b) :=
  inferInstanceAs (Std.TransCmp (compareOn measure))

/-- A comparison of measures, the greater first. -/
theorem transCmp_byGreater [Ord β] [Std.TransOrd β] (measure : α → β) :
    Std.TransCmp fun a b => compare (measure b) (measure a) :=
  have := transCmp_by measure
  inferInstance

/-- A comparison that answers like another one. -/
theorem transCmp_congr (same : ∀ a b, first a b = second a b) (known : Std.TransCmp second) :
    Std.TransCmp first := by
  have equal : first = second := by
    funext a b
    exact same a b
  rwa [equal]

/-- A comparison of parts. -/
theorem transCmp_of_part {order : β → β → Ordering} (part : α → β) (parts : Std.TransCmp order) :
    Std.TransCmp fun a b => order (part a) (part b) where
  eq_swap := Std.OrientedCmp.eq_swap
  isLE_trans := Std.TransCmp.isLE_trans

end Combinations

instance PathPattern.transCmp_specificity (path : String) :
    Std.TransCmp (PathPattern.specificity path) :=
  transCmp_then (transCmp_byGreater fun p : PathPattern => p.isExactly path)
    (transCmp_then (transCmp_by hasCatchAll)
      (transCmp_then (transCmp_by score) (transCmp_byGreater literalLength)))

instance MediaType.transCmp_specificity : Std.TransCmp MediaType.specificity :=
  transCmp_by wildcardRank

instance Expression.transCmp_rank : Std.TransCmp Expression.rank :=
  transCmp_then (transCmp_byGreater List.length)
    (transCmp_byGreater (List.countP fun e : Expression => e.value.isSome))

namespace Route

variable (context : RequestContext)

theorem comparePatterns_eq_swap (as bs : List PathPattern) :
    comparePatterns context as bs = (comparePatterns context bs as).swap := by
  induction as generalizing bs with
  | nil => cases bs <;> rfl
  | cons a as ih =>
    cases bs with
    | nil => rfl
    | cons b bs =>
      have swapped : PathPattern.specificity context.lookupPath a b =
          (PathPattern.specificity context.lookupPath b a).swap := Std.OrientedCmp.eq_swap
      simp only [comparePatterns, Ordering.swap_then, ← ih, ← swapped]

theorem comparePatterns_isLE_trans {as bs cs : List PathPattern}
    (first : (comparePatterns context as bs).isLE = true)
    (second : (comparePatterns context bs cs).isLE = true) :
    (comparePatterns context as cs).isLE = true := by
  induction as generalizing bs cs with
  | nil =>
    cases bs with
    | nil => exact second
    | cons b bs => simp [comparePatterns] at first
  | cons a as ih =>
    cases cs with
    | nil => rfl
    | cons c cs =>
      cases bs with
      | nil => simp [comparePatterns] at second
      | cons b bs =>
        simp only [comparePatterns, Ordering.isLE_then_iff_or] at first second ⊢
        rcases first with less | ⟨equal, first⟩
        · exact .inl (Std.TransCmp.lt_of_lt_of_isLE less (by rcases second with h | h <;> simp [h]))
        · rcases second with less | ⟨equal', second⟩
          · exact .inl (Std.TransCmp.lt_of_eq_of_lt equal less)
          · exact .inr ⟨Std.TransCmp.eq_trans equal equal', ih first second⟩

instance transCmp_comparePatterns : Std.TransCmp (comparePatterns context) where
  eq_swap := comparePatterns_eq_swap context _ _
  isLE_trans := comparePatterns_isLE_trans context

/-- Whether a list of methods is a single explicit head, when the head is read. -/
def headRank (methods : List Method) : Bool :=
  methods.length = 1 && context.request.method == .head && methods.contains .head

theorem compareMethods_eq (a b : List Method) :
    compareMethods context a b =
      (compare b.length a.length).then (compare (headRank context b) (headRank context a)) := by
  by_cases lengths : b.length = a.length
  · by_cases single : a.length = 1 <;> by_cases head : context.request.method == .head <;>
      simp [compareMethods, headRank, lengths, single, head]
  · have decided : compare b.length a.length ≠ .eq := by simpa using lengths
    simp only [compareMethods, if_pos lengths]
    cases compared : compare b.length a.length <;> simp_all

instance transCmp_compareMethods : Std.TransCmp (compareMethods context) :=
  transCmp_congr (compareMethods_eq context)
    (transCmp_then (transCmp_byGreater List.length) (transCmp_byGreater (headRank context)))

/-- The rank of the first consumed type; none comes behind every type. -/
def consumesRank : List MediaExpression → Nat
  | [] => 3
  | x :: _ => x.mediaType.wildcardRank

theorem compareConsumes_eq (a b : List MediaExpression) :
    compareConsumes a b = compare (consumesRank a) (consumesRank b) := by
  have below (m : MediaType) : m.wildcardRank < 3 := by
    simp only [MediaType.wildcardRank]
    split <;> try split
    all_goals decide
  cases a with
  | nil =>
    cases b with
    | nil => rfl
    | cons y _ => exact (Nat.compare_eq_gt.mpr (below y.mediaType)).symm
  | cons x _ =>
    cases b with
    | nil => exact (Nat.compare_eq_lt.mpr (below x.mediaType)).symm
    | cons y _ => rfl

instance transCmp_compareConsumes : Std.TransCmp compareConsumes :=
  transCmp_congr compareConsumes_eq (transCmp_by consumesRank)

instance transCmp_compareProduces : Std.TransCmp (compareProduces context) :=
  transCmp_of_part (fun produces => bestProduced produces context.accepted)
    (transCmp_then (transCmp_by Prod.fst)
      (transCmp_of_part Prod.snd MediaType.transCmp_specificity))

instance transCmp_compareConditions : Std.TransCmp (compareConditions context) :=
  transCmp_then (transCmp_of_part patterns (transCmp_comparePatterns context))
    (transCmp_then (transCmp_of_part params Expression.transCmp_rank)
      (transCmp_then (transCmp_of_part headers Expression.transCmp_rank)
        (transCmp_then (transCmp_of_part consumes transCmp_compareConsumes)
          (transCmp_then (transCmp_of_part produces (transCmp_compareProduces context))
            (transCmp_of_part methods (transCmp_compareMethods context))))))

/-- Routes are totally preordered for every request. -/
instance transCmp_compareFor : Std.TransCmp (compareFor context) := by
  by_cases head : context.request.method == .head
  · exact transCmp_congr (fun a b => if_pos head)
      (transCmp_then (transCmp_of_part methods (transCmp_compareMethods context))
        (transCmp_compareConditions context))
  · exact transCmp_congr (fun a b => if_neg head) (transCmp_compareConditions context)

end Route

end HttpRouting
