import HttpRouting.Handler.Basic
import HttpRouting.Route.Basic

/-!
Handler methods and routes compare by a part of what they hold: a handler method by its bean and the
name of its method, a route by its conditions without its name.  Both comparisons are equality of
that part, and so equivalences.
-/

set_option autoImplicit false
set_option relaxedAutoImplicit false

namespace HttpRouting

variable {α β : Type} [BEq α]

/-- A comparison that is equality of a part is an equivalence. -/
theorem equivBEq_of_part (part : α → β) (same_iff : ∀ a b : α, (a == b) = true ↔ part a = part b) :
    EquivBEq α where
  rfl := (same_iff _ _).mpr rfl
  symm same := (same_iff _ _).mpr ((same_iff _ _).mp same).symm
  trans first second := (same_iff _ _).mpr (((same_iff _ _).mp first).trans ((same_iff _ _).mp second))

/-- Lists of things that compare by a part compare by the list of the parts. -/
theorem list_beq_iff_map_eq (part : α → β)
    (same_iff : ∀ a b : α, (a == b) = true ↔ part a = part b) (as bs : List α) :
    (as == bs) = true ↔ as.map part = bs.map part := by
  induction as generalizing bs with
  | nil => cases bs <;> simp
  | cons a as ih =>
    cases bs with
    | nil => simp
    | cons b bs => simp [List.cons_beq_cons, same_iff, ih]

namespace HandlerMethod

/-- What counts when handler methods are compared: the instance or the name of the bean, and the name
of the method. -/
def part (h : HandlerMethod) : (ControllerIdentity ⊕ String) × String :=
  (match h.bean with
    | .controller controller => .inl controller.identity
    | .named name => .inr name,
    h.method.name)

theorem beq_iff_part (a b : HandlerMethod) : (a == b) = true ↔ a.part = b.part := by
  obtain ⟨beanA, -, methodA, -⟩ := a
  obtain ⟨beanB, -, methodB, -⟩ := b
  change (Bean.same beanA beanB && methodA.name == methodB.name) = true ↔ _
  cases beanA <;> cases beanB <;> simp [Bean.same, part]

instance : EquivBEq HandlerMethod := equivBEq_of_part part beq_iff_part

end HandlerMethod

theorem PathPattern.beq_iff_source (a b : PathPattern) : (a == b) = true ↔ a.source = b.source := by
  change (a.source == b.source) = true ↔ _
  exact beq_iff_eq

/-- What counts when media type expressions are compared: the two names and the negation. -/
def MediaExpression.part (e : MediaExpression) : String × String × Bool :=
  (e.mediaType.mainType, e.mediaType.subtype, e.negated)

theorem MediaExpression.beq_iff_part (a b : MediaExpression) :
    (a == b) = true ↔ a.part = b.part := by
  change ((a.mediaType.mainType == b.mediaType.mainType && a.mediaType.subtype == b.mediaType.subtype)
    && a.negated == b.negated) = true ↔ _
  simp [part, and_assoc]

namespace Route

/-- The parts of the conditions of a route that count when routes are compared. -/
structure Conditions where
  patterns : List String
  methods : List Method
  params : List Expression
  headers : List Expression
  consumes : List (String × String × Bool)
  produces : List (String × String × Bool)

/-- What counts when routes are compared. -/
def conditions (r : Route) : Conditions :=
  { patterns := r.patterns.map PathPattern.source
    methods := r.methods
    params := r.params
    headers := r.headers
    consumes := r.consumes.map MediaExpression.part
    produces := r.produces.map MediaExpression.part }

theorem beq_iff_conditions (a b : Route) : (a == b) = true ↔ a.conditions = b.conditions := by
  change a.same b = true ↔ _
  simp only [same, conditions, Conditions.mk.injEq, Bool.and_eq_true, beq_iff_eq,
    list_beq_iff_map_eq PathPattern.source PathPattern.beq_iff_source,
    list_beq_iff_map_eq MediaExpression.part MediaExpression.beq_iff_part, and_assoc]

instance : EquivBEq Route := equivBEq_of_part conditions beq_iff_conditions

end Route

end HttpRouting
