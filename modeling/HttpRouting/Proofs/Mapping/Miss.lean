import HttpRouting.Mapping.RouteStrategy
import HttpRouting.Proofs.Additions

/-!
The reason of a miss does not depend on the order in which the routes are gone through, except for
the order of what it lists.
-/

set_option autoImplicit false
set_option relaxedAutoImplicit false

namespace HttpRouting.RouteStrategy

section Collect

variable {α : Type} [BEq α] [LawfulBEq α]

theorem mem_collect {x : α} {lists : List (List α)} :
    x ∈ collect lists ↔ ∃ items ∈ lists, x ∈ items := by
  rw [collect, mem_additions, List.mem_flatten]
  simp

theorem nodup_collect (lists : List (List α)) : (collect lists).Nodup :=
  nodup_additions _ List.nodup_nil

/-- The order of the lists shows in the order of what is collected and in nothing else. -/
theorem collect_perm {lists lists' : List (List α)} (same : lists.Perm lists') :
    (collect lists).Perm (collect lists') := by
  refine (List.perm_ext_iff_of_nodup (nodup_collect _) (nodup_collect _)).mpr fun x => ?_
  simp only [mem_collect, same.mem_iff]

end Collect

/-- Two answers to a miss are the same up to the order of what they list. -/
inductive SameAnswer : Except MappingError (Option HandlerMethod) →
    Except MappingError (Option HandlerMethod) → Prop
  | nothing : SameAnswer (.ok none) (.ok none)
  | allowed (asked : Uuid) {declared declared' : List Method} : declared.Perm declared' →
      SameAnswer (.ok (some (.allowedMethods asked (allowText declared))))
        (.ok (some (.allowedMethods asked (allowText declared'))))
  | methodNotAllowed (method : Method) {allowed allowed' : List Method} : allowed.Perm allowed' →
      SameAnswer (.error (.methodNotAllowed method allowed))
        (.error (.methodNotAllowed method allowed'))
  | unsupportedMediaType (contentType : String) {supported supported' : List String} :
      supported.Perm supported' →
      SameAnswer (.error (.unsupportedMediaType contentType supported))
        (.error (.unsupportedMediaType contentType supported'))
  | notAcceptable {supported supported' : List String} : supported.Perm supported' →
      SameAnswer (.error (.notAcceptable supported)) (.error (.notAcceptable supported'))
  | unsatisfiedParams {conditions conditions' : List String} : conditions.Perm conditions' →
      SameAnswer (.error (.unsatisfiedParams conditions)) (.error (.unsatisfiedParams conditions'))

theorem missReason_perm (context : RequestContext) {partials partials' : List Route}
    (same : partials.Perm partials') :
    SameAnswer (missReason context partials) (missReason context partials') := by
  have methods := same.filter fun r => (Route.narrowMethods context r.methods).isSome
  have consumes := methods.filter fun r => (Route.narrowConsumes context r.consumes).isSome
  have produces := consumes.filter fun r => (Route.narrowProduces context r.produces).isSome
  simp only [missReason, methods.isEmpty_eq, consumes.isEmpty_eq, produces.isEmpty_eq,
    produces.any_eq]
  split
  · split
    · exact .allowed _ (collect_perm (same.map _))
    · exact .methodNotAllowed _ (collect_perm (same.map _))
  · split
    · exact .unsupportedMediaType _ (collect_perm (methods.map _))
    · split
      · exact .notAcceptable (collect_perm (consumes.map _))
      · split
        · exact .nothing
        · exact .unsatisfiedParams (collect_perm (produces.map _))

/-- What follows from a miss is the same in every order of the routes. -/
theorem onMiss_perm (config : MappingConfig) {routes routes' : List Route}
    (same : routes.Perm routes') (path : String) (request : Request) :
    SameAnswer (onMiss config routes path request) (onMiss config routes' path request) := by
  have partials := same.filter fun r =>
    (Route.narrowPatterns (context config request path) r.patterns).isSome
  simp only [onMiss]
  revert partials
  generalize routes.filter _ = found
  generalize routes'.filter _ = found'
  intro partials
  cases found with
  | nil =>
    rw [← partials.nil_eq]
    exact .nothing
  | cons route rest =>
    cases found' with
    | nil => cases partials.eq_nil
    | cons route' rest' => exact missReason_perm _ partials

end HttpRouting.RouteStrategy
