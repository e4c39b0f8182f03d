import HttpRouting.Proofs.Mapping.Selection

/-!
Reading the head of a resource.  A registration that declares the head is better than one that is
found for its get only, since the methods are compared before all else.  The exact path goes before
this: when a registration under it matches, those under other paths are not looked at.
-/

set_option autoImplicit false
set_option relaxedAutoImplicit false

namespace HttpRouting

theorem Request.isPreflight_of_head {request : Request} (head : request.method = .head) :
    request.isPreflight = false := by
  have other : (request.method == .options) = false := by
    rw [head]
    decide
  rw [isPreflight, other, Bool.false_and, Bool.false_and]

namespace Route

variable {context : RequestContext} {route other narrowed narrowed' : Route}

theorem methodAsked?_of_head {request : Request} (head : request.method = .head) :
    Cors.methodAsked? request = some .head := by
  rw [Cors.methodAsked?, Request.isPreflight_of_head head, if_neg Bool.false_ne_true, head]

/-- A declared head is what is left of the methods when the head is read. -/
theorem narrowed_methods_of_declared_head (head : context.request.method = .head)
    (declared : Method.head ∈ route.methods) (narrows : route.narrow context = some narrowed) :
    narrowed.methods = [.head] := by
  have left := narrowMethods_eq_some_iff.mp (narrow_methods narrows)
  generalize narrowed.methods = kept at left ⊢
  cases left with
  | all none_declared =>
    rw [none_declared] at declared
    cases declared
  | asked asks _ => rw [Option.some.inj (asks.symm.trans (methodAsked?_of_head head))]
  | byGet _ undeclared _ => exact absurd declared undeclared

/-- Without a declared head nothing is left of the methods, or the get that stands in for it. -/
theorem narrowed_methods_of_undeclared_head (head : context.request.method = .head)
    (undeclared : Method.head ∉ route.methods) (narrows : route.narrow context = some narrowed) :
    narrowed.methods = [] ∨ narrowed.methods = [.get] := by
  have left := narrowMethods_eq_some_iff.mp (narrow_methods narrows)
  generalize narrowed.methods = kept at left ⊢
  cases left with
  | all _ => exact .inl rfl
  | asked asks declared =>
    rw [Option.some.inj (asks.symm.trans (methodAsked?_of_head head))] at declared
    exact absurd declared undeclared
  | byGet _ _ _ => exact .inr rfl

/-- When the head is read, a route that declares it comes before one that does not. -/
theorem compareFor_eq_lt_of_declared_head (head : context.request.method = .head)
    (declared : Method.head ∈ route.methods) (undeclared : Method.head ∉ other.methods)
    (narrows : route.narrow context = some narrowed)
    (narrows' : other.narrow context = some narrowed') :
    compareFor context narrowed narrowed' = .lt := by
  have reads : (context.request.method == .head) = true := by simp [head]
  have methods : compareMethods context narrowed.methods narrowed'.methods = .lt := by
    rw [narrowed_methods_of_declared_head head declared narrows]
    rcases narrowed_methods_of_undeclared_head head undeclared narrows' with none_left | get_left
    · rw [none_left]
      rfl
    · rw [get_left, compareMethods, reads]
      decide
  rw [compareFor, if_pos reads, methods]
  rfl

end Route

/-- The route of a candidate declares the head. -/
def Candidate.DeclaresHead (c : Candidate Route) : Prop :=
  Method.head ∈ c.registration.mapping.methods

namespace MethodMapping

variable {m : MethodMapping Route} {config : MappingConfig} {request : Request}
  {c d : Candidate Route}

theorem rank_eq_lt_of_declaresHead (routes : m.strategy = RouteStrategy.strategy config)
    (head : request.method = .head) (fits : m.Fits request c) (fits' : m.Fits request d)
    (declares : c.DeclaresHead) (lacks : ¬ d.DeclaresHead) : m.rank request c d = .lt := by
  have narrows := fits.narrows
  have narrows' := fits'.narrows
  simp only [rank]
  simp only [routes] at narrows narrows' ⊢
  exact Route.compareFor_eq_lt_of_declared_head head declares lacks narrows narrows'

/-- The best candidate declares the head when any candidate does. -/
theorem StrictBest.declaresHead [Std.TransCmp (m.rank request)]
    (routes : m.strategy = RouteStrategy.strategy config) (head : request.method = .head)
    (best : m.StrictBest request c) (eligible : m.Eligible request d) (declares : d.DeclaresHead) :
    c.DeclaresHead := by
  by_contra lacks
  have different : d ≠ c := by
    rintro rfl
    exact lacks declares
  have before := best.2 d eligible different
  have behind := rank_eq_lt_of_declaresHead routes head eligible.fits best.1.fits declares lacks
  exact Std.OrientedCmp.not_lt_of_lt before behind

/-- A handler that a look-up answers with, when a registration matches, is that of the best
candidate. -/
theorem exists_best_of_lookupIn {exchange : Exchange} {order : List Route}
    (routes : m.strategy = RouteStrategy.strategy config) (consistent : m.registry.Consistent)
    (enumerated : order.Perm m.registry.keys) (fits : m.Fits exchange.request d)
    (actual : exchange.request.isPreflight = false) {handler : HandlerMethod}
    (found : (m.lookupIn order exchange).2 = .ok (some handler)) :
    ∃ c, m.StrictBest exchange.request c ∧ m.selectIn exchange.request order = .best c ∧
      handler = c.registration.handler := by
  have := transCmp_rank routes exchange.request
  have selects : m.Selects exchange.request order (m.selectIn exchange.request order) :=
    selects_selectIn consistent enumerated
  simp only [lookupIn] at found
  generalize m.selectIn exchange.request order = selected at selects found ⊢
  cases selects with
  | miss none_fits => exact absurd fits (none_fits d)
  | @best c strict => exact ⟨c, strict, rfl, (Option.some.inj (Except.ok.inj found)).symm⟩
  | ambiguousPreflight _ _ answers => exact absurd answers.1 (by simp [actual])
  | ambiguous _ _ _ => cases found

/-- For every history of a mapping of routes, every order in which the keys are tried and every request
that reads the head: when a matching registration declares the head, then a registration that does
not, be it found for its get or for having no methods, is selected only if it stands under the exact
path and nothing that matches there declares the head. -/
theorem lookupIn_explicit_head (m : MethodMapping Route) (config : MappingConfig)
    (calls : List (RegistryCall Route)) (routes : m.strategy = RouteStrategy.strategy config)
    (history : m.registry = Registry.reached m.naming calls) (exchange : Exchange)
    (order : List Route) (enumerated : order.Perm m.registry.keys)
    (head : exchange.request.method = .head) (explicit : Candidate Route)
    (fits : m.Fits exchange.request explicit) (declares : explicit.DeclaresHead) :
    ∀ handler, (m.lookupIn order exchange).2 = .ok (some handler) →
      ∃ c, m.selectIn exchange.request order = .best c ∧ handler = c.registration.handler ∧
        (c.DeclaresHead ∨ m.Direct exchange.request c ∧
          ∀ d, m.Fits exchange.request d → d.DeclaresHead → ¬ m.Direct exchange.request d) := by
  intro handler found
  have := transCmp_rank routes exchange.request
  have consistent : m.registry.Consistent := history ▸ Registry.reached_consistent m.naming calls
  obtain ⟨c, best, selected, own⟩ := exists_best_of_lookupIn routes consistent enumerated fits
    (Request.isPreflight_of_head head) found
  refine ⟨c, selected, own, ?_⟩
  by_cases eligible : ∃ d, m.Eligible exchange.request d ∧ d.DeclaresHead
  · obtain ⟨d, eligible, declares'⟩ := eligible
    exact .inl (best.declaresHead routes head eligible declares')
  · have none_direct (d : Candidate Route) (fits' : m.Fits exchange.request d)
        (declares' : d.DeclaresHead) : ¬ m.Direct exchange.request d := fun direct =>
      eligible ⟨d, ⟨fits', fun _ _ _ => direct⟩, declares'⟩
    refine .inr ⟨?_, none_direct⟩
    -- Were the best candidate not under the exact path, no candidate would be, and all were eligible.
    by_contra indirect
    have no_direct (d : Candidate Route) (fits' : m.Fits exchange.request d) :
        ¬ m.Direct exchange.request d := fun direct => indirect (best.1.direct d fits' direct)
    exact eligible ⟨explicit, ⟨fits, fun d fits' direct => absurd direct (no_direct d fits')⟩,
      declares⟩

/-- Of two captures that fit a path equally well the one with an explicit head is selected. -/
theorem capture_with_explicit_head :
    let strategy := RouteStrategy.strategy .standard
    let key := { Route.ofPattern ⟨"/\x7bkey\x7d", [.capture "key"], false⟩ with methods := [.get] }
    let name := { Route.ofPattern ⟨"/\x7bname\x7d", [.capture "name"], false⟩ with methods := [.head] }
    let find := HandlerMethod.ofBean "users" "Users" (.plain "find")
    let probe := HandlerMethod.ofBean "users" "Users" (.plain "probe")
    let calls := [.register strategy key find, .register strategy name probe]
    let m := { MethodMapping.new "routes" strategy with registry := Registry.reached none calls }
    let request := ⟨⟨[]⟩, .head, "/anna", [], .empty, []⟩
    let explicit := Candidate.mk name ⟨name, probe, [], none, false⟩
    [name, key].Perm m.registry.keys ∧ m.Fits request explicit ∧ explicit.DeclaresHead ∧
      (m.lookupIn [name, key] (.ofRequest request)).2 = .ok (some probe) ∧
      ∃ c, m.selectIn request [name, key] = .best c ∧ c.DeclaresHead := by
  intro strategy key name find probe calls m request explicit
  have live : m.registry.registrations =
      [⟨key, find, [], none, false⟩, ⟨name, probe, [], none, false⟩] := by rfl
  have narrows : strategy.narrow name request (strategy.lookupPath request) = some name := by cbv
  have fits : m.Fits request explicit :=
    ⟨live ▸ List.mem_cons_of_mem _ List.mem_cons_self, narrows⟩
  have declares : explicit.DeclaresHead := List.mem_singleton.mpr rfl
  have swapped : [name, key].Perm m.registry.keys := .swap key name []
  have answer : (m.lookupIn [name, key] (.ofRequest request)).2 = .ok (some probe) :=
    Outcome.toOption_eq_some_iff.mp (by decide +kernel)
  have none_direct : m.registry.keysAt "/anna" = [] := by rfl
  obtain ⟨c, selected, -, reason⟩ := lookupIn_explicit_head m .standard calls rfl rfl
    (.ofRequest request) [name, key] swapped rfl explicit fits declares probe answer
  refine ⟨swapped, fits, declares, answer, c, selected, reason.resolve_right fun indirect => ?_⟩
  have direct : c.registration.mapping ∈ m.registry.keysAt "/anna" := indirect.1
  rw [none_direct] at direct
  cases direct

/-- A literal path with a get hides an explicit head under a capture. -/
theorem literal_get_before_explicit_head :
    let strategy := RouteStrategy.strategy .standard
    let users := { Route.ofPattern ⟨"/users", [.literal "users"], false⟩ with methods := [.get] }
    let name := { Route.ofPattern ⟨"/\x7bname\x7d", [.capture "name"], false⟩ with methods := [.head] }
    let list := HandlerMethod.ofBean "users" "Users" (.plain "list")
    let probe := HandlerMethod.ofBean "users" "Users" (.plain "probe")
    let calls := [.register strategy users list, .register strategy name probe]
    let m := { MethodMapping.new "routes" strategy with registry := Registry.reached none calls }
    let request := ⟨⟨[]⟩, .head, "/users", [], .empty, []⟩
    let explicit := Candidate.mk name ⟨name, probe, [], none, false⟩
    m.Fits request explicit ∧ explicit.DeclaresHead ∧
      (m.lookup (.ofRequest request)).2 = .ok (some list) ∧
      ∃ c, m.selectIn request m.registry.keys = .best c ∧ c.registration.handler = list ∧
        c.registration.mapping.methods = [.get] := by
  intro strategy users name list probe calls m request explicit
  have live : m.registry.registrations =
      [⟨users, list, ["/users"], none, false⟩, ⟨name, probe, [], none, false⟩] := by rfl
  have narrows : strategy.narrow name request (strategy.lookupPath request) = some name := by cbv
  have fits : m.Fits request explicit :=
    ⟨live ▸ List.mem_cons_of_mem _ List.mem_cons_self, narrows⟩
  have declares : explicit.DeclaresHead := List.mem_singleton.mpr rfl
  have answer : (m.lookup (.ofRequest request)).2 = .ok (some list) :=
    Outcome.toOption_eq_some_iff.mp (by decide +kernel)
  have consistent : m.registry.Consistent := Registry.reached_consistent none calls
  have routes : m.strategy = RouteStrategy.strategy .standard := rfl
  obtain ⟨c, best, selected, own⟩ := exists_best_of_lookupIn routes consistent (.refl _) fits
    (by rfl) answer
  refine ⟨fits, declares, answer, c, selected, own.symm, ?_⟩
  have bound : c.registration ∈ m.registry.registrations := best.1.fits.live
  rw [live] at bound
  rcases List.mem_pair.mp bound with first | second
  · rw [first]
  · rw [second] at own
    exact absurd own (by decide)

end MethodMapping

end HttpRouting
