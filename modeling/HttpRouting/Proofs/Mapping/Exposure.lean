import HttpRouting.Mapping.UrlMapping
import HttpRouting.Proofs.Attributes
import HttpRouting.Proofs.Mapping.Selection
import HttpRouting.Proofs.Route.Narrowing

/-!
What a look-up leaves on an exchange.  A look-up that selects no registration leaves the exchange as it
is, also when it answers with a handler of its own; one that selects a registration notes the match in
five attributes and touches nothing else.
-/

set_option autoImplicit false
set_option relaxedAutoImplicit false

namespace HttpRouting

open Attributes (slot bestHandler bestMapping bestPattern pathWithinMapping pathVariables)

/-- The handler methods by which a look-up answers in place of a registration. -/
inductive HandlerMethod.StandsIn : HandlerMethod → Prop
  | preflight : StandsIn .ambiguousPreflight
  | options (asked : Uuid) (allow : String) : StandsIn (.allowedMethods asked allow)

/-- The places at which a match is noted. -/
def exposedPlaces : List (AttributeSlot AttributeKind) :=
  [slot bestHandler .handler, slot bestMapping .route, slot pathWithinMapping .text,
    slot bestPattern .text, slot pathVariables .bindings]

/-- What is noted of a registration that was selected: its handler, its route narrowed to the request,
the path, and with what it binds one of the patterns of the route that match, none of which is more
specific. -/
structure Exposes (context : RequestContext) (r : Registration Route) (before after : Work) :
    Prop where
  handler : after.attributes.get? bestHandler .handler = some (.handler r.handler)
  mapping : ∃ narrowed, r.mapping.narrow context = some narrowed ∧
    after.attributes.get? bestMapping .route = some (.route narrowed)
  path : after.attributes.get? pathWithinMapping .text = some (.text context.lookupPath)
  pattern : ∃ p ∈ r.mapping.patterns, ∃ bound,
    p.match? context.lookupPath context.lenient = some bound ∧
    (∀ q ∈ r.mapping.patterns, q.matchesPath context.lookupPath context.lenient = true →
      PathPattern.specificity context.lookupPath p q ≠ .gt) ∧
    after.attributes.get? bestPattern .text = some (.text p.source) ∧
    after.attributes.get? pathVariables .bindings = some (.bindings bound)
  others : ∀ place, place ∉ exposedPlaces → after.attributes.at? place = before.attributes.at? place
  only : after = { before with attributes := after.attributes }

/-- The two texts among what is noted stand at different places. -/
theorem hashName_pathWithinMapping_ne :
    Attributes.hashName pathWithinMapping ≠ Attributes.hashName bestPattern := by
  decide +kernel

/-- A policy in force may fail or replace a handler, but it does not take it away. -/
theorem Handler.underCheckedPolicy_ne_none (own : Handler) (policy : Option CorsConfig)
    (request : Request) (work : Work) :
    (own.underCheckedPolicy policy request work).2 ≠ .ok none := by
  simp only [underCheckedPolicy]
  split <;> exact nofun

/-- A mapping of patterns that passes a request on leaves no trace. -/
theorem UrlMapping.work_find_of_none {m : UrlMapping} {exchange : Exchange}
    (passes : (m.find exchange).2 = .ok none) : (m.find exchange).1 = exchange.work := by
  rw [find] at passes ⊢
  split
  · rfl
  · next found =>
    simp only [found] at passes
    split at passes
    · exact absurd passes (Handler.underCheckedPolicy_ne_none _ _ _ _)
    · cases passes

namespace MethodMapping

section Unfound

variable {κ : Type} [BEq κ] {m : MethodMapping κ} {order : List κ} {exchange : Exchange}

/-- A look-up that finds no handler leaves the exchange as it is. -/
theorem work_lookupIn_of_unfound
    (unfound : ∀ handler, (m.lookupIn order exchange).2 ≠ .ok (some handler)) :
    (m.lookupIn order exchange).1 = exchange.work := by
  rw [lookupIn] at unfound ⊢
  cases selected : m.selectIn exchange.request order with
  | best c =>
    rw [selected] at unfound
    exact absurd rfl (unfound c.registration.handler)
  | _ => rfl

/-- A mapping that passes a request on leaves no trace. -/
theorem work_find_of_none (passes : (m.find exchange).2 = .ok none) :
    (m.find exchange).1 = exchange.work := by
  have unfound : (∀ handler, (m.lookup exchange).2 ≠ .ok (some handler)) →
      (m.lookup exchange).1 = exchange.work := work_lookupIn_of_unfound
  rw [find] at passes ⊢
  split
  · next failed =>
    rw [failed] at unfound
    exact unfound fun handler found => by cases found
  · next missed =>
    rw [missed] at unfound
    exact unfound fun handler found => by cases found
  · next found =>
    simp only [found] at passes
    split at passes
    · cases passes
    · split at passes
      · exact absurd passes (Handler.underCheckedPolicy_ne_none _ _ _ _)
      · cases passes

end Unfound

variable {m : MethodMapping Route} {config : MappingConfig} {exchange : Exchange}

theorem exposes_note (routes : m.strategy = RouteStrategy.strategy config) {request : Request}
    {path : String} {c : Candidate Route}
    (narrows : c.registration.mapping.narrow (RouteStrategy.context config request path) =
      some c.narrowed) (work : Work) :
    Exposes (RouteStrategy.context config request path) c.registration work (m.note path c work) := by
  obtain ⟨p, rest, first, listed, found, least⟩ :=
    Route.exists_first_of_narrowPatterns (Route.narrow_patterns narrows)
  obtain ⟨bound, matched⟩ := Option.isSome_iff_exists.mp found
  have noted : m.note path c work =
      ((((work.setAttribute bestPattern (.text p.source)).setAttribute pathVariables
        (.bindings bound)).setAttribute bestHandler (.handler c.registration.handler)).setAttribute
          bestMapping (.route c.narrowed)).setAttribute pathWithinMapping (.text path) := by
    have matched : p.match? path config.lenientTrailingSlash = some bound := matched
    simp only [note, routes, RouteStrategy.strategy, RouteStrategy.expose, first, matched,
      Option.getD_some]
  -- The places differ by the kinds of their values, but for two texts that only their names keep apart.
  have apart := hashName_pathWithinMapping_ne
  rw [noted]
  constructor
  · simp [AttributeStore.get?, Work.at?_setAttribute, AttributeValue.kind, Attributes.slot]
  · refine ⟨_, narrows, ?_⟩
    simp [AttributeStore.get?, Work.at?_setAttribute, AttributeValue.kind, Attributes.slot]
  · simp [AttributeStore.get?, Work.at?_setAttribute, AttributeValue.kind, RouteStrategy.context]
  · refine ⟨p, listed, bound, matched, least, ?_, ?_⟩
    · simp [AttributeStore.get?, Work.at?_setAttribute, AttributeValue.kind, Attributes.slot, apart.symm]
    · simp [AttributeStore.get?, Work.at?_setAttribute, AttributeValue.kind, Attributes.slot]
  · intro place outside
    simp only [exposedPlaces, List.mem_cons, List.not_mem_nil, or_false, not_or] at outside
    simp only [Work.at?_setAttribute, AttributeValue.kind, outside, if_false]
  · rfl

/-- A miss is answered by nothing, by an error or by a handler of its own. -/
theorem standsIn_of_onMiss {routes : List Route} {path : String} {request : Request}
    {handler : HandlerMethod}
    (answered : RouteStrategy.onMiss config routes path request = .ok (some handler)) :
    handler.StandsIn := by
  -- The shape of an answer can be read off its being the same as itself.
  have same : ∃ other, RouteStrategy.SameAnswer (.ok (some handler)) other :=
    ⟨_, answered ▸ RouteStrategy.onMiss_perm config (.refl routes) path request⟩
  obtain ⟨_, same⟩ := same
  cases same with
  | allowed => exact .options _ _

/-- A look-up of routes leaves the exchange as it is, unless one registration is better than all
others; then it answers with the handler of this registration and notes the match. -/
theorem lookupIn_cases (routes : m.strategy = RouteStrategy.strategy config)
    (consistent : m.registry.Consistent) {order : List Route}
    (enumerated : order.Perm m.registry.keys) (exchange : Exchange) :
    let path := m.strategy.lookupPath exchange.request
    let looked := m.lookupIn order exchange
    ((∀ c, ¬ m.StrictBest exchange.request c) ∧ looked.1 = exchange.work ∧
        ∀ handler, looked.2 = .ok (some handler) → handler.StandsIn) ∨
      ∃ c, m.StrictBest exchange.request c ∧
        looked = (m.note path c exchange.work, .ok (some c.registration.handler)) := by
  intro path looked
  have := transCmp_rank routes exchange.request
  have selects : m.Selects exchange.request order (m.selectIn exchange.request order) :=
    selects_selectIn consistent enumerated
  have settled : looked = m.settle exchange (m.selectIn exchange.request order) := rfl
  generalize m.selectIn exchange.request order = selected at selects settled
  rw [settled]
  cases selects with
  | miss none_fits =>
    refine .inl ⟨fun c strict => none_fits c strict.1.fits, rfl, fun handler answered => ?_⟩
    rw [settle, routes] at answered
    exact standsIn_of_onMiss answered
  | best strict => exact .inr ⟨_, strict, rfl⟩
  | ambiguousPreflight none_strict =>
    refine .inl ⟨none_strict, rfl, fun handler answered => ?_⟩
    cases answered
    exact .preflight
  | ambiguous none_strict =>
    refine .inl ⟨none_strict, rfl, fun handler answered => ?_⟩
    cases answered

/-- What a look-up of routes leaves on an exchange, after any history of the registry and for every
order in which the keys are tried.  An exchange for which no handler is found stays as it is, with or
without an error.  It stays as it is, too, for a handler that stands in when no registration is better
than all others.  Otherwise the handler is that of the registration which is, and the match is noted.  A
mapping that passes a request on leaves no trace of it, be it one of routes or one of patterns. -/
theorem lookupIn_exposes (m : MethodMapping Route) (config : MappingConfig)
    (calls : List (RegistryCall Route)) (routes : m.strategy = RouteStrategy.strategy config)
    (history : m.registry = Registry.reached m.naming calls) (exchange : Exchange)
    (order : List Route) (enumerated : order.Perm m.registry.keys) :
    let request := exchange.request
    let context := RouteStrategy.context config request (m.strategy.lookupPath request)
    let looked := m.lookupIn order exchange
    (looked.2 = .ok none → looked.1 = exchange.work) ∧
      (∀ error, looked.2 = .error error → looked.1 = exchange.work) ∧
      (∀ handler, looked.2 = .ok (some handler) →
        (handler.StandsIn ∧ (∀ c, ¬ m.StrictBest request c) ∧ looked.1 = exchange.work) ∨
          ∃ c, m.StrictBest request c ∧ c.registration.handler = handler ∧
            Exposes context c.registration exchange.work looked.1) ∧
      ((m.find exchange).2 = .ok none → (m.find exchange).1 = exchange.work) ∧
      ∀ urls : UrlMapping, (urls.find exchange).2 = .ok none → (urls.find exchange).1 = exchange.work := by
  intro request context looked
  have consistent : m.registry.Consistent := history ▸ Registry.reached_consistent m.naming calls
  refine ⟨?_, ?_, ?_, work_find_of_none, fun urls => UrlMapping.work_find_of_none⟩
  · intro missed
    exact work_lookupIn_of_unfound fun handler found => by cases missed.symm.trans found
  · intro error failed
    exact work_lookupIn_of_unfound fun handler found => by cases failed.symm.trans found
  · intro handler found
    rcases lookupIn_cases routes consistent enumerated exchange with
      ⟨none_strict, unchanged, standIn⟩ | ⟨c, strict, noted⟩
    · exact .inl ⟨standIn handler found, none_strict, unchanged⟩
    · have noted : looked = _ := noted
      rw [noted] at found ⊢
      have narrows := strict.1.fits.narrows
      rw [routes] at narrows
      have exposed := exposes_note routes narrows exchange.work
      rw [← routes] at exposed
      cases found
      exact .inr ⟨c, strict, rfl, exposed⟩

/-- Reading a user notes the pattern that names one, not the one for all below.  A question for the
methods is answered without a note, and so are an error and a path that no route matches. -/
theorem lookup_notes_users :
    let one : PathPattern := ⟨"/users/\x7bid\x7d", [.literal "users", .capture "id"], false⟩
    let below : PathPattern := ⟨"/users/**", [.literal "users", .catchAll none], false⟩
    let route := { Route.ofPattern one with patterns := [below, one], methods := [.get] }
    let read := HandlerMethod.ofBean "users" "Users" (.plain "read")
    let strategy := RouteStrategy.strategy .standard
    let m := { MethodMapping.new "routes" strategy with
      registry := Registry.reached none [.register strategy route read] }
    let asking := fun method path => Exchange.ofRequest ⟨⟨[]⟩, method, path, [], .empty, []⟩
    let reading := asking .get "/users/7"
    let options := asking .options "/users/7"
    let posting := asking .post "/users/7"
    let orders := asking .get "/orders"
    (∃ r, r.handler = read ∧ Exposes (RouteStrategy.context .standard reading.request "/users/7") r
        .blank (m.lookup reading).1) ∧
      (m.lookup options).2 = .ok (some (.allowedMethods options.request.uuid "GET,HEAD,OPTIONS")) ∧
      (m.lookup options).1 = .blank ∧ (m.lookup posting).1 = .blank ∧
      (m.lookup orders).1 = .blank ∧ (m.find orders).1 = .blank ∧
      ((UrlMapping.new "paths").find orders).1 = .blank := by
  intro one below route read strategy m asking reading options posting orders
  have exposes := fun exchange => lookupIn_exposes m .standard
    [.register strategy route read] rfl rfl exchange m.registry.keys (.refl _)
  have stands_apart (h : HandlerMethod) (standIn : h.StandsIn) : (h == read) = false := by
    cases standIn <;> rfl
  have one_registered (c : Candidate Route) (strict : m.StrictBest options.request c) :
      c.registration.handler = read :=
    congrArg Registration.handler (List.mem_singleton.mp strict.1.fits.live)
  have path : m.strategy.lookupPath reading.request = "/users/7" := by decide +kernel
  have found : (m.lookup reading).2 = .ok (some read) :=
    Outcome.toOption_eq_some_iff.mp (by decide +kernel)
  have answered : (m.lookup options).2 =
      .ok (some (.allowedMethods options.request.uuid "GET,HEAD,OPTIONS")) :=
    Outcome.toOption_eq_some_iff.mp (by decide +kernel)
  have missed : (m.lookup orders).2 = .ok none :=
    Outcome.toOption_eq_some_iff.mp (by decide +kernel)
  have passed : (m.find orders).2 = .ok none := by
    have looked : m.lookup orders = (.blank, .ok none) := Prod.ext ((exposes orders).1 missed) missed
    rw [find, looked]
  refine ⟨?_, answered, ?_, ?_, (exposes orders).1 missed, (exposes orders).2.2.2.1 passed,
    (exposes orders).2.2.2.2 (.new "paths") rfl⟩
  · rcases (exposes reading).2.2.1 read found with ⟨standIn, -⟩ | ⟨c, -, own, noted⟩
    · cases (stands_apart read standIn).symm.trans BEq.rfl
    · rw [path] at noted
      exact ⟨c.registration, own, noted⟩
  · rcases (exposes options).2.2.1 _ answered with ⟨-, -, unchanged⟩ | ⟨c, strict, own, -⟩
    · exact unchanged
    · have standIn : (c.registration.handler).StandsIn := own ▸ .options _ _
      rw [one_registered c strict] at standIn
      cases (stands_apart read standIn).symm.trans BEq.rfl
  · cases failed : (m.lookup posting).2 with
    | error error => exact (exposes posting).2.1 error failed
    | ok answer =>
      have fails : (m.lookup posting).2.isOk = false := by decide +kernel
      rw [failed] at fails
      cases fails

/-- A handler method that stands in can be registered itself.  Then it is answered with for a request
that is no preflight, and the match is noted. -/
theorem lookup_notes_registered_stand_in :
    let users := Route.ofPattern ⟨"/users", [.literal "users"], false⟩
    let strategy := RouteStrategy.strategy .standard
    let m := { MethodMapping.new "routes" strategy with
      registry := Registry.reached none [.register strategy users .ambiguousPreflight] }
    let exchange := Exchange.ofRequest ⟨⟨[]⟩, .get, "/users", [], .empty, []⟩
    (m.lookup exchange).2 = .ok (some .ambiguousPreflight) ∧ (m.lookup exchange).1 ≠ exchange.work := by
  intro users strategy m exchange
  refine ⟨Outcome.toOption_eq_some_iff.mp (by decide +kernel), fun same => ?_⟩
  have noted : (m.lookup exchange).1.attributes.size = 5 := by decide +kernel
  rw [same] at noted
  cases noted

end MethodMapping

end HttpRouting
