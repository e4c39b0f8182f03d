import HttpRouting.Proofs.Cors.Combination
import HttpRouting.Proofs.Mapping.Classification

/-!
Policies whose methods are left open and taken from a route.  Such a policy allows the methods that
the route declares and no others.  It lets pass whatever the route serves, with one exception: the
head that a declared get stands in for, although the methods that a path is said to support have it.
-/

set_option autoImplicit false
set_option relaxedAutoImplicit false

namespace HttpRouting

namespace CorsConfig

variable {config : CorsConfig} {entry : String}

theorem mem_methods_allowMethod {name : String} :
    entry ∈ (config.allowMethod name).allowedMethods.getD [] ↔
      entry ∈ config.allowedMethods.getD [] ∨ entry = Text.upper name :=
  mem_addition

theorem mem_methods_allowMethods (methods : List Method) :
    entry ∈ (methods.foldl (fun config m => config.allowMethod m.name) config).allowedMethods.getD [] ↔
      entry ∈ config.allowedMethods.getD [] ∨ ∃ m ∈ methods, entry = Text.upper m.name := by
  induction methods generalizing config with
  | nil => simp
  | cons m methods ih =>
    rw [List.foldl_cons, ih, mem_methods_allowMethod, or_assoc, List.exists_mem_cons_iff]

theorem methods_withDefaults (given : config.allowedMethods.getD [] ≠ []) :
    config.withDefaults.allowedMethods.getD [] = config.allowedMethods.getD [] := by
  cases set : config.allowedMethods with
  | none =>
    rw [set] at given
    exact absurd rfl given
  | some methods =>
    rw [withDefaults, set]
    rfl

end CorsConfig

namespace Route

variable {context : RequestContext} {methods : List Method}

/-- A request that is no preflight is served by its method, or by the get that stands in for a head. -/
theorem isSome_narrowMethods_iff (actual : context.request.isPreflight = false)
    (declared : methods ≠ []) :
    (narrowMethods context methods).isSome = true ↔
      context.request.method ∈ methods ∨
        context.request.method = .head ∧ Method.head ∉ methods ∧ Method.get ∈ methods := by
  have asks : Cors.methodAsked? context.request = some context.request.method := by
    rw [Cors.methodAsked?, actual, if_neg Bool.false_ne_true]
  rw [Option.isSome_iff_exists]
  simp only [narrowMethods_eq_some_iff]
  constructor
  · rintro ⟨kept, left⟩
    cases left with
    | all none_declared => exact absurd none_declared declared
    | asked asks' member =>
      rw [Option.some.inj (asks.symm.trans asks')]
      exact .inl member
    | byGet asks' undeclared by_get =>
      exact .inr ⟨Option.some.inj (asks.symm.trans asks'), undeclared, by_get⟩
  · rintro (member | ⟨head, undeclared, by_get⟩)
    · exact ⟨_, .asked asks member⟩
    · rw [head] at asks
      exact ⟨_, .byGet asks undeclared by_get⟩

end Route

namespace RouteStrategy

variable {handler : HandlerMethod} {route : Route} {declared config : CorsConfig}
  {policy : Option CorsConfig}

theorem eq_of_corsFor_eq_ok (declares : handler.method.cors = some declared)
    (left_open : declared.allowedMethods = none) (made : corsFor handler route = .ok policy) :
    policy =
      some (route.methods.foldl (fun config m => config.allowMethod m.name) declared).withDefaults := by
  rw [corsFor, declares] at made
  simp only [left_open, Option.isNone_none, if_true] at made
  split at made
  · cases made
  · exact (Except.ok.inj made).symm

section LeftOpen

variable (declares : handler.method.cors = some declared) (left_open : declared.allowedMethods = none)
  (built : route.Built) (some_methods : route.methods ≠ [])
  (made : corsFor handler route = .ok (some config))

include declares left_open built some_methods made

/-- The methods of the policy are those that the route declares. -/
theorem mem_methods_of_corsFor {entry : String} :
    entry ∈ config.allowedMethods.getD [] ↔ ∃ m ∈ route.methods, m.name = entry := by
  obtain rfl := Option.some.inj (eq_of_corsFor_eq_ok declares left_open made)
  have members {entry : String} :
      entry ∈ (route.methods.foldl (fun config m => config.allowMethod m.name)
        declared).allowedMethods.getD [] ↔ ∃ m ∈ route.methods, m.name = entry := by
    rw [CorsConfig.mem_methods_allowMethods, left_open]
    constructor
    · rintro (none_before | ⟨m, member, rfl⟩)
      · cases none_before
      · exact ⟨m, member, (built.upper_of_mem_methods m member).symm⟩
    · rintro ⟨m, member, rfl⟩
      exact .inr ⟨m, member, (built.upper_of_mem_methods m member).symm⟩
  obtain ⟨m, member⟩ := List.exists_mem_of_ne_nil _ some_methods
  rw [CorsConfig.methods_withDefaults (List.ne_nil_of_mem (members.mpr ⟨m, member, rfl⟩)), members]

/-- The policy lets a method pass that the route declares, and any method under a route that
declares the asterisk. -/
theorem isSome_checkMethod_of_corsFor_iff {method : Method} :
    (config.checkMethod method).isSome = true ↔
      method ∈ route.methods ∨ ⟨CorsConfig.wildcard⟩ ∈ route.methods := by
  have named {m : Method} : (∃ m' ∈ route.methods, m'.name = m.name) ↔ m ∈ route.methods := by
    constructor
    · rintro ⟨m', member, same⟩
      obtain rfl : m' = m := congrArg Method.mk same
      exact member
    · intro member
      exact ⟨m, member, rfl⟩
  rw [CorsConfig.isSome_checkMethod_iff,
    mem_methods_of_corsFor declares left_open built some_methods made,
    mem_methods_of_corsFor declares left_open built some_methods made, named, named, or_comm]

end LeftOpen

/-- For every handler method with a policy that leaves its methods open, every route with methods
for which the policy can be put in force, and every request that the methods of the route serve: the
policy names the methods of the route, the answer to a question for methods names that of the
request, and the policy lets the request pass unless it reads the head and is served by a get.  The
asterisk is a method like any other for a route, but every method for a policy. -/
theorem corsFor_allows_declared_methods (handler : HandlerMethod) (route : Route)
    (declared : CorsConfig) (policy : Option CorsConfig) (context : RequestContext)
    (declares : handler.method.cors = some declared) (left_open : declared.allowedMethods = none)
    (built : route.Built) (some_methods : route.methods ≠ [])
    (made : corsFor handler route = .ok policy) (actual : context.request.isPreflight = false)
    (served : (Route.narrowMethods context route.methods).isSome = true) :
    ∃ config, policy = some config ∧
      (∀ entry, entry ∈ config.allowedMethods.getD [] ↔ ∃ m ∈ route.methods, m.name = entry) ∧
      context.request.method ∈ supportedMethods route.methods ∧
      ((config.checkMethod context.request.method).isSome = true ↔
        ¬ (context.request.method = .head ∧ .head ∉ route.methods ∧
          ⟨CorsConfig.wildcard⟩ ∉ route.methods)) := by
  have served := (Route.isSome_narrowMethods_iff actual some_methods).mp served
  obtain rfl := eq_of_corsFor_eq_ok declares left_open made
  refine ⟨_, rfl, fun _ => mem_methods_of_corsFor declares left_open built some_methods made, ?_, ?_⟩
  · rw [mem_supportedMethods some_methods]
    rcases served with member | ⟨head, -, by_get⟩
    · exact .inl member
    · exact .inr (.inr ⟨head, by_get⟩)
  · rw [isSome_checkMethod_of_corsFor_iff declares left_open built some_methods made]
    constructor
    · rintro (member | all) ⟨head, undeclared, no_asterisk⟩
      · rw [head] at member
        exact undeclared member
      · exact no_asterisk all
    · intro otherwise
      rcases served with member | ⟨head, undeclared, -⟩
      · exact .inl member
      · by_contra refused
        rw [not_or] at refused
        exact otherwise ⟨head, undeclared, refused.2⟩

/-- A put passes the policy that took its methods from the route, and a head does not. -/
theorem put_allowed_by_declared_methods :
    let declared := CorsConfig.empty.allowOrigin "https://a.example"
    let handler := HandlerMethod.ofBean "users" "Users" ⟨"update", none, some declared⟩
    let spec := ((RouteSpec.empty.withPath "/users").withMethod "PUT").withMethod "GET"
    let route :=
      { Route.ofPattern ⟨"/users", [.literal "users"], false⟩ with methods := [.get, ⟨"PUT"⟩] }
    let put := RequestContext.mk ⟨⟨[]⟩, ⟨"PUT"⟩, "/users", [], .empty, []⟩ "/users" false
    let head := RequestContext.mk ⟨⟨[]⟩, .head, "/users", [], .empty, []⟩ "/users" false
    Route.ofSpec spec = .ok route ∧ (Route.narrowMethods put route.methods).isSome = true ∧
      (Route.narrowMethods head route.methods).isSome = true ∧
      ∃ config, corsFor handler route = .ok (some config) ∧
        (config.checkMethod ⟨"PUT"⟩).isSome = true ∧ (config.checkMethod .head).isSome = false := by
  intro declared handler spec route put head
  have read : Route.ofSpec spec = .ok route := by rfl
  have served : (Route.narrowMethods put route.methods).isSome = true := by decide +kernel
  have served' : (Route.narrowMethods head route.methods).isSome = true := by decide +kernel
  obtain ⟨policy, made⟩ : ∃ policy, corsFor handler route = .ok policy := ⟨_, rfl⟩
  obtain ⟨config, rfl, -, -, allowed⟩ := corsFor_allows_declared_methods handler route declared policy
    put rfl rfl (.declared read) (by decide) made rfl served
  obtain ⟨config', same, -, -, allowed'⟩ := corsFor_allows_declared_methods handler route declared
    (some config) head rfl rfl (.declared read) (by decide) made rfl served'
  obtain rfl := Option.some.inj same
  refine ⟨read, served, served', config, made, allowed.mpr ?_, ?_⟩
  · exact fun ⟨head_asked, _⟩ => absurd head_asked (by decide)
  · rw [Bool.eq_false_iff]
    exact fun passes => allowed'.mp passes ⟨rfl, by decide, by decide⟩

/-- A head that a route serves by its get is refused by the policy that took its methods from the
route. -/
theorem head_refused_by_declared_methods :
    ∃ (handler : HandlerMethod) (declared : CorsConfig) (spec : RouteSpec) (route : Route)
      (config : CorsConfig) (context : RequestContext),
      handler.method.cors = some declared ∧ declared.allowedMethods = none ∧
      Route.ofSpec spec = .ok route ∧ route.methods ≠ [] ∧
      corsFor handler route = .ok (some config) ∧ context.request.isPreflight = false ∧
      (route.narrow context).isSome = true ∧ config.checkMethod context.request.method = none := by
  let declared := CorsConfig.empty.allowOrigin "https://a.example"
  let handler := HandlerMethod.ofBean "users" "Users" ⟨"list", none, some declared⟩
  let spec := (RouteSpec.empty.withPath "/users").withMethod "GET"
  let route := { Route.ofPattern ⟨"/users", [.literal "users"], false⟩ with methods := [.get] }
  let head := RequestContext.mk ⟨⟨[]⟩, .head, "/users", [], .empty, []⟩ "/users" false
  have read : Route.ofSpec spec = .ok route := by rfl
  obtain ⟨config, made, refused⟩ : ∃ config, corsFor handler route = .ok (some config) ∧
      config.checkMethod .head = none := ⟨_, rfl, by decide +kernel⟩
  exact ⟨handler, declared, spec, route, config, head, rfl, rfl, read, by decide, made, rfl,
    by decide +kernel, refused⟩

end RouteStrategy

end HttpRouting
