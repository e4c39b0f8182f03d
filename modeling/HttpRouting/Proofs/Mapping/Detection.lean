import HttpRouting.Mapping.RouteStrategy
import HttpRouting.Proofs.Outcome
import HttpRouting.Proofs.Registry.Registration

/-!
Scanning a controller.  The keys of all its methods are derived before the first of them is
registered, so that a route that cannot be read leaves the mapping as it was, wherever it stands; and a
method that is refused leaves the mapping with the methods before it.
-/

set_option autoImplicit false
set_option relaxedAutoImplicit false

namespace HttpRouting

namespace MethodMapping

variable {κ : Type} [BEq κ]

/-- The mapping after some keys were bound in their order, unless one is refused. -/
def registerEach (m : MethodMapping κ) (entries : List (κ × HandlerMethod)) :
    Except MappingError (MethodMapping κ) :=
  entries.foldlM (fun m entry => m.register entry.1 entry.2) m

/-- The controller that a bean stands for. -/
def controllerOf (m : MethodMapping κ) : Bean → Except MappingError Controller
  | .controller controller => .ok controller
  | .named name =>
    match m.beans with
    | none => .error (.invalidMapping name "named handler without a bean resolver")
    | some beans => (beans.resolve name).mapError .bean

/-- The key of a method, if it has one, with the method as a handler method of a bean. -/
def mapped? (strategy : MappingStrategy κ) (controller : Controller) (bean : Bean)
    (method : ControllerMethod) : Option (κ × HandlerMethod) :=
  match strategy.keyFor controller method with
  | .ok (some key) =>
    some (key, handlerMethod bean controller.typeName (withTypeCors controller method))
  | _ => none

/-- The methods of a controller that have a key, in their order. -/
def mappedMethods (strategy : MappingStrategy κ) (controller : Controller) (bean : Bean) :
    List (κ × HandlerMethod) :=
  controller.methods.filterMap (mapped? strategy controller bean)

section Register

variable {m m' : MethodMapping κ} {key other : κ} {handler : HandlerMethod} {r : Registration κ}
  {entries : List (κ × HandlerMethod)}

theorem register_eq_ok_iff : m.register key handler = .ok m' ↔
    ∃ registry, m.registry.register m.strategy m.naming key handler = .ok registry ∧
      { m with registry } = m' :=
  Outcome.map_eq_ok_iff

/-- A registration adds at most itself. -/
theorem mem_registrations_of_register (registered : m.register key handler = .ok m')
    (live : r ∈ m'.registry.registrations) :
    r ∈ m.registry.registrations ∨ r.mapping = key ∧ r.handler = handler := by
  obtain ⟨registry, done, rfl⟩ := register_eq_ok_iff.mp registered
  rcases Registry.register_cases done with ⟨-, -, -, rfl⟩ | ⟨free, policy, -, rfl⟩
  · exact .inl live
  · rw [Registry.registrations_add free, List.mem_append, List.mem_singleton] at live
    rcases live with before | rfl
    · exact .inl before
    · exact .inr ⟨rfl, rfl⟩

/-- A registration keeps what is bound. -/
theorem registration?_of_register [EquivBEq κ] (registered : m.register key handler = .ok m')
    (bound : m.registry.registration? other = some r) :
    m'.registry.registration? other = some r := by
  obtain ⟨registry, done, rfl⟩ := register_eq_ok_iff.mp registered
  have reaches : m.registry.after m.naming (.register m.strategy key handler) = registry := by
    simp only [Registry.after, done]
  rw [← reaches]
  refine Registry.registration?_after bound fun released called => ?_
  cases called

theorem exists_registration?_of_register [EquivBEq κ]
    (registered : m.register key handler = .ok m') :
    ∃ r, m'.registry.registration? key = some r ∧ (r.handler == handler) = true := by
  obtain ⟨registry, done, rfl⟩ := register_eq_ok_iff.mp registered
  exact Registry.exists_registration?_of_register done

theorem registerEach_cons_eq_ok_iff : m.registerEach ((key, handler) :: entries) = .ok m' ↔
    ∃ next, m.register key handler = .ok next ∧ next.registerEach entries = .ok m' := by
  rw [registerEach, List.foldlM_cons]
  exact Outcome.bind_eq_ok_iff

theorem mem_registrations_of_registerEach (registered : m.registerEach entries = .ok m')
    (live : r ∈ m'.registry.registrations) :
    r ∈ m.registry.registrations ∨ (r.mapping, r.handler) ∈ entries := by
  induction entries generalizing m with
  | nil =>
    cases registered
    exact .inl live
  | cons entry entries ih =>
    obtain ⟨next, first, later⟩ := registerEach_cons_eq_ok_iff.mp registered
    rcases ih later with before | listed
    · rcases mem_registrations_of_register first before with before | ⟨mapped, bound⟩
      · exact .inl before
      · exact .inr (List.mem_cons.mpr (.inl (Prod.ext mapped bound)))
    · exact .inr (List.mem_cons_of_mem _ listed)

theorem registration?_of_registerEach [EquivBEq κ] (registered : m.registerEach entries = .ok m')
    (bound : m.registry.registration? other = some r) :
    m'.registry.registration? other = some r := by
  induction entries generalizing m with
  | nil =>
    cases registered
    exact bound
  | cons entry entries ih =>
    obtain ⟨next, first, later⟩ := registerEach_cons_eq_ok_iff.mp registered
    exact ih later (registration?_of_register first bound)

/-- What was bound on the way is bound in the end. -/
theorem exists_registration?_of_registerEach [EquivBEq κ]
    (registered : m.registerEach entries = .ok m') (listed : (key, handler) ∈ entries) :
    ∃ r, m'.registry.registration? key = some r ∧ (r.handler == handler) = true := by
  induction entries generalizing m with
  | nil => cases listed
  | cons entry entries ih =>
    obtain ⟨next, first, later⟩ := registerEach_cons_eq_ok_iff.mp registered
    rcases List.mem_cons.mp listed with rfl | listed
    · obtain ⟨r, bound, same⟩ := exists_registration?_of_register first
      exact ⟨r, registration?_of_registerEach later bound, same⟩
    · exact ih later listed

/-- Entries are registered up to the first that is refused. -/
theorem registerAll_cases (m : MethodMapping κ) (entries : List (κ × HandlerMethod)) :
    (∃ m', m.registerEach entries = .ok m' ∧ m.registerAll entries = (m', .ok ())) ∨
      ∃ before key handler behind m' error, entries = before ++ (key, handler) :: behind ∧
        m.registerEach before = .ok m' ∧ m'.register key handler = .error error ∧
        m.registerAll entries = (m', .error error) := by
  induction entries generalizing m with
  | nil => exact .inl ⟨m, rfl, rfl⟩
  | cons entry entries ih =>
    obtain ⟨key, handler⟩ := entry
    cases first : m.register key handler with
    | error error =>
      right
      exact ⟨[], key, handler, entries, m, error, rfl, rfl, first, by rw [registerAll, first]⟩
    | ok next =>
      have goes_on : m.registerAll ((key, handler) :: entries) = next.registerAll entries := by
        rw [registerAll, first]
      rw [goes_on]
      rcases ih next with ⟨m', later, all⟩ |
        ⟨before, key', handler', behind, m', error, cut, later, refused, all⟩
      · exact .inl ⟨m', registerEach_cons_eq_ok_iff.mpr ⟨next, first, later⟩, all⟩
      · right
        refine ⟨(key, handler) :: before, key', handler', behind, m', error, by rw [cut]; rfl, ?_,
          refused, all⟩
        exact registerEach_cons_eq_ok_iff.mpr ⟨next, first, later⟩

end Register

section Keys

variable {strategy : MappingStrategy κ} {controller : Controller} {methods : List ControllerMethod}

omit [BEq κ] in
/-- One method without a sound key makes all fail. -/
theorem keyedMethods_eq_error {method : ControllerMethod} {error : MappingError}
    (listed : method ∈ methods) (faulty : strategy.keyFor controller method = .error error) :
    ∃ method ∈ methods, ∃ error, strategy.keyFor controller method = .error error ∧
      keyedMethods strategy controller methods = .error error := by
  induction methods with
  | nil => cases listed
  | cons first rest ih =>
    cases key : strategy.keyFor controller first with
    | error error' =>
      exact ⟨first, List.mem_cons_self, error', key, by rw [keyedMethods, key]⟩
    | ok found =>
      rcases List.mem_cons.mp listed with rfl | listed
      · cases key.symm.trans faulty
      · obtain ⟨method', listed', error', faulty', failed⟩ := ih listed
        refine ⟨method', List.mem_cons_of_mem _ listed', error', faulty', ?_⟩
        cases found with
        | none => rw [keyedMethods, key, failed]
        | some key' =>
          rw [keyedMethods, key, failed]
          rfl

omit [BEq κ] in
theorem exists_keyedMethods (bean : Bean)
    (sound : ∀ method ∈ methods, ∃ found, strategy.keyFor controller method = .ok found) :
    ∃ keyed, keyedMethods strategy controller methods = .ok keyed ∧
      (keyed.map fun entry => (entry.1, handlerMethod bean controller.typeName entry.2)) =
        methods.filterMap (mapped? strategy controller bean) := by
  induction methods with
  | nil => exact ⟨[], rfl, rfl⟩
  | cons first rest ih =>
    obtain ⟨⟨found, key⟩, sound_rest⟩ := List.forall_mem_cons.mp sound
    obtain ⟨keyed, made, same⟩ := ih sound_rest
    cases found with
    | none =>
      refine ⟨keyed, by rw [keyedMethods, key, made], ?_⟩
      rw [List.filterMap_cons, mapped?, key, same]
    | some key' =>
      refine ⟨(key', withTypeCors controller first) :: keyed, ?_, ?_⟩
      · rw [keyedMethods, key, made]
        rfl
      · rw [List.map_cons, List.filterMap_cons, mapped?, key, same]

end Keys

section Detect

variable {m : MethodMapping κ} {controller : Controller}

theorem detect_eq (m : MethodMapping κ) (bean : Bean) :
    m.detect bean =
      match m.controllerOf bean with
      | .error error => (m, .error error)
      | .ok controller => m.detectIn controller bean := by
  cases bean with
  | controller controller => rfl
  | named name =>
    rw [detect, controllerOf]
    cases m.beans with
    | none => rfl
    | some beans =>
      dsimp only
      cases beans.resolve name with
      | error error => rfl
      | ok controller => rfl

theorem detect_of_controllerOf {bean : Bean} (resolved : m.controllerOf bean = .ok controller) :
    m.detect bean = m.detectIn controller bean := by
  rw [detect_eq, resolved]

/-- When all keys are sound, the mapped methods are registered up to the first that is refused. -/
theorem detectIn_cases (bean : Bean) (sound : ∀ method ∈ controller.methods,
      ∃ found, m.strategy.keyFor controller method = .ok found) :
    let mapped := mappedMethods m.strategy controller bean
    (∃ m', m.registerEach mapped = .ok m' ∧ m.detectIn controller bean = (m', .ok mapped.length)) ∨
      ∃ before key handler behind m' error, mapped = before ++ (key, handler) :: behind ∧
        m.registerEach before = .ok m' ∧ m'.register key handler = .error error ∧
        m.detectIn controller bean = (m', .error error) := by
  intro mapped
  obtain ⟨keyed, made, same⟩ := exists_keyedMethods bean sound
  have scanned : m.detectIn controller bean =
      ((m.registerAll mapped).1, (m.registerAll mapped).2.map fun _ => mapped.length) := by
    have count : keyed.length = mapped.length := by
      rw [← List.length_map, same]
      rfl
    rw [detectIn, made, ← count]
    simp only [same]
    rfl
  rw [scanned]
  rcases registerAll_cases m mapped with ⟨m', registered, all⟩ |
    ⟨before, key, handler, behind, m', error, cut, registered, refused, all⟩
  · exact .inl ⟨m', registered, by rw [all]; rfl⟩
  · exact .inr ⟨before, key, handler, behind, m', error, cut, registered, refused, by rw [all]; rfl⟩

end Detect

end MethodMapping

namespace RouteStrategy

/-- Why a method that declares a route has none: its own route does not parse, or that of its
controller does not, or the two do not combine. -/
inductive Fault (controller : Controller) (method : ControllerMethod) : RouteError → Prop
  | own {spec : RouteSpec} {error : RouteError} : method.route = some spec →
      Route.ofSpec spec = .error error → Fault controller method error
  | ofType {spec outer : RouteSpec} {route : Route} {error : RouteError} :
      method.route = some spec → Route.ofSpec spec = .ok route → controller.route = some outer →
        Route.ofSpec outer = .error error → Fault controller method error
  | combination {spec outer : RouteSpec} {route outerRoute : Route} {error : RouteError} :
      method.route = some spec → Route.ofSpec spec = .ok route → controller.route = some outer →
        Route.ofSpec outer = .ok outerRoute → outerRoute.combine route = .error error →
          Fault controller method error

section Keys

variable {controller : Controller} {method : ControllerMethod} {route : Route}

theorem keyFor_eq_some_iff : keyFor controller method = .ok (some route) ↔
    ∃ spec, method.route = some spec ∧ routeOf controller.route spec = .ok route := by
  unfold keyFor
  cases method.route with
  | none => exact ⟨nofun, nofun⟩
  | some spec =>
    simp only [Option.some.injEq, exists_eq_left']
    cases routeOf controller.route spec with
    | error _ => exact ⟨nofun, nofun⟩
    | ok _ => simp

theorem fault_iff {error : RouteError} : Fault controller method error ↔
    ∃ spec, method.route = some spec ∧ routeOf controller.route spec = .error error := by
  constructor
  · intro faulty
    cases faulty with
    | own declared failed => exact ⟨_, declared, Outcome.bind_eq_error_iff.mpr (.inl failed)⟩
    | ofType declared own ofType failed =>
      refine ⟨_, declared, Outcome.bind_eq_error_iff.mpr (.inr ⟨_, own, ?_⟩)⟩
      rw [ofType]
      exact Outcome.bind_eq_error_iff.mpr (.inl failed)
    | combination declared own ofType outer failed =>
      refine ⟨_, declared, Outcome.bind_eq_error_iff.mpr (.inr ⟨_, own, ?_⟩)⟩
      rw [ofType]
      exact Outcome.bind_eq_error_iff.mpr (.inr ⟨_, outer, failed⟩)
  · rintro ⟨spec, declared, failed⟩
    rcases Outcome.bind_eq_error_iff.mp failed with own | ⟨route, own, failed⟩
    · exact .own declared own
    · cases ofType : controller.route with
      | none =>
        rw [ofType] at failed
        cases failed
      | some outer =>
        rw [ofType] at failed
        rcases Outcome.bind_eq_error_iff.mp failed with failed | ⟨outerRoute, parsed, failed⟩
        · exact .ofType declared own ofType failed
        · exact .combination declared own ofType parsed failed

theorem keyFor_eq_error_iff {error : MappingError} : keyFor controller method = .error error ↔
    ∃ fault, Fault controller method fault ∧
      error = .invalidMapping (controller.typeName ++ "#" ++ method.name) fault.message := by
  simp only [fault_iff]
  unfold keyFor
  cases method.route with
  | none => exact ⟨nofun, nofun⟩
  | some spec =>
    simp only [Option.some.injEq, exists_eq_left']
    cases routeOf controller.route spec with
    | error _ => simp [eq_comm]
    | ok _ => exact ⟨nofun, nofun⟩

end Keys

section Detection

variable {m m' : MethodMapping Route} {config : MappingConfig} {controller : Controller}

theorem exists_keyFor (routes : m.strategy = strategy config)
    (sound : ∀ method ∈ controller.methods, ∀ fault, ¬ Fault controller method fault) :
    ∀ method ∈ controller.methods, ∃ found, m.strategy.keyFor controller method = .ok found := by
  intro method listed
  rw [routes]
  cases key : (strategy config).keyFor controller method with
  | ok found => exact ⟨found, rfl⟩
  | error error =>
    obtain ⟨fault, faulty, -⟩ := keyFor_eq_error_iff.mp key
    exact absurd faulty (sound method listed fault)

/-- A fault anywhere leaves the mapping as it was and is reported. -/
theorem detectIn_of_fault (routes : m.strategy = strategy config) (bean : Bean)
    (faulty : ∃ method ∈ controller.methods, ∃ fault, Fault controller method fault) :
    ∃ method ∈ controller.methods, ∃ fault, Fault controller method fault ∧
      m.detectIn controller bean =
        (m, .error (.invalidMapping (controller.typeName ++ "#" ++ method.name) fault.message)) := by
  obtain ⟨method, listed, fault, faulty⟩ := faulty
  have failed : (strategy config).keyFor controller method = .error _ :=
    keyFor_eq_error_iff.mpr ⟨fault, faulty, rfl⟩
  obtain ⟨first, listed', error, key, all⟩ := MethodMapping.keyedMethods_eq_error listed failed
  obtain ⟨fault', faulty', rfl⟩ := keyFor_eq_error_iff.mp key
  exact ⟨first, listed', fault', faulty', by rw [MethodMapping.detectIn, routes, all]⟩

/-- Registering the mapped methods of a sound controller binds every method that declares a route. -/
theorem bound_of_registerEach (routes : m.strategy = strategy config)
    (sound : ∀ method ∈ controller.methods, ∀ fault, ¬ Fault controller method fault) {bean : Bean}
    (registered : m.registerEach (MethodMapping.mappedMethods m.strategy controller bean) = .ok m')
    {method : ControllerMethod} (listed : method ∈ controller.methods) {spec : RouteSpec}
    (declared : method.route = some spec) :
    ∃ route r, routeOf controller.route spec = .ok route ∧
      m'.registry.registration? route = some r ∧
      (r.handler == MethodMapping.handlerMethod bean controller.typeName
        (MethodMapping.withTypeCors controller method)) = true := by
  cases combined : routeOf controller.route spec with
  | error fault => exact absurd (fault_iff.mpr ⟨spec, declared, combined⟩) (sound method listed fault)
  | ok route =>
    have key : m.strategy.keyFor controller method = .ok (some route) := by
      rw [routes]
      exact keyFor_eq_some_iff.mpr ⟨spec, declared, combined⟩
    have mapped : (route, MethodMapping.handlerMethod bean controller.typeName
        (MethodMapping.withTypeCors controller method)) ∈
          MethodMapping.mappedMethods m.strategy controller bean :=
      List.mem_filterMap.mpr ⟨method, listed, by rw [MethodMapping.mapped?, key]⟩
    obtain ⟨r, bound, same⟩ := MethodMapping.exists_registration?_of_registerEach registered mapped
    exact ⟨route, r, rfl, bound, same⟩

/-- Scanning a controller leaves the mapping with a prefix of its mapped methods.

A bean that stands for no controller, and a fault in the route of any of its methods, leave the mapping
as it was.  When all routes are sound and scanning fails all the same, it is because a mapped method
was refused: then the mapping is what registering the methods before it makes, and everything that is
registered was so before or is one of these.  When scanning succeeds, all mapped methods are
registered, and every method that declares a route is bound under the route combined with that of
its controller. -/
theorem detect_leaves_prefix (routes : m.strategy = strategy config) (bean : Bean) :
    (∀ error, m.controllerOf bean = .error error → m.detect bean = (m, .error error)) ∧
    ∀ controller, m.controllerOf bean = .ok controller →
      let mapped := MethodMapping.mappedMethods m.strategy controller bean
      ((∃ method ∈ controller.methods, ∃ fault, Fault controller method fault) →
        ∃ method ∈ controller.methods, ∃ fault, Fault controller method fault ∧ m.detect bean =
          (m, .error (.invalidMapping (controller.typeName ++ "#" ++ method.name) fault.message))) ∧
      ((∀ method ∈ controller.methods, ∀ fault, ¬ Fault controller method fault) →
        ∀ m' error, m.detect bean = (m', .error error) →
          ∃ before route handler behind, mapped = before ++ (route, handler) :: behind ∧
            m.registerEach before = .ok m' ∧ m'.register route handler = .error error ∧
            ∀ r ∈ m'.registry.registrations,
              r ∈ m.registry.registrations ∨ (r.mapping, r.handler) ∈ before) ∧
      ∀ m' count, m.detect bean = (m', .ok count) →
        m.registerEach mapped = .ok m' ∧ count = mapped.length ∧
        ∀ method ∈ controller.methods, ∀ spec, method.route = some spec →
          ∃ route r, routeOf controller.route spec = .ok route ∧
            m'.registry.registration? route = some r ∧
            (r.handler == MethodMapping.handlerMethod bean controller.typeName
              (MethodMapping.withTypeCors controller method)) = true := by
  refine ⟨fun error unresolved => by rw [MethodMapping.detect_eq, unresolved], ?_⟩
  intro controller resolved mapped
  rw [MethodMapping.detect_of_controllerOf resolved]
  refine ⟨detectIn_of_fault routes bean, fun sound m' error failed => ?_, fun m' count done => ?_⟩
  · rcases MethodMapping.detectIn_cases bean (exists_keyFor routes sound) with ⟨_, -, scanned⟩ |
      ⟨before, route, handler, behind, _, _, cut, registered, refused, scanned⟩
    · rw [failed] at scanned
      cases scanned
    · rw [failed] at scanned
      cases scanned
      exact ⟨before, route, handler, behind, cut, registered, refused,
        fun r live => MethodMapping.mem_registrations_of_registerEach registered live⟩
  · have sound : ∀ method ∈ controller.methods, ∀ fault, ¬ Fault controller method fault := by
      intro method listed fault faulty
      obtain ⟨_, -, _, -, failed⟩ := detectIn_of_fault routes bean ⟨method, listed, fault, faulty⟩
      rw [done] at failed
      cases failed
    rcases MethodMapping.detectIn_cases bean (exists_keyFor routes sound) with
      ⟨_, registered, scanned⟩ | ⟨_, _, _, _, _, _, -, -, -, scanned⟩
    · rw [done] at scanned
      cases scanned
      refine ⟨registered, rfl, fun method listed spec declared => ?_⟩
      exact bound_of_registerEach routes sound registered listed declared
    · rw [done] at scanned
      cases scanned

/-- A route that does not parse keeps the method before it from being registered; a route that is taken
leaves the method before it registered and nothing else. -/
theorem detect_broken_and_taken :
    let m := mapping .standard
    let users : ControllerMethod := ⟨"users", some (RouteSpec.empty.withPath "/users"), none⟩
    let people : ControllerMethod := ⟨"people", some (RouteSpec.empty.withPath "/users"), none⟩
    let broken : ControllerMethod := ⟨"broken", some (RouteSpec.empty.withPath "/\x7bid"), none⟩
    let listing := fun methods : List ControllerMethod =>
      Controller.mk (.application 0) "Users" none none methods
    m.strategy = strategy .standard ∧
      (∃ error, m.detect (.controller (listing [users, broken])) = (m, .error error)) ∧
      ∃ m' error, m.detect (.controller (listing [users, people])) = (m', .error error) ∧
        ∀ r ∈ m'.registry.registrations, r.handler.method.name = "users" := by
  intro m users people broken listing
  have routes : m.strategy = strategy .standard := rfl
  have faulty : ∃ method ∈ [users, broken], ∃ fault, Fault (listing [users, broken]) method fault :=
    ⟨broken, by simp, _, .own rfl rfl⟩
  have sound : ∀ method ∈ [users, people], ∀ fault,
      ¬ Fault (listing [users, people]) method fault := by
    intro method listed fault faulty
    obtain ⟨spec, declared, failed⟩ := fault_iff.mp faulty
    have parsed : ∀ method ∈ [users, people], ∀ spec ∈ method.route,
        (routeOf none spec).isOk = true := by decide +kernel
    have made := parsed method listed spec declared
    rw [failed] at made
    cases made
  obtain ⟨-, on_fault⟩ := detect_leaves_prefix routes (.controller (listing [users, broken]))
  obtain ⟨-, on_sound⟩ := detect_leaves_prefix routes (.controller (listing [users, people]))
  obtain ⟨_, -, _, -, unchanged⟩ := (on_fault _ rfl).1 faulty
  refine ⟨routes, ⟨_, unchanged⟩, _, _, rfl, fun r live => ?_⟩
  obtain ⟨before, route, handler, behind, cut, -, -, origin⟩ := (on_sound _ rfl).2.1 sound _ _ rfl
  have names : (MethodMapping.mappedMethods m.strategy (listing [users, people])
      (.controller (listing [users, people]))).map (fun entry => entry.2.method.name) =
        ["users", "people"] := rfl
  rw [cut, List.map_append, List.map_cons] at names
  rcases origin r live with already | listed
  · cases already
  · obtain _ | ⟨first, _ | ⟨second, rest⟩⟩ := before
    · cases listed
    · rw [List.mem_singleton] at listed
      subst listed
      exact (List.cons.inj names).1
    · simp at names

end Detection

end RouteStrategy

end HttpRouting
