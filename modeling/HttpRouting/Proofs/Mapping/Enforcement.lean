import HttpRouting.Dispatch.Application
import HttpRouting.Mapping.RouteStrategy
import HttpRouting.Mapping.UrlMapping
import HttpRouting.Proofs.Cors.Process
import HttpRouting.Proofs.Registry.Invariant
import HttpRouting.Proofs.Route.Built

/-!
Policies are put in force where a request gets its handler.  A preflight never gets the handler
itself, and an actual request from another origin gets it only when the policy admits the request.
-/

set_option autoImplicit false
set_option relaxedAutoImplicit false

namespace HttpRouting

/-- A handler that leaves everything as it is and calls no other. -/
def RequestHandler.Idle (handler : RequestHandler) : Prop :=
  ∀ (app : Application) (exchange : Exchange),
    app.serveRequest handler exchange = (exchange.work, .finished (.ok ()))

theorem RequestHandler.idle_rejected : RequestHandler.rejected.Idle :=
  fun _ _ => rfl

/-- What a mapping answers to an actual request whose own handler is under a policy, where the
response was a given one before. -/
structure Enforced (policy : Option CorsConfig) (own : Handler) (request : Request)
    (before : Response) (answer : Work × Except MappingError (Option Handler)) : Prop where
  /-- There is no fault but that of a policy that cannot be put in force. -/
  faulty : ∀ error, answer.2 = .error error ↔
    ∃ config fault, policy = some config ∧ config.validate = .error fault ∧ error = .cors fault
  /-- From another origin the handler is reached only when the policy admits the request, and then
  the origin is named. -/
  reached : ∀ config, policy = some config → request.isCrossOrigin = true →
    answer.2 = .ok (some own) → ∃ allowed, config.Admits request allowed ∧
      answer.1.response.headers.values .allowOrigin = [.ofPlain allowed]
  admitted : ∀ config allowed, policy = some config → request.isCrossOrigin = true →
    config.validate = .ok () → config.Admits request allowed → answer.2 = .ok (some own)
  /-- A request that the policy does not admit gets a handler that does nothing. -/
  refused : ∀ config, policy = some config → request.isCrossOrigin = true →
    (∀ allowed, ¬ config.Admits request allowed) →
      (∃ fault, answer.2 = .error (.cors fault)) ∨
      ∃ standIn : RequestHandler, answer.2 = .ok (some (.request standIn)) ∧ standIn.Idle ∧
        answer.1.response.status = .forbidden ∧ answer.1.response.headers.NoAccessControl
  /-- Without a policy, or from the origin itself, the handler is reached as if there were none. -/
  untouched : policy = none ∨ request.isCrossOrigin = false →
    (∃ fault, answer.2 = .error (.cors fault)) ∨
    answer.2 = .ok (some own) ∧ answer.1.response.status = before.status ∧
      answer.1.response.body = before.body ∧ answer.1.response.headers.NoAccessControl

/-- What becomes of an actual request whose own handler is under a policy: the policy cannot be put
in force, it does not matter, it admits the request, or it does not. -/
inductive Guarded (policy : Option CorsConfig) (own : Handler) (request : Request)
    (before : Response) : Work × Except MappingError (Option Handler) → Prop
  | faulty {config : CorsConfig} {fault : CorsError} {work : Work} : policy = some config →
      config.validate = .error fault → Guarded policy own request before (work, .error (.cors fault))
  | passed {work : Work} : (∀ config ∈ policy, config.validate = .ok ()) →
      policy = none ∨ request.isCrossOrigin = false → work.response.status = before.status →
      work.response.body = before.body → work.response.headers.NoAccessControl →
      Guarded policy own request before (work, .ok (some own))
  | admitted {config : CorsConfig} {allowed : String} {work : Work} : policy = some config →
      config.validate = .ok () → request.isCrossOrigin = true → config.Admits request allowed →
      work.response.headers.values .allowOrigin = [.ofPlain allowed] →
      Guarded policy own request before (work, .ok (some own))
  | refused {config : CorsConfig} {work : Work} : policy = some config →
      config.validate = .ok () → request.isCrossOrigin = true →
      (∀ allowed, ¬ config.Admits request allowed) → work.response.status = .forbidden →
      work.response.headers.NoAccessControl →
      Guarded policy own request before (work, .ok (some (.request .rejected)))

variable {own : Handler} {policy : Option CorsConfig} {request : Request} {work : Work}

namespace Guarded

variable {before : Response} {answer : Work × Except MappingError (Option Handler)}

theorem of_none (fresh : work.response.headers.NoAccessControl) :
    Guarded none own request work.response (work, .ok (some own)) := by
  refine .passed ?_ (.inl rfl) rfl rfl fresh
  intro config declared
  cases declared

theorem error_iff (guarded : Guarded policy own request before answer) (error : MappingError) :
    answer.2 = .error error ↔ ∃ config fault, policy = some config ∧
      config.validate = .error fault ∧ error = .cors fault := by
  constructor
  · intro fails
    cases guarded with
    | faulty declared invalid =>
      cases fails
      exact ⟨_, _, declared, invalid, rfl⟩
    | passed => cases fails
    | admitted => cases fails
    | refused => cases fails
  · rintro ⟨config, fault, declared, invalid, rfl⟩
    have faulty {config' : CorsConfig} (valid : config'.validate = .ok ())
        (declared' : policy = some config') : False := by
      cases declared.symm.trans declared'
      cases invalid.symm.trans valid
    cases guarded with
    | faulty declared' invalid' =>
      cases declared.symm.trans declared'
      cases invalid.symm.trans invalid'
      rfl
    | passed valid => exact (faulty (valid config declared) declared).elim
    | admitted declared' valid => exact (faulty valid declared').elim
    | refused declared' valid => exact (faulty valid declared').elim

theorem enforced (guarded : Guarded policy own request before answer)
    (apart : own ≠ .request .rejected) : Enforced policy own request before answer where
  faulty := guarded.error_iff
  reached config declared cross found := by
    cases guarded with
    | faulty => cases found
    | passed _ here =>
      rcases here with undeclared | same
      · cases declared.symm.trans undeclared
      · cases cross.symm.trans same
    | admitted declared' _ _ admits named =>
      cases declared.symm.trans declared'
      exact ⟨_, admits, named⟩
    | refused => exact (apart (by cases found; rfl)).elim
  admitted config allowed declared cross valid admits := by
    cases guarded with
    | faulty declared' invalid =>
      cases declared.symm.trans declared'
      cases invalid.symm.trans valid
    | passed => rfl
    | admitted => rfl
    | refused declared' _ _ denied =>
      cases declared.symm.trans declared'
      exact (denied allowed admits).elim
  refused config declared cross denied := by
    cases guarded with
    | faulty => exact .inl ⟨_, rfl⟩
    | passed _ here =>
      rcases here with undeclared | same
      · cases declared.symm.trans undeclared
      · cases cross.symm.trans same
    | admitted declared' _ _ admits =>
      cases declared.symm.trans declared'
      exact (denied _ admits).elim
    | refused _ _ _ _ forbidden unnamed =>
      exact .inr ⟨.rejected, rfl, RequestHandler.idle_rejected, forbidden, unnamed⟩
  untouched here := by
    have across {config : CorsConfig} (declared : policy = some config)
        (cross : request.isCrossOrigin = true) : False := by
      rcases here with undeclared | same
      · cases declared.symm.trans undeclared
      · cases cross.symm.trans same
    cases guarded with
    | faulty => exact .inl ⟨_, rfl⟩
    | passed _ _ status body unnamed => exact .inr ⟨rfl, status, body, unnamed⟩
    | admitted declared _ cross => exact (across declared cross).elim
    | refused declared _ cross => exact (across declared cross).elim

end Guarded

namespace Handler

theorem underCheckedPolicy_of_isPreflight (asks : request.isPreflight = true) {handler : Handler}
    (found : (own.underCheckedPolicy policy request work).2 = .ok (some handler)) :
    handler = .request (.preflight policy) := by
  simp only [underCheckedPolicy, underPolicy, asks, if_true] at found
  split at found
  · cases found
  · cases found
    rfl

theorem underCheckedPolicy_of_valid (valid : ∀ config ∈ policy, config.validate = .ok ())
    (actual : request.isPreflight = false) {accepted : Bool} {response : Response}
    (processed : Cors.process policy request work.response = (accepted, response)) :
    own.underCheckedPolicy policy request work =
      ({ work with response }, .ok (some (if accepted = true then own else .request .rejected))) := by
  have under : own.underPolicy policy request work =
      ({ work with response }, if accepted = true then own else .request .rejected) := by
    simp only [underPolicy, actual, Bool.false_eq_true, if_false, processed]
  cases policy with
  | none => simp only [underCheckedPolicy, Option.map_none, under]
  | some config => simp only [underCheckedPolicy, Option.map_some, valid config rfl, under]

theorem guarded_underCheckedPolicy (actual : request.isPreflight = false)
    (fresh : work.response.headers.NoAccessControl) :
    Guarded policy own request work.response (own.underCheckedPolicy policy request work) := by
  by_cases valid : ∀ config ∈ policy, config.validate = .ok ()
  · by_cases here : policy = none ∨ request.isCrossOrigin = false
    · rw [underCheckedPolicy_of_valid valid actual (Cors.process_of_not_isCrossOrigin here), if_pos rfl]
      exact .passed valid here rfl rfl (Cors.noAccessControl_addVary fresh)
    · rw [not_or, Bool.not_eq_false] at here
      obtain ⟨declared, cross⟩ := here
      obtain ⟨config, rfl⟩ := Option.ne_none_iff_exists'.mp declared
      by_cases admitted : ∃ allowed, config.Admits request allowed
      · obtain ⟨allowed, admits⟩ := admitted
        obtain ⟨headers, processed, named⟩ := Cors.process_of_admits actual cross fresh admits
        rw [underCheckedPolicy_of_valid valid actual processed, if_pos rfl]
        exact .admitted rfl (valid config rfl) cross admits named
      · have denied := not_exists.mp admitted
        have processed := Cors.process_of_not_admits actual cross fresh denied
        rw [underCheckedPolicy_of_valid valid actual processed, if_neg Bool.false_ne_true]
        exact .refused rfl (valid config rfl) cross denied rfl
          (Cors.noAccessControl_reject (Cors.noAccessControl_addVary fresh))
  · simp only [not_forall] at valid
    obtain ⟨config, declared, invalid⟩ := valid
    cases checked : config.validate with
    | ok => exact (invalid checked).elim
    | error fault =>
      rw [Option.mem_def] at declared
      have fails : own.underCheckedPolicy policy request work = (work, .error (.cors fault)) := by
        simp only [underCheckedPolicy, declared, Option.map_some, checked]
      rw [fails]
      exact .faulty declared checked

end Handler

namespace MethodMapping

variable {κ : Type}

/-- The policy declared for a handler method: the one of the mapping combined with its own. -/
def declaredPolicy (m : MethodMapping κ) (handler : HandlerMethod) : Option CorsConfig :=
  match m.globalCors, m.registry.policy? handler with
  | some outer, some inner => some (outer.combine inner)
  | some outer, none => some outer
  | none, inner => inner

/-- The policy in force for a handler method.  For the method that stands for several, if it was
registered itself, everything is allowed in place of the policy of the mapping. -/
def inForce (m : MethodMapping κ) (handler : HandlerMethod) : Option CorsConfig :=
  if handler == .ambiguousPreflight then m.globalCors.map fun _ => .allowAll
  else m.declaredPolicy handler

theorem hasPolicy_eq (m : MethodMapping κ) (handler : HandlerMethod) :
    m.hasPolicy handler = (m.inForce handler).isSome := by
  simp only [hasPolicy, inForce, declaredPolicy]
  cases handler == HandlerMethod.ambiguousPreflight <;> cases m.globalCors <;>
    cases m.registry.policy? handler <;> rfl

theorem policyFor_eq {m : MethodMapping κ} {handler : HandlerMethod}
    (declared : m.hasPolicy handler = true) : m.policyFor handler = m.inForce handler := by
  by_cases stands : (handler == .ambiguousPreflight) = true
  · obtain ⟨outer, global⟩ : ∃ outer, m.globalCors = some outer := by
      simpa [hasPolicy, stands, Option.isSome_iff_exists] using declared
    simp only [policyFor, inForce, stands, if_true, global, Option.map_some]
  · have own : m.policyFor handler = m.declaredPolicy handler := by
      rw [policyFor, if_neg stands]
      rfl
    rw [own, inForce, if_neg stands]

variable [BEq κ] {m : MethodMapping κ} {exchange : Exchange}

theorem find_of_lookup {work : Work} {looked handler : HandlerMethod}
    (found : m.lookup exchange = (work, .ok (some looked)))
    (resolved : m.resolveBean looked = .ok handler) :
    m.find exchange =
      if exchange.request.isPreflight = true ∨ m.hasPolicy handler = true then
        (Handler.method handler).underCheckedPolicy (m.policyFor handler) exchange.request work
      else (work, .ok (some (.method handler))) := by
  simp only [find, found, resolved, Bool.or_eq_true]

theorem exists_of_find {handler : Handler} (answer : (m.find exchange).2 = .ok (some handler)) :
    ∃ work looked own, m.lookup exchange = (work, .ok (some looked)) ∧
      m.resolveBean looked = .ok own := by
  simp only [find] at answer
  split at answer
  · cases answer
  · cases answer
  · next work looked found =>
    split at answer
    · cases answer
    · next own resolved => exact ⟨work, looked, own, found, resolved⟩

theorem find_of_isPreflight (asks : exchange.request.isPreflight = true) {handler : Handler}
    (answer : (m.find exchange).2 = .ok (some handler)) :
    ∃ policy, handler = .request (.preflight policy) := by
  obtain ⟨work, looked, own, found, resolved⟩ := exists_of_find answer
  rw [find_of_lookup found resolved, if_pos (.inl asks)] at answer
  exact ⟨_, Handler.underCheckedPolicy_of_isPreflight asks answer⟩

theorem enforced_find {work : Work} {looked handler : HandlerMethod}
    (found : m.lookup exchange = (work, .ok (some looked)))
    (resolved : m.resolveBean looked = .ok handler) (actual : exchange.request.isPreflight = false)
    (fresh : work.response.headers.NoAccessControl) :
    Enforced (m.inForce handler) (.method handler) exchange.request work.response
      (m.find exchange) := by
  have apart : Handler.method handler ≠ .request .rejected := nofun
  rw [find_of_lookup found resolved, actual]
  by_cases declared : m.hasPolicy handler = true
  · rw [if_pos (.inr declared), policyFor_eq declared]
    exact (Handler.guarded_underCheckedPolicy actual fresh).enforced apart
  · rw [if_neg (by simpa using declared)]
    rw [hasPolicy_eq, Option.not_isSome_iff_eq_none] at declared
    rw [declared]
    exact (Guarded.of_none fresh).enforced apart

/-- Looking up a route notes attributes only. -/
theorem response_lookup {m : MethodMapping Route} {config : MappingConfig}
    (routes : m.strategy = RouteStrategy.strategy config) (exchange : Exchange) :
    (m.lookup exchange).1.response = exchange.response := by
  simp only [lookup, lookupIn]
  cases m.selectIn exchange.request m.registry.keys with
  | best chosen =>
    simp only [settle, note, routes, RouteStrategy.strategy, RouteStrategy.expose]
    split <;> rfl
  | _ => rfl

end MethodMapping

namespace UrlMapping

variable {m : UrlMapping} {exchange : Exchange}

theorem response_choose {path : String} {work after : Work} {handler : RequestHandler}
    (chosen : m.choose path work = some (after, handler)) : after.response = work.response := by
  simp only [choose] at chosen
  split at chosen
  · cases chosen
    rfl
  · obtain ⟨_, -, same⟩ := Option.map_eq_some_iff.mp chosen
    cases same
    rfl

theorem find_of_choose {work : Work} {handler : RequestHandler}
    (chosen : m.choose exchange.request.lookupPath exchange.work = some (work, handler)) :
    m.find exchange =
      if m.cors.isSome = true ∨ exchange.request.isPreflight = true then
        (Handler.request handler).underCheckedPolicy m.cors exchange.request work
      else (work, .ok (some (.request handler))) := by
  simp only [find, chosen, Bool.or_eq_true]

theorem find_of_isPreflight (asks : exchange.request.isPreflight = true) {handler : Handler}
    (answer : (m.find exchange).2 = .ok (some handler)) :
    handler = .request (.preflight m.cors) := by
  cases chosen : m.choose exchange.request.lookupPath exchange.work with
  | none => simp [find, chosen] at answer
  | some reached =>
    rw [find_of_choose chosen, if_pos (.inr asks)] at answer
    exact Handler.underCheckedPolicy_of_isPreflight asks answer

theorem enforced_find {work : Work} {handler : RequestHandler}
    (chosen : m.choose exchange.request.lookupPath exchange.work = some (work, handler))
    (apart : handler ≠ .rejected) (actual : exchange.request.isPreflight = false)
    (fresh : work.response.headers.NoAccessControl) :
    Enforced m.cors (.request handler) exchange.request work.response (m.find exchange) := by
  have apart' : Handler.request handler ≠ .request .rejected := by simpa using apart
  rw [find_of_choose chosen, actual]
  by_cases declared : m.cors.isSome = true
  · rw [if_pos (.inl declared)]
    exact (Handler.guarded_underCheckedPolicy actual fresh).enforced apart'
  · rw [if_neg (by simpa using declared)]
    rw [Option.not_isSome_iff_eq_none] at declared
    rw [declared]
    exact (Guarded.of_none fresh).enforced apart'

end UrlMapping

/-- Both kinds of mappings put the policy of a handler in force before they answer.  A preflight is
answered in place of the handler.  For an actual request, and a response that does not answer
another origin yet, the handler that was looked up and resolved is under the policy of the mapping
combined with its own, respectively under that of the mapping. -/
theorem find_enforces_policies (m : MethodMapping Route) (config : MappingConfig)
    (routes : m.strategy = RouteStrategy.strategy config) (u : UrlMapping) (exchange : Exchange)
    (fresh : exchange.response.headers.NoAccessControl) :
    (exchange.request.isPreflight = true →
      (∀ handler, (m.find exchange).2 = .ok (some handler) →
        ∃ policy, handler = .request (.preflight policy)) ∧
      ∀ handler, (u.find exchange).2 = .ok (some handler) →
        handler = .request (.preflight u.cors)) ∧
    (exchange.request.isPreflight = false →
      (∀ looked handler, (m.lookup exchange).2 = .ok (some looked) →
        m.resolveBean looked = .ok handler →
          Enforced (m.inForce handler) (.method handler) exchange.request exchange.response
            (m.find exchange)) ∧
      ∀ work handler, u.choose exchange.request.lookupPath exchange.work = some (work, handler) →
        handler ≠ .rejected →
          Enforced u.cors (.request handler) exchange.request exchange.response
            (u.find exchange)) := by
  refine ⟨fun asks => ⟨fun handler => MethodMapping.find_of_isPreflight asks,
    fun handler => UrlMapping.find_of_isPreflight asks⟩, fun actual => ⟨?_, ?_⟩⟩
  · intro looked handler found resolved
    have same : (m.lookup exchange).1.response = exchange.response :=
      MethodMapping.response_lookup routes exchange
    rw [← same] at fresh ⊢
    exact MethodMapping.enforced_find (Prod.ext rfl found) resolved actual fresh
  · intro work handler chosen apart
    have same : work.response = exchange.response := UrlMapping.response_choose chosen
    rw [← same] at fresh ⊢
    exact UrlMapping.enforced_find chosen apart actual fresh

/-- One origin may list the users, and may not fetch what is behind the other mapping. -/
theorem find_under_two_policies :
    let strategy := RouteStrategy.strategy .standard
    let users := Route.ofPattern ⟨"/users", [.literal "users"], false⟩
    let declared := (CorsConfig.empty.allowOrigin "https://a.example").allowMethod "GET"
    let list := HandlerMethod.ofBean "users" "Users" ⟨"list", none, some declared⟩
    let m := { MethodMapping.new "routes" strategy with
      registry := Registry.reached none [.register strategy users list] }
    let u := { UrlMapping.new "assets" with
      fallback := some (.application 0 "assets")
      cors := some (CorsConfig.empty.allowOrigin "https://b.example") }
    let origin := (HeaderName.origin, HeaderValue.ofPlain "https://a.example")
    let exchange := Exchange.ofRequest ⟨⟨[]⟩, .get, "/users", [], ⟨[origin]⟩, []⟩
    exchange.response.headers.NoAccessControl ∧
      (m.find exchange).2 = .ok (some (.method list)) ∧
      (∃ allowed, declared.withDefaults.Admits exchange.request allowed ∧
        (m.find exchange).1.response.headers.values .allowOrigin = [.ofPlain allowed]) ∧
      ∃ standIn : RequestHandler, (u.find exchange).2 = .ok (some (.request standIn)) ∧
        standIn.Idle ∧ (u.find exchange).1.response.status = .forbidden := by
  intro strategy users declared list m u origin exchange
  have fresh : exchange.response.headers.NoAccessControl := by decide
  have cross : exchange.request.isCrossOrigin = true := by decide +kernel
  have named : exchange.request.header? .origin = some "https://a.example" := by decide +kernel
  obtain ⟨-, actual⟩ := find_enforces_policies m .standard rfl u exchange fresh
  obtain ⟨methods, requests⟩ := actual (by decide +kernel)
  have looked : (m.lookup exchange).2 = .ok (some list) :=
    Outcome.toOption_eq_some_iff.mp (by decide +kernel)
  have ofMethod := methods list list looked rfl
  have inForce : m.inForce list = some declared.withDefaults := by decide +kernel
  have admits : declared.withDefaults.Admits exchange.request "https://a.example" :=
    ⟨⟨_, named, by decide +kernel⟩, by decide +kernel⟩
  have own : (m.find exchange).2 = .ok (some (.method list)) :=
    ofMethod.admitted _ _ inForce cross (by rfl) admits
  refine ⟨fresh, own, ofMethod.reached _ inForce cross own, ?_⟩
  have ofRequest := requests _ (.application 0 "assets") rfl (by decide)
  have denied (allowed : String) :
      ¬ (CorsConfig.empty.allowOrigin "https://b.example").Admits exchange.request allowed := by
    rintro ⟨⟨origin, named', checked⟩, -⟩
    cases named.symm.trans named'
    have unchecked : (CorsConfig.empty.allowOrigin "https://b.example").checkOrigin
        "https://a.example" = none := by decide +kernel
    cases unchecked.symm.trans checked
  rcases ofRequest.refused _ rfl cross denied with ⟨fault, fails⟩ | ⟨standIn, answer, idle, status, -⟩
  · obtain ⟨_, _, declared', invalid, -⟩ := (ofRequest.faulty _).mp fails
    cases declared'
    cases invalid
  · exact ⟨standIn, answer, idle, status⟩

/-- The method that stands for several is not under the declared policy when it was registered itself.
With a policy of the mapping every origin reaches it, and without one no policy is looked at. -/
theorem find_registered_stand_in :
    let strategy := RouteStrategy.strategy .standard
    let users := Route.ofPattern ⟨"/users", [.literal "users"], false⟩
    let policy := (CorsConfig.empty.allowOrigin "https://a.example").allowMethod "GET"
    let own := { HandlerMethod.ambiguousPreflight with method := ⟨"handle", none, some policy⟩ }
    let registered := fun handler => { MethodMapping.new "routes" strategy with
      registry := Registry.reached none [.register strategy users handler] }
    let m := { registered .ambiguousPreflight with globalCors := some policy }
    let origin := (HeaderName.origin, HeaderValue.ofPlain "https://b.example")
    let exchange := Exchange.ofRequest ⟨⟨[]⟩, .get, "/users", [], ⟨[origin]⟩, []⟩
    exchange.response.headers.NoAccessControl ∧ exchange.request.isPreflight = false ∧
      exchange.request.isCrossOrigin = true ∧
      (∀ allowed, ¬ policy.Admits exchange.request allowed ∧
        ¬ policy.withDefaults.Admits exchange.request allowed) ∧
      m.declaredPolicy .ambiguousPreflight = some policy ∧
      (m.find exchange).2 = .ok (some (.method .ambiguousPreflight)) ∧
      (registered own).declaredPolicy own = some policy.withDefaults ∧
      ((registered own).find exchange).2 = .ok (some (.method own)) := by
  intro strategy users policy own registered m origin exchange
  have fresh : exchange.response.headers.NoAccessControl := by decide
  have actual : exchange.request.isPreflight = false := by decide +kernel
  have cross : exchange.request.isCrossOrigin = true := by decide +kernel
  have named : exchange.request.header? .origin = some "https://b.example" := by decide +kernel
  have denied (allowed : String) : ¬ policy.Admits exchange.request allowed ∧
      ¬ policy.withDefaults.Admits exchange.request allowed := by
    have unchecked : policy.checkOrigin "https://b.example" = none ∧
        policy.withDefaults.checkOrigin "https://b.example" = none := by decide +kernel
    constructor <;> rintro ⟨⟨origin, named', checked⟩, -⟩ <;> cases named.symm.trans named'
    · cases unchecked.1.symm.trans checked
    · cases unchecked.2.symm.trans checked
  have open_to_all : CorsConfig.allowAll.Admits exchange.request "https://b.example" :=
    ⟨⟨_, named, by decide +kernel⟩, by decide +kernel⟩
  have reached : (m.find exchange).2 = .ok (some (.method .ambiguousPreflight)) := by
    have found : (m.lookup exchange).2 = .ok (some .ambiguousPreflight) :=
      Outcome.toOption_eq_some_iff.mp (by decide +kernel)
    have same : (m.lookup exchange).1.response = exchange.response :=
      MethodMapping.response_lookup rfl exchange
    have enforced := MethodMapping.enforced_find (Prod.ext rfl found) rfl actual (same ▸ fresh)
    exact enforced.admitted .allowAll _ (by decide +kernel) cross (by rfl) open_to_all
  have unguarded : ((registered own).find exchange).2 = .ok (some (.method own)) := by
    have found : ((registered own).lookup exchange).2 = .ok (some own) :=
      Outcome.toOption_eq_some_iff.mp (by decide +kernel)
    rw [MethodMapping.find_of_lookup (Prod.ext rfl found) rfl, if_neg (by decide +kernel)]
  exact ⟨fresh, actual, cross, denied, by decide +kernel, reached, by decide +kernel, unguarded⟩

end HttpRouting
