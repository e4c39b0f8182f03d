import HttpRouting.Cors.Process
import HttpRouting.Mapping.Registry
import HttpRouting.Sorting

/-!
Mappings from requests to methods of controllers: handler methods are found by scanning
controllers, and the best registration for a request is looked up among the keys that match its
path literally, and if none of these matches, among all keys.
-/

set_option autoImplicit false
set_option relaxedAutoImplicit false

namespace HttpRouting

/-- A mapping to methods of controllers.  Names of beans are replaced by instances when it has a
registry of beans, and the global policy is combined with that of a handler method. -/
structure MethodMapping (κ : Type) where
  name : String
  strategy : MappingStrategy κ
  naming : Option (Naming κ)
  registry : Registry κ
  beans : Option BeanRegistry
  globalCors : Option CorsConfig

/-- A registration that matches a request, with its key narrowed to what matched. -/
structure Candidate (κ : Type) where
  narrowed : κ
  registration : Registration κ

/-- What a look-up comes to: no key matches, with what the strategy makes of that; several keys fit
equally well, which is an error except for some preflights; or the best registration. -/
inductive Selection (κ : Type) where
  | miss (answer : Except MappingError (Option HandlerMethod))
  | ambiguousPreflight
  | ambiguous (error : MappingError)
  | best (candidate : Candidate κ)

namespace MethodMapping

variable {κ : Type} [BEq κ]

/-- A mapping without registrations, names, beans and a global policy. -/
def new (name : String) (strategy : MappingStrategy κ) : MethodMapping κ :=
  ⟨name, strategy, none, .empty, none, none⟩

/-- Bind a key to a handler method. -/
def register (m : MethodMapping κ) (key : κ) (handler : HandlerMethod) :
    Except MappingError (MethodMapping κ) :=
  (m.registry.register m.strategy m.naming key handler).map fun registry => { m with registry }

/-- Release a key. -/
def unregister (m : MethodMapping κ) (key : κ) : MethodMapping κ :=
  { m with registry := m.registry.unregister key }

/-- A method of a controller with its policy combined into that of the controller. -/
def withTypeCors (controller : Controller) (method : ControllerMethod) : ControllerMethod :=
  match controller.cors, method.cors with
  | some outer, some inner => { method with cors := some (outer.combine inner) }
  | some outer, none => { method with cors := some outer }
  | none, _ => method

/-- The methods of a controller that have a key, each with its key. -/
def keyedMethods (strategy : MappingStrategy κ) (controller : Controller) :
    List ControllerMethod → Except MappingError (List (κ × ControllerMethod))
  | [] => .ok []
  | method :: rest =>
    match strategy.keyFor controller method with
    | .error error => .error error
    | .ok none => keyedMethods strategy controller rest
    | .ok (some key) =>
      (keyedMethods strategy controller rest).map ((key, withTypeCors controller method) :: ·)

/-- Register methods one after the other; a failure keeps those before it. -/
def registerAll (m : MethodMapping κ) : List (κ × HandlerMethod) →
    MethodMapping κ × Except MappingError Unit
  | [] => (m, .ok ())
  | (key, handler) :: rest =>
    match m.register key handler with
    | .error error => (m, .error error)
    | .ok m => registerAll m rest

/-- A method of a bean as a handler method. -/
def handlerMethod (bean : Bean) (typeName : String) (method : ControllerMethod) : HandlerMethod :=
  ⟨bean, typeName, method, none⟩

/-- Register the methods of a controller under a bean, and count them. -/
def detectIn (m : MethodMapping κ) (controller : Controller) (bean : Bean) :
    MethodMapping κ × Except MappingError Nat :=
  match keyedMethods m.strategy controller controller.methods with
  | .error error => (m, .error error)
  | .ok methods =>
    let handlers := methods.map fun (key, method) =>
      (key, handlerMethod bean controller.typeName method)
    let (m, result) := m.registerAll handlers
    (m, result.map fun _ => methods.length)

/-- Register the methods of one bean; a name needs a registry of beans. -/
def detect (m : MethodMapping κ) (bean : Bean) : MethodMapping κ × Except MappingError Nat :=
  match bean with
  | .controller controller => m.detectIn controller bean
  | .named name =>
    match m.beans with
    | none => (m, .error (.invalidMapping name "named handler without a bean resolver"))
    | some beans =>
      match beans.resolve name with
      | .error error => (m, .error (.bean error))
      | .ok controller => m.detectIn controller bean

/-- The beginning of the names of beans that stand behind other beans and are not scanned. -/
def scopedTarget : List Char := "scopedTarget.".toList

/-- Register the methods of named beans one after the other. -/
def detectBeans (m : MethodMapping κ) (beans : BeanRegistry) : List String →
    MethodMapping κ × Except MappingError Unit
  | [] => (m, .ok ())
  | name :: rest =>
    if scopedTarget.isPrefixOf name.toList then detectBeans m beans rest
    else
      match beans.resolve name with
      | .error error => (m, .error (.bean error))
      | .ok controller =>
        if m.strategy.isHandler controller then
          match m.detectIn controller (.named name) with
          | (m, .error error) => (m, .error error)
          | (m, .ok _) => detectBeans m beans rest
        else detectBeans m beans rest

/-- Register the methods of all beans, in the order of their names. -/
def detectAll (m : MethodMapping κ) (beans : BeanRegistry) :
    MethodMapping κ × Except MappingError Unit :=
  m.detectBeans beans beans.names

/-- The registrations of given keys that match a request. -/
def candidates (m : MethodMapping κ) (request : Request) (path : String) (keys : List κ) :
    List (Candidate κ) :=
  keys.filterMap fun key =>
    match m.strategy.narrow key request path, m.registry.registration? key with
    | some narrowed, some registration => some ⟨narrowed, registration⟩
    | _, _ => none

/-- The candidates for a request: those whose keys match the path literally, or if there are none,
those among all the keys in a given order. -/
def matchesIn (m : MethodMapping κ) (request : Request) (path : String) (order : List κ) :
    List (Candidate κ) :=
  match m.candidates request path (m.registry.keysAt path) with
  | [] => m.candidates request path order
  | found => found

/-- Pick the best of the candidates, which is an error when the next one is as good. -/
def pick (m : MethodMapping κ) (request : Request) (path : String) (found : List (Candidate κ)) :
    Option (Selection κ) :=
  let better := fun (a b : Candidate κ) => m.strategy.compare a.narrowed b.narrowed request path
  match Sorting.sortBy better found with
  | [] => none
  | [best] => some (.best best)
  | best :: second :: _ =>
    if better best second = .eq then
      if request.isPreflight && found.any fun c => c.registration.hasCors then
        some .ambiguousPreflight
      else
        some (.ambiguous (.ambiguousHandler path best.registration.handler.text
          second.registration.handler.text))
    else some (.best best)

/-- Look up a request, the keys being tried in a given order. -/
def selectIn (m : MethodMapping κ) (request : Request) (order : List κ) : Selection κ :=
  let path := m.strategy.lookupPath request
  match m.pick request path (m.matchesIn request path order) with
  | some selection => selection
  | none => .miss (m.strategy.onMiss order path request)

/-- Note the chosen registration on the exchange. -/
def note (m : MethodMapping κ) (path : String) (chosen : Candidate κ) (work : Work) : Work :=
  (((m.strategy.expose chosen.narrowed path work).setAttribute
    Attributes.bestHandler (.handler chosen.registration.handler)).setAttribute
    Attributes.bestMapping (m.strategy.asAttribute chosen.narrowed)).setAttribute
    Attributes.pathWithinMapping (.text path)

/-- What a look-up leaves on the exchange, and what it answers. -/
def settle (m : MethodMapping κ) (exchange : Exchange) :
    Selection κ → Work × Except MappingError (Option HandlerMethod)
  | .miss answer => (exchange.work, answer)
  | .ambiguousPreflight => (exchange.work, .ok (some .ambiguousPreflight))
  | .ambiguous error => (exchange.work, .error error)
  | .best chosen =>
    (m.note (m.strategy.lookupPath exchange.request) chosen exchange.work,
      .ok (some chosen.registration.handler))

/-- Find the handler method of a request, the keys being tried in a given order. -/
def lookupIn (m : MethodMapping κ) (order : List κ) (exchange : Exchange) :
    Work × Except MappingError (Option HandlerMethod) :=
  m.settle exchange (m.selectIn exchange.request order)

/-- Find the handler method of a request. -/
def lookup (m : MethodMapping κ) (exchange : Exchange) :
    Work × Except MappingError (Option HandlerMethod) :=
  m.lookupIn m.registry.keys exchange

/-- The policy in force for a handler method. -/
def policyFor (m : MethodMapping κ) (handler : HandlerMethod) : Option CorsConfig :=
  if handler == .ambiguousPreflight then some .allowAll
  else
    match m.globalCors, m.registry.policy? handler with
    | some outer, some own => some (outer.combine own)
    | some outer, none => some outer
    | none, own => own

/-- Whether some policy is declared for a handler method. -/
def hasPolicy (m : MethodMapping κ) (handler : HandlerMethod) : Bool :=
  m.globalCors.isSome
    || (!(handler == .ambiguousPreflight) && (m.registry.policy? handler).isSome)

/-- Replace the name of a bean, if the mapping knows beans. -/
def resolveBean (m : MethodMapping κ) (handler : HandlerMethod) :
    Except MappingError HandlerMethod :=
  match m.beans with
  | none => .ok handler
  | some beans => (handler.resolveBean beans).mapError .bean

end MethodMapping

/-- Put a policy in force for a handler: a preflight is answered in place of the handler, and a
refused request gets a handler that leaves the response as it is. -/
def Handler.underPolicy (handler : Handler) (policy : Option CorsConfig) (request : Request)
    (work : Work) : Work × Handler :=
  if request.isPreflight then (work, .request (.preflight policy))
  else
    let (accepted, response) := Cors.process policy request work.response
    ({ work with response }, if accepted then handler else .request .rejected)

/-- Check a policy before it is put in force for a handler. -/
def Handler.underCheckedPolicy (handler : Handler) (policy : Option CorsConfig) (request : Request)
    (work : Work) : Work × Except MappingError (Option Handler) :=
  match policy.map CorsConfig.validate with
  | some (.error error) => (work, .error (.cors error))
  | _ =>
    let (work, handler) := handler.underPolicy policy request work
    (work, .ok (some handler))

namespace MethodMapping

variable {κ : Type} [BEq κ]

/-- Find the handler of a request, with its policy in force. -/
def find (m : MethodMapping κ) (exchange : Exchange) :
    Work × Except MappingError (Option Handler) :=
  match m.lookup exchange with
  | (work, .error error) => (work, .error error)
  | (work, .ok none) => (work, .ok none)
  | (work, .ok (some handler)) =>
    match m.resolveBean handler with
    | .error error => (work, .error error)
    | .ok handler =>
      if exchange.request.isPreflight || m.hasPolicy handler then
        (Handler.method handler).underCheckedPolicy (m.policyFor handler) exchange.request work
      else (work, .ok (some (.method handler)))

/-- The mapping as one of those that a dispatcher asks. -/
def toHandlerMapping (m : MethodMapping κ) : HandlerMapping :=
  ⟨m.name, m.find⟩

end MethodMapping

end HttpRouting
