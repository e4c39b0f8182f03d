import HttpRouting.Config.Basic
import HttpRouting.Mapping.MethodMapping
import HttpRouting.Route.Order
import HttpRouting.Route.Printer

/-!
The strategy whose keys are routes.  A request that matches no route although a pattern matches its
path is told which condition stands in the way; a question for the methods of a path is answered.
-/

set_option autoImplicit false
set_option relaxedAutoImplicit false

namespace HttpRouting.RouteStrategy

/-- A controller is looked at when it declares a route for itself or for one of its methods. -/
def isHandler (controller : Controller) : Bool :=
  controller.route.isSome || controller.methods.any fun method => method.route.isSome

/-- The route of a method, combined with that of its controller. -/
def routeOf (controllerRoute : Option RouteSpec) (methodRoute : RouteSpec) :
    Except RouteError Route := do
  let inner ← Route.ofSpec methodRoute
  match controllerRoute with
  | none => return inner
  | some spec =>
    let outer ← Route.ofSpec spec
    outer.combine inner

/-- The key of a method; a method that declares no route has none. -/
def keyFor (controller : Controller) (method : ControllerMethod) :
    Except MappingError (Option Route) :=
  match method.route with
  | none => .ok none
  | some spec =>
    match routeOf controller.route spec with
    | .ok route => .ok (some route)
    | .error error =>
      .error (.invalidMapping (controller.typeName ++ "#" ++ method.name) error.message)

/-- The path of a request by which routes are looked up. -/
def lookupPath (config : MappingConfig) (request : Request) : String :=
  if config.dropSemicolonContent then request.lookupPath else request.decodedPath

/-- A request as routes see it. -/
def context (config : MappingConfig) (request : Request) (path : String) : RequestContext :=
  ⟨request, path, config.lenientTrailingSlash⟩

/-- Note the best pattern and what it binds. -/
def expose (config : MappingConfig) (route : Route) (path : String) (work : Work) : Work :=
  match route.patterns with
  | [] => work
  | pattern :: _ =>
    (work.setAttribute Attributes.bestPattern (.text pattern.source)).setAttribute
      Attributes.pathVariables
      (.bindings ((pattern.match? path config.lenientTrailingSlash).getD []))

/-- The entries of several lists, each once, in the order of their first occurrence. -/
def collect {α : Type} [BEq α] (lists : List (List α)) : List α :=
  lists.flatten.foldl (fun seen x => if seen.contains x then seen else seen ++ [x]) []

/-- The methods that a path without declared methods supports. -/
def anyMethod : List Method :=
  [.get, .head, .post, ⟨"PUT"⟩, ⟨"PATCH"⟩, ⟨"DELETE"⟩, .options]

/-- The methods to answer with: those declared, with the head of what can be got, and options. -/
def supportedMethods (declared : List Method) : List Method :=
  if declared.isEmpty then anyMethod
  else
    let withHead :=
      if declared.contains .get && !declared.contains .head then declared ++ [.head] else declared
    if withHead.contains .options then withHead else withHead ++ [.options]

/-- The names of the methods to answer with. -/
def allowText (declared : List Method) : String :=
  ",".intercalate ((supportedMethods declared).map Method.name)

/-- Why routes whose patterns match do not match as a whole.  The conditions are gone through in
turn, each among the routes that satisfy those before it, and the first that no route satisfies is
the reason. -/
def missReason (context : RequestContext) (partials : List Route) :
    Except MappingError (Option HandlerMethod) :=
  let methods := partials.filter fun r => (Route.narrowMethods context r.methods).isSome
  let consumes := methods.filter fun r => (Route.narrowConsumes context r.consumes).isSome
  let produces := consumes.filter fun r => (Route.narrowProduces context r.produces).isSome
  if methods.isEmpty then
    let allowed := collect (partials.map Route.methods)
    if context.request.method == .options then
      .ok (some (.allowedMethods context.request.uuid (allowText allowed)))
    else .error (.methodNotAllowed context.request.method allowed)
  else if consumes.isEmpty then
    .error (.unsupportedMediaType
      (context.request.contentType?.getD "application/octet-stream")
      (collect (methods.map fun r => (MediaExpression.mediaTypes r.consumes).map MediaType.text)))
  else if produces.isEmpty then
    .error (.notAcceptable
      (collect (consumes.map fun r => (MediaExpression.mediaTypes r.produces).map MediaType.text)))
  else if produces.any fun r => (Route.narrowParams context r.params).isSome then .ok none
  else
    .error (.unsatisfiedParams (collect (produces.map fun r => [Route.expressionsText r.params])))

/-- What follows when no route matches: only routes with a pattern that matches the path count. -/
def onMiss (config : MappingConfig) (routes : List Route) (path : String) (request : Request) :
    Except MappingError (Option HandlerMethod) :=
  let context := context config request path
  match routes.filter fun r => (Route.narrowPatterns context r.patterns).isSome with
  | [] => .ok none
  | partials => missReason context partials

/-- The policy that a method declares, with open fields set: the allowed methods to those of the
route, and all else to the defaults. -/
def corsFor (handler : HandlerMethod) (route : Route) :
    Except MappingError (Option CorsConfig) :=
  match handler.method.cors with
  | none => .ok none
  | some declared =>
    let withMethods :=
      if declared.allowedMethods.isNone then
        route.methods.foldl (fun config method => config.allowMethod method.name) declared
      else declared
    let config := withMethods.withDefaults
    match config.validate with
    | .error error => .error (.cors error)
    | .ok () => .ok (some config)

/-- The strategy under given settings. -/
def strategy (config : MappingConfig) : MappingStrategy Route :=
  { isHandler
    keyFor
    directPaths := Route.directPaths
    lookupPath := lookupPath config
    narrow := fun route request path => route.narrow (context config request path)
    compare := fun a b request path => Route.compareFor (context config request path) a b
    expose := expose config
    onMiss := onMiss config
    corsFor
    asAttribute := .route
    text := Route.text }

/-- The name of a mapping: the one declared for the route, or the capitals of the short type name
and the name of the method joined by a number sign. -/
def standardName (handler : HandlerMethod) (route : Route) : String :=
  match route.name with
  | some name => name
  | none =>
    String.ofList (handler.shortTypeName.toList.filter Char.isUpper) ++ "#" ++ handler.method.name

/-- The mapping of routes under given settings. -/
def mapping (config : MappingConfig) : MethodMapping Route :=
  { MethodMapping.new "requestMappingHandlerMapping" (strategy config) with
    naming := if config.nameMappings then some standardName else none
    globalCors := config.globalCors }

end HttpRouting.RouteStrategy
