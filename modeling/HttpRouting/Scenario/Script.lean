import HttpRouting.Dispatch.Adapter

/-!
Scripts: handlers given as data.  A script says how a handler changes the response, whether it
answers later, and how it ends; a cast is an application whose handlers follow scripts.
-/

set_option autoImplicit false
set_option relaxedAutoImplicit false

namespace HttpRouting

/-- A step at the response.  Two of them tell something: the body that is taken away, and the value
of a field. -/
inductive ResponseStep where
  | setStatus (status : Status)
  | setBody (body : Bytes)
  | sendError (status : Status) (reason : String)
  | reset
  | addHeader (name : HeaderName) (value : HeaderValue)
  | write (output : HandlerOutput)
  | takeBody
  | readHeader (name : String)

namespace ResponseStep

/-- Take a step. -/
def apply (response : Response) : ResponseStep → Response
  | .setStatus status => { response with status }
  | .setBody body => { response with body := some body }
  | .sendError status reason => response.sendError status reason
  | .reset => .blank
  | .addHeader name value => { response with headers := response.headers.append name value }
  | .write output => output.writeTo response
  | .takeBody => { response with body := none }
  | .readHeader _ => response

/-- Take steps one after the other. -/
def applyAll (steps : List ResponseStep) (work : Work) : Work :=
  { work with response := steps.foldl apply work.response }

end ResponseStep

/-- How a script ends: never, with a failure, or with an answer, which may be the boundary of the
body in parts or the name of the handler. -/
inductive ScriptEnding where
  | never
  | failure (error : HandlerError)
  | boundary
  | output (output : HandlerOutput)
  | name

/-- What a handler does. -/
structure Script where
  steps : List ResponseStep
  answersLater : Bool
  ending : ScriptEnding

namespace Script

/-- Answer with the name of the handler. -/
def plain : Script := ⟨[], false, .name⟩

/-- How a handler of a name ends. -/
def finish (script : Script) (name : String) (work : Work) : Invocation HandlerOutput :=
  match script.ending with
  | .never => .pending
  | .failure error => .finished (.error error)
  | .boundary =>
    .finished (.ok (.text ((work.attributes.text? Attributes.multipartBoundary).getD "none")))
  | .output output => .finished (.ok output)
  | .name => .finished (.ok (.text name))

/-- Follow a script as a handler of a name. -/
def run (script : Script) (name : String) (work : Work) : Work × Invocation HandlerOutput :=
  let work := ResponseStep.applyAll script.steps work
  let work := if script.answersLater then work.startAsync.2 else work
  (work, script.finish name work)

end Script

/-- A method of a controller with its script, and the time of the last change of what it answers
with. -/
structure ScriptedMethod where
  method : ControllerMethod
  script : Script
  changed : Option Instant

/-- A controller whose methods follow scripts. -/
structure ScriptedController where
  controller : Controller
  methods : List ScriptedMethod

namespace ScriptedController

/-- The script of a method. -/
def method? (c : ScriptedController) (name : String) : Option ScriptedMethod :=
  c.methods.find? fun m => m.method.name == name

/-- A controller with one method without a route and one with a route of its own. -/
def bare (number : Nat) : ScriptedController :=
  let route := (RouteSpec.empty.withPath "/bare").withMethod "GET"
  let methods : List ControllerMethod := [.plain "plain", ⟨"routed", some route, none⟩]
  { controller := ⟨.application number, "app::Bare", none, none, methods⟩
    methods := methods.map fun method => ⟨method, .plain, none⟩ }

end ScriptedController

/-- A request handler that follows a script. -/
structure ScriptedHandler where
  handler : RequestHandler
  script : Script
  changed : Option Instant

namespace ScriptedHandler

/-- A request handler that answers with its name. -/
def plain (number : Nat) (name : String) : ScriptedHandler :=
  ⟨.application number name, .plain, none⟩

/-- Serve a request: the answer goes into the response at once, unless it is to come later. -/
def serve (h : ScriptedHandler) (work : Work) : Work × Invocation Unit :=
  match h.script.run h.handler.name work with
  | (work, .pending) => (work, .pending)
  | (work, .finished (.error error)) => (work, .finished (.error error))
  | (work, .finished (.ok output)) =>
    (if work.isAsync then work else { work with response := output.writeTo work.response },
      .finished (.ok ()))

end ScriptedHandler

/-- Controllers and request handlers by their numbers. -/
structure Cast where
  controllers : List ScriptedController
  handlers : List ScriptedHandler

namespace Cast

/-- Nobody. -/
def empty : Cast := ⟨[], []⟩

/-- The script of a method of a controller. -/
def method? (cast : Cast) (number : Nat) (method : ControllerMethod) : Option ScriptedMethod :=
  (cast.controllers[number]?).bind fun c => c.method? method.name

/-- The application in which everybody follows the script. -/
def application (cast : Cast) : Application :=
  { invoke := fun number method exchange =>
      let script := ((cast.method? number method).map ScriptedMethod.script).getD .plain
      script.run method.name exchange.work
    methodChanged := fun number method _ =>
      (cast.method? number method).bind ScriptedMethod.changed
    serve := fun number exchange =>
      match cast.handlers[number]? with
      | some h => h.serve exchange.work
      | none => (exchange.work, .finished (.ok ()))
    handlerChanged := fun number _ => (cast.handlers[number]?).bind ScriptedHandler.changed }

end Cast

/-- The adapter for every handler: it answers with the text of the handler. -/
def Adapter.forAny : Adapter :=
  { supports := fun _ => true
    handle := fun exchange handler => (exchange.work, .finished (.ok (.text ("any:" ++ handler.text))))
    lastModified := fun _ _ => none }

end HttpRouting
