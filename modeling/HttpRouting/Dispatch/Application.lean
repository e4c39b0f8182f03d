import HttpRouting.Cors.Process
import HttpRouting.Exchange

/-!
Invoking handlers.  What the methods of controllers and the request handlers of an application do is
given by the application; the handlers that answer in its place are defined here.
-/

set_option autoImplicit false
set_option relaxedAutoImplicit false

namespace HttpRouting

/-- How an invocation ends: with an answer or a failure, or never. -/
inductive Invocation (α : Type) where
  | finished (result : Except HandlerError α)
  | pending

/-- What the handlers of an application do. -/
structure Application where
  invoke : (controller : Nat) → ControllerMethod → Exchange → Work × Invocation HandlerOutput
  methodChanged : (controller : Nat) → ControllerMethod → Exchange → Option Instant
  serve : (handler : Nat) → Exchange → Work × Invocation Unit
  handlerChanged : (handler : Nat) → Exchange → Option Instant

namespace Application

/-- Answer with a list of methods. -/
def answerAllowed (allow : String) (work : Work) : Work × Except HandlerError HandlerOutput :=
  match HeaderValue.ofText? allow with
  | none => (work, .error (.failed ("invalid Allow header: " ++ allow)))
  | some value =>
    ({ work with
        response :=
          { work.response with headers := work.response.headers.insert .allow value } },
      .ok .empty)

/-- Invoke a handler method; a bean known only by its name cannot be invoked. -/
def invokeMethod (app : Application) (handler : HandlerMethod) (exchange : Exchange) :
    Work × Invocation HandlerOutput :=
  match handler.bean with
  | .named name => (exchange.work, .finished (.error (.unresolvedBean name)))
  | .controller controller =>
    match controller.identity with
    | .application number => app.invoke number handler.method exchange
    | .ambiguousPreflight => (exchange.work, .finished (.error (.failed "Not implemented")))
    | .allowedMethods _ allow =>
      let (work, result) := answerAllowed allow exchange.work
      (work, .finished result)

/-- The time of the last change of what a handler method answers with, if it is known. -/
def methodLastModified (app : Application) (handler : HandlerMethod) (exchange : Exchange) :
    Option Instant :=
  match handler.bean with
  | .named _ => none
  | .controller controller =>
    match controller.identity with
    | .application number => app.methodChanged number handler.method exchange
    | _ => none

/-- Let a request handler serve a request. -/
def serveRequest (app : Application) (handler : RequestHandler) (exchange : Exchange) :
    Work × Invocation Unit :=
  match handler with
  | .application number _ => app.serve number exchange
  | .preflight policy =>
    ({ exchange.work with
        response := (Cors.process policy exchange.request exchange.work.response).2 },
      .finished (.ok ()))
  | .rejected => (exchange.work, .finished (.ok ()))

/-- The time of the last change of what a request handler answers with, if it is known. -/
def handlerLastModified (app : Application) (handler : RequestHandler) (exchange : Exchange) :
    Option Instant :=
  match handler with
  | .application number _ => app.handlerChanged number exchange
  | _ => none

end Application

end HttpRouting
