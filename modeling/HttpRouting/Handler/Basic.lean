import HttpRouting.Handler.Controller
import HttpRouting.Http.Response
import HttpRouting.Json.Writer

/-!
Handlers: the methods of controllers and the request handlers that serve a request as a whole; what
they answer with, and how they fail.
-/

set_option autoImplicit false
set_option relaxedAutoImplicit false

namespace HttpRouting

/-- The controller of a handler method: an instance, or a bean by its name. -/
inductive Bean where
  | controller (controller : Controller)
  | named (name : String)
deriving DecidableEq, Repr

namespace Bean

/-- Beans are the same when they are one instance or have one name. -/
def same : Bean → Bean → Bool
  | .controller a, .controller b => a.identity == b.identity
  | .named a, .named b => a == b
  | _, _ => false

end Bean

/-- A method of a bean.  One that was found by the name of its bean keeps that name when the bean is
replaced by an instance. -/
structure HandlerMethod where
  bean : Bean
  typeName : String
  method : ControllerMethod
  resolvedFrom : Option String
deriving DecidableEq, Repr

namespace HandlerMethod

/-- The method of an instance. -/
def ofController (controller : Controller) (method : ControllerMethod) : HandlerMethod :=
  ⟨.controller controller, controller.typeName, method, none⟩

/-- The method of a bean that is known by its name. -/
def ofBean (name typeName : String) (method : ControllerMethod) : HandlerMethod :=
  ⟨.named name, typeName, method, none⟩

/-- Handler methods are the same when their beans are and their methods have one name. -/
def same (a b : HandlerMethod) : Bool :=
  a.bean.same b.bean && a.method.name == b.method.name

instance : BEq HandlerMethod := ⟨same⟩

/-- The type and the method joined by a number sign. -/
def text (h : HandlerMethod) : String :=
  h.typeName ++ "#" ++ h.method.name

/-- The part of the type name behind its last colon or point. -/
def shortTypeName (h : HandlerMethod) : String :=
  String.ofList (h.typeName.toList.reverse.takeWhile fun c => c != ':' && c != '.').reverse

/-- Replace the name of a bean by its instance. -/
def resolveBean (h : HandlerMethod) (beans : BeanRegistry) : Except BeanError HandlerMethod :=
  match h.bean with
  | .controller _ => .ok h
  | .named name =>
    (beans.resolve name).map fun controller =>
      { h with bean := .controller controller, resolvedFrom := some name }

/-- The handler method as it was before its bean was replaced by an instance. -/
def declared (h : HandlerMethod) : HandlerMethod :=
  match h.resolvedFrom with
  | some name => { h with bean := .named name, resolvedFrom := none }
  | none => h

/-- Stands for the several methods that fit a preflight equally well. -/
def ambiguousPreflight : HandlerMethod :=
  ofController ⟨.ambiguousPreflight, "EmptyHandler", none, none, [.plain "handle"]⟩ (.plain "handle")

/-- Answers a question for the methods of a path, asked by a request, with a list of them. -/
def allowedMethods (asked : Uuid) (allow : String) : HandlerMethod :=
  ofController ⟨.allowedMethods asked allow, "HttpOptionsHandler", none, none, [.plain "handle"]⟩
    (.plain "handle")

end HandlerMethod

/-- A handler that serves a request as a whole: one of the application, by number and name, the one
that answers preflights under a policy, or the one that stands in for a refused request. -/
inductive RequestHandler where
  | application (number : Nat) (name : String)
  | preflight (policy : Option CorsConfig)
  | rejected
deriving DecidableEq, Repr

/-- The name of a request handler. -/
def RequestHandler.name : RequestHandler → String
  | .application _ name => name
  | .preflight _ => "PreflightHandler"
  | .rejected => "RejectedCorsHandler"

/-- What serves a request. -/
inductive Handler where
  | method (method : HandlerMethod)
  | request (handler : RequestHandler)
deriving DecidableEq, Repr

/-- The text of a handler. -/
def Handler.text : Handler → String
  | .method h => h.text
  | .request handler => handler.name

/-- How a handler fails. -/
inductive HandlerError where
  | failed (message : String)
  | badRequest (message : String)
  | status (code : Status) (reason : String)
  | unresolvedBean (name : String)
  | asyncTimeout
  | asyncCancelled
deriving DecidableEq, Repr

/-- The sentence that reports the error. -/
def HandlerError.message : HandlerError → String
  | .failed message => "Handler failed: " ++ message
  | .badRequest message => "Bad request: " ++ message
  | .status code reason => code.text ++ ": " ++ reason
  | .unresolvedBean name =>
    "Handler bean '" ++ name ++ "' has not been resolved to an instance."
  | .asyncTimeout => "Asynchronous processing timed out."
  | .asyncCancelled => "Asynchronous processing was cancelled."

/-- What a handler answers with. -/
inductive HandlerOutput where
  | empty
  | text (content : String)
  | json (value : Json)
  | bytes (contentType : String) (body : Bytes)
  | status (code : Status)

namespace HandlerOutput

/-- Write an answer into the response. -/
def writeTo (output : HandlerOutput) (response : Response) : Response :=
  match output with
  | .empty => response
  | .text content =>
    { response with
      headers := response.headers.insert .contentType (.ofPlain "text/plain; charset=utf-8")
      body := some (Text.utf8 content) }
  | .json value =>
    { response with
      headers := response.headers.insert .contentType (.ofPlain "application/json")
      body := some (Text.utf8 value.sorted.write) }
  | .bytes contentType body =>
    { response with
      headers :=
        match HeaderValue.ofText? contentType with
        | some value => response.headers.insert .contentType value
        | none => response.headers
      body := some body }
  | .status code => { response with status := code }

end HandlerOutput

end HttpRouting
