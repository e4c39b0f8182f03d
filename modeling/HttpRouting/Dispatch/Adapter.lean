import HttpRouting.Dispatch.Application

/-!
Adapters: each invokes one kind of handler on behalf of a dispatcher.
-/

set_option autoImplicit false
set_option relaxedAutoImplicit false

namespace HttpRouting

/-- Invokes the handlers that it supports. -/
structure Adapter where
  supports : Handler → Bool
  handle : Exchange → Handler → Work × Invocation HandlerOutput
  lastModified : Exchange → Handler → Option Instant

namespace Adapter

/-- The failure of an adapter that is given a handler of another kind. -/
def refuse (adapter : String) (exchange : Exchange) (handler : Handler) :
    Work × Invocation HandlerOutput :=
  (exchange.work, .finished (.error (.failed (adapter ++ " cannot invoke " ++ handler.text))))

/-- The adapter for methods of controllers. -/
def forMethods (app : Application) : Adapter :=
  { supports := fun
      | .method _ => true
      | .request _ => false
    handle := fun exchange handler =>
      match handler with
      | .method h => app.invokeMethod h exchange
      | .request _ => refuse "HandlerMethodAdapter" exchange handler
    lastModified := fun exchange handler =>
      match handler with
      | .method h => app.methodLastModified h exchange
      | .request _ => none }

/-- The adapter for request handlers, which write the response themselves. -/
def forRequestHandlers (app : Application) : Adapter :=
  { supports := fun
      | .method _ => false
      | .request _ => true
    handle := fun exchange handler =>
      match handler with
      | .method _ => refuse "RequestHandlerAdapter" exchange handler
      | .request h =>
        match app.serveRequest h exchange with
        | (work, .pending) => (work, .pending)
        | (work, .finished result) => (work, .finished (result.map fun _ => .empty))
    lastModified := fun exchange handler =>
      match handler with
      | .method _ => none
      | .request h => app.handlerLastModified h exchange }

end Adapter

end HttpRouting
