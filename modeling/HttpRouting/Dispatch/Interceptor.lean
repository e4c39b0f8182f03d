import HttpRouting.Dispatch.Fault
import HttpRouting.Exchange

/-!
Interceptors: hooks around the invocation of a handler.  They are visited in the order they were
registered before the handler runs, and in reverse order afterwards.  Every run of a hook leaves an
event behind.
-/

set_option autoImplicit false
set_option relaxedAutoImplicit false

namespace HttpRouting

/-- The hooks of an interceptor.
* `preHandle`: before the handler; it may stop the dispatch.
* `postHandle`: after the handler has answered.
* `afterCompletion`: at the end, with the fault that nobody handled; a failure has no effect.
* `afterAsyncStart`: when the handler is going to answer later. -/
structure Interceptor where
  preHandle : Exchange → Handler → Work × Except HandlerError Bool
  postHandle : Exchange → Handler → Work × Except HandlerError Unit
  afterCompletion : Exchange → Option Handler → Option DispatchFault → Work × Except HandlerError Unit
  afterAsyncStart : Exchange → Handler → Work

/-- An interceptor that does nothing. -/
def Interceptor.silent : Interceptor :=
  { preHandle := fun exchange _ => (exchange.work, .ok true)
    postHandle := fun exchange _ => (exchange.work, .ok ())
    afterCompletion := fun exchange _ _ => (exchange.work, .ok ())
    afterAsyncStart := fun exchange _ => exchange.work }

/-- What happened during a dispatch, in so far as others took part in it, with what they came to: the
hooks of interceptors by their places, the invocation of the handler and how it ended, the outcome
that a deferred result delivered, and the resolvers that a fault was offered to. -/
inductive DispatchEvent where
  | preHandle (place : Nat) (handler : Handler) (result : Except HandlerError Bool)
  | invoked (handler : Handler)
  | answered (failure : Option HandlerError)
  | asyncStarted (place : Nat) (handler : Handler)
  | delivered (failure : Option HandlerError)
  | postHandle (place : Nat) (handler : Handler) (result : Except HandlerError Unit)
  | offered (place : Nat) (handler : Option Handler) (fault : DispatchFault) (handled : Bool)
  | completion (place : Nat) (handler : Option Handler) (fault : Option DispatchFault)
deriving Repr

/-- The directions in which interceptors are visited. -/
inductive Direction where
  | forward
  | reverse
deriving DecidableEq, Repr

/-- Interceptors in the order they were registered. -/
structure InterceptorChain where
  interceptors : List Interceptor

namespace InterceptorChain

/-- Interceptors with their places, in a direction. -/
def placed (chain : InterceptorChain) : Direction → List (Interceptor × Nat)
  | .forward => chain.interceptors.zipIdx
  | .reverse => chain.interceptors.zipIdx.reverse

/-- Visit interceptors one after the other, carrying a state along, until a visit gives a result. -/
def visit {σ β : Type} (step : Nat → Interceptor → σ → σ × Option β) :
    List (Interceptor × Nat) → σ → σ × Option β
  | [], state => (state, none)
  | (interceptor, place) :: rest, state =>
    match step place interceptor state with
    | (state, some result) => (state, some result)
    | (state, none) => visit step rest state

/-- Visit the interceptors of a chain in a direction. -/
def traverse {σ β : Type} (chain : InterceptorChain) (direction : Direction)
    (step : Nat → Interceptor → σ → σ × Option β) (state : σ) : σ × Option β :=
  visit step (chain.placed direction) state

/-- An exchange with the events so far. -/
structure Traced where
  exchange : Exchange
  events : List DispatchEvent

/-- Take over what a hook did, and note the event. -/
def Traced.after (traced : Traced) (work : Work) (event : DispatchEvent) : Traced :=
  ⟨{ traced.exchange with work }, traced.events ++ [event]⟩

/-- Run one hook of the interceptors in a direction, each time noting an event, until a result stops
it. -/
def run {ρ β : Type} (chain : InterceptorChain) (direction : Direction)
    (hook : Interceptor → Exchange → Work × ρ) (event : Nat → ρ → DispatchEvent)
    (stop? : ρ → Option β) (traced : Traced) : Traced × Option β :=
  chain.traverse direction
    (fun place interceptor (traced : Traced) =>
      let (work, result) := hook interceptor traced.exchange
      (traced.after work (event place result), stop? result)) traced

/-- What keeps a request from the handler: everything but true. -/
def refusal? : Except HandlerError Bool → Option (Except HandlerError Bool)
  | .ok true => none
  | other => some other

/-- The error of a result. -/
def failure? : Except HandlerError Unit → Option HandlerError
  | .ok () => none
  | .error error => some error

/-- Run the hooks before the handler until one stops or fails. -/
def preHandle (chain : InterceptorChain) (handler : Handler) (traced : Traced) :
    Traced × Except HandlerError Bool :=
  let (traced, stopped) := chain.run .forward
    (fun interceptor exchange => interceptor.preHandle exchange handler)
    (fun place result => .preHandle place handler result) refusal? traced
  (traced, stopped.getD (.ok true))

/-- Run the hooks after the handler in reverse order until one fails. -/
def postHandle (chain : InterceptorChain) (handler : Handler) (traced : Traced) :
    Traced × Except HandlerError Unit :=
  let (traced, stopped) := chain.run .reverse
    (fun interceptor exchange => interceptor.postHandle exchange handler)
    (fun place result => .postHandle place handler result) failure? traced
  (traced, match stopped with
    | some error => .error error
    | none => .ok ())

/-- Run all hooks at the end, in reverse order; their failures have no effect. -/
def completion (chain : InterceptorChain) (handler : Option Handler) (fault : Option DispatchFault)
    (traced : Traced) : Traced :=
  (chain.run .reverse
    (fun interceptor exchange => interceptor.afterCompletion exchange handler fault)
    (fun place _ => .completion place handler fault) (fun _ => (none : Option Unit)) traced).1

/-- Run all hooks for a handler that is going to answer later, in reverse order. -/
def asyncStarted (chain : InterceptorChain) (handler : Handler) (traced : Traced) : Traced :=
  (chain.run .reverse
    (fun interceptor exchange => (interceptor.afterAsyncStart exchange handler, ()))
    (fun place _ => .asyncStarted place handler) (fun _ => (none : Option Unit)) traced).1

end InterceptorChain

end HttpRouting
