import HttpRouting.Config.Basic
import HttpRouting.Dispatch.Adapter
import HttpRouting.Dispatch.Interceptor
import HttpRouting.Dispatch.Multipart
import HttpRouting.Dispatch.Resolver
import HttpRouting.Mapping.Strategy

/-!
The stages of a dispatch: a request in parts is prepared, its handler and an adapter are found, an
unchanged resource is not sent again, and then the hooks and the handler run.  A fault is offered to
the resolvers, and at the end all completion hooks run, once.
-/

set_option autoImplicit false
set_option relaxedAutoImplicit false

namespace HttpRouting

/-- Routes requests to handlers. -/
structure Dispatcher where
  mappings : List HandlerMapping
  adapters : List Adapter
  interceptors : InterceptorChain
  resolvers : List FaultResolver
  multipart : Option MultipartResolver
  config : DispatcherConfig

/-- Build a dispatcher; without adapters it has those for methods and for request handlers, and
without resolvers the one by status. -/
def Dispatcher.build (app : Application) (d : Dispatcher) : Dispatcher :=
  { d with
    adapters :=
      if d.adapters.isEmpty then [.forMethods app, .forRequestHandlers app] else d.adapters
    resolvers := if d.resolvers.isEmpty then [.byStatus] else d.resolvers }

/-- Where a dispatch stands: the exchange, the handler once it is found, whether there is something
to clean up after a request in parts, whether completion has run, and the events so far. -/
structure Progress where
  exchange : Exchange
  handler : Option Handler
  multipartResolved : Bool
  completed : Bool
  events : List DispatchEvent

namespace Progress

/-- The dispatch of an exchange before its first stage. -/
def start (exchange : Exchange) : Progress := ⟨exchange, none, false, false, []⟩

/-- Enter a phase. -/
def enter (p : Progress) (phase : Phases) : Progress :=
  { p with exchange := p.exchange.enter phase }

/-- Take over what somebody did on the exchange. -/
def withWork (p : Progress) (work : Work) : Progress :=
  { p with exchange := { p.exchange with work } }

/-- Replace the response. -/
def withResponse (p : Progress) (response : Response) : Progress :=
  { p with exchange := p.exchange.withResponse response }

/-- Note an event. -/
def note (p : Progress) (event : DispatchEvent) : Progress :=
  { p with events := p.events ++ [event] }

/-- The part of a dispatch that interceptors see. -/
def traced (p : Progress) : InterceptorChain.Traced := ⟨p.exchange, p.events⟩

/-- Take over what interceptors did. -/
def withTraced (p : Progress) (traced : InterceptorChain.Traced) : Progress :=
  { p with exchange := traced.exchange, events := traced.events }

end Progress

/-- How the stages up to the answer of the handler end: there is nothing left to do, the handler is
going to answer later, or it never ends. -/
inductive StageEnd where
  | done
  | suspended (receiver : Receiver)
  | pending

namespace Dispatcher

/-- Prepare a request in parts. -/
def checkMultipart (d : Dispatcher) (p : Progress) : Progress × Except DispatchFault Unit :=
  match d.multipart with
  | none => (p, .ok ())
  | some resolver =>
    let p := p.enter .multipartCheck
    if resolver.isMultipart p.exchange then
      match resolver.resolve p.exchange with
      | (work, .error error) => (p.withWork work, .error (.handler error))
      | (work, .ok ()) => ({ p.withWork work with multipartResolved := true }, .ok ())
    else (p, .ok ())

/-- Ask mappings one after the other; the first with a handler counts. -/
def askMappings : List HandlerMapping → Exchange → Exchange × Except MappingError (Option Handler)
  | [], exchange => (exchange, .ok none)
  | mapping :: rest, exchange =>
    match mapping.find exchange with
    | (work, .error error) => ({ exchange with work }, .error error)
    | (work, .ok (some handler)) => ({ exchange with work }, .ok (some handler))
    | (work, .ok none) => askMappings rest { exchange with work }

/-- Find the handler of the request. -/
def findHandler (d : Dispatcher) (p : Progress) :
    Progress × Except DispatchFault (Option Handler) :=
  let p := p.enter .routeLookup
  let (exchange, result) := askMappings d.mappings p.exchange
  ({ p with exchange }, result.mapError .mapping)

/-- No mapping has a handler: a fault if so configured, and otherwise a response. -/
def miss (d : Dispatcher) (p : Progress) : Progress × Except DispatchFault StageEnd :=
  let p := p.enter .noHandler
  let request := p.exchange.request
  if d.config.faultOnMiss then
    (p, .error (.mapping (.noHandlerFound request.method request.path)))
  else
    (p.withResponse (p.exchange.response.sendError .notFound "Not Found"), .ok .done)

/-- Whether the client has the current state of the resource; only asked when it is to be read. -/
def checkCache (adapter : Adapter) (handler : Handler) (p : Progress) : Progress × Bool :=
  if p.exchange.request.method.isGetOrHead then
    let p := p.enter .cacheCheck
    let (current, exchange) :=
      p.exchange.checkNotModified (adapter.lastModified p.exchange handler)
    let p := { p with exchange }
    if current then (p.enter .notModified, true) else (p, false)
  else (p, false)

/-- Run the hooks after the handler, if there is one. -/
def runPostHandle (d : Dispatcher) (p : Progress) : Progress × Except HandlerError Unit :=
  match p.handler with
  | none => (p, .ok ())
  | some handler =>
    let p := p.enter .postHandle
    let (traced, result) := d.interceptors.postHandle handler p.traced
    (p.withTraced traced, result)

/-- Run the hooks after the handler, and write its answer into the response. -/
def applyOutput (d : Dispatcher) (p : Progress) (output : HandlerOutput) :
    Progress × Except DispatchFault Unit :=
  match d.runPostHandle p with
  | (p, .error error) => (p, .error (.handler error))
  | (p, .ok ()) =>
    let p := p.enter .resultProcessing
    (p.withResponse (output.writeTo p.exchange.response), .ok ())

/-- The handler has answered: now, or it is going to answer later. -/
def takeAnswer (d : Dispatcher) (handler : Handler) (p : Progress) (output : HandlerOutput) :
    Progress × Except DispatchFault StageEnd :=
  match p.exchange.work.receiver with
  | some receiver =>
    let p := (p.withWork { p.exchange.work with receiver := none }).enter .asyncStarted
    (p.withTraced (d.interceptors.asyncStarted handler p.traced), .ok (.suspended receiver))
  | none =>
    match d.applyOutput p output with
    | (p, .error fault) => (p, .error fault)
    | (p, .ok ()) => (p, .ok .done)

/-- Run the hooks before the handler and, unless one stops, the handler. -/
def invoke (d : Dispatcher) (adapter : Adapter) (handler : Handler) (p : Progress) :
    Progress × Except DispatchFault StageEnd :=
  let p := p.enter .preHandle
  match d.interceptors.preHandle handler p.traced with
  | (traced, .error error) => (p.withTraced traced, .error (.handler error))
  | (traced, .ok false) => (p.withTraced traced, .ok .done)
  | (traced, .ok true) =>
    let p := ((p.withTraced traced).enter .invoke).note (.invoked handler)
    match adapter.handle p.exchange handler with
    | (work, .pending) => (p.withWork work, .ok .pending)
    | (work, .finished (.error error)) =>
      ((p.withWork work).note (.answered (some error)), .error (.handler error))
    | (work, .finished (.ok output)) =>
      d.takeAnswer handler ((p.withWork work).note (.answered none)) output

/-- Serve a request with the handler that was found for it. -/
def serve (d : Dispatcher) (handler : Handler) (p : Progress) :
    Progress × Except DispatchFault StageEnd :=
  let p := { p with handler := some handler }.enter .adapterLookup
  match d.adapters.find? fun adapter => adapter.supports handler with
  | none => (p, .error (.noAdapter handler.text))
  | some adapter =>
    match checkCache adapter handler p with
    | (p, true) => (p, .ok .done)
    | (p, false) => d.invoke adapter handler p

/-- All stages up to the answer of the handler. -/
def runStages (d : Dispatcher) (p : Progress) : Progress × Except DispatchFault StageEnd :=
  match d.checkMultipart (p.enter .start) with
  | (p, .error fault) => (p, .error fault)
  | (p, .ok ()) =>
    match d.findHandler p with
    | (p, .error fault) => (p, .error fault)
    | (p, .ok none) => d.miss p
    | (p, .ok (some handler)) => d.serve handler p

/-- Offer a fault to resolvers from a place on, until one handles it. -/
def offer (fault : DispatchFault) : List (FaultResolver × Nat) → Progress → Progress × Bool
  | [], p => (p, false)
  | (resolver, place) :: rest, p =>
    let (work, handled) := resolver.resolve p.exchange p.handler fault
    let p := (p.withWork work).note (.offered place p.handler fault handled)
    if handled then (p, true) else offer fault rest p

/-- Offer a fault to the resolvers, with an empty body before them; what remains is the fault that
nobody handled. -/
def processFault (d : Dispatcher) (fault : DispatchFault) (p : Progress) :
    Progress × Option DispatchFault :=
  let p := p.enter .exceptionHandling
  let p := p.withResponse { p.exchange.response with body := none }
  match offer fault d.resolvers.zipIdx p with
  | (p, true) =>
    let p := p.enter .resultProcessing
    (p.withWork (p.exchange.work.setAttribute Attributes.exception (.text fault.message)), none)
  | (p, false) => (p, some fault)

/-- Run the completion hooks and clean up, unless that is done. -/
def complete (d : Dispatcher) (fault : Option DispatchFault) (p : Progress) : Progress :=
  if p.completed then p
  else
    let p := { p with completed := true }.enter .completion
    let p := p.withTraced (d.interceptors.completion p.handler fault p.traced)
    match p.multipartResolved, d.multipart with
    | true, some resolver => p.withWork (resolver.cleanup p.exchange)
    | _, _ => p

/-- Give a dispatch up. -/
def cancel (d : Dispatcher) (p : Progress) : Progress :=
  if p.completed then p else d.complete (some .cancelled) (p.enter .cancelled)

/-- Bring a dispatch to its end, with a fault to handle or without; what remains is the fault that
nobody handled. -/
def conclude (d : Dispatcher) (pending : Option DispatchFault) (p : Progress) :
    Progress × Option DispatchFault :=
  let (p, left) :=
    match pending with
    | none => (p, none)
    | some fault => d.processFault fault p
  (d.complete left p, left)

end Dispatcher

/-- A dispatch that waits for the answer of its handler. -/
structure SuspendedDispatch where
  progress : Progress
  receiver : Receiver

namespace SuspendedDispatch

/-- The receivers that are left: the one at which the dispatch waits, and one that a hook may have
left behind. -/
def receivers (s : SuspendedDispatch) : List Receiver :=
  s.receiver :: s.progress.exchange.work.receivers

/-- Deliver an outcome. -/
def deliver (s : SuspendedDispatch) (result : DeferredResult) (outcome : DeferredOutcome) :
    SuspendedDispatch :=
  { s with receiver := s.receiver.deliver result outcome }

/-- Give a deferred result up. -/
def abandon (s : SuspendedDispatch) (result : DeferredResult) : SuspendedDispatch :=
  { s with receiver := s.receiver.abandon result }

end SuspendedDispatch

/-- A dispatch that failed: the fault that nobody handled, and the exchange as it was left. -/
structure DispatchFailure where
  fault : DispatchFault
  exchange : Exchange

/-- The sentence that reports the failure. -/
def DispatchFailure.message (failure : DispatchFailure) : String :=
  "Dispatch of exchange " ++ failure.exchange.request.uuid.text ++ " failed: "
    ++ failure.fault.message

/-- How a dispatch ends: it has come to its end, with the fault that nobody handled if there is
one; it waits for the answer of its handler; or its handler never ends. -/
inductive Dispatched where
  | finished (progress : Progress) (fault : Option DispatchFault)
  | suspended (suspended : SuspendedDispatch)
  | pending (progress : Progress)

namespace Dispatcher

/-- Dispatch a request. -/
def dispatch (d : Dispatcher) (exchange : Exchange) : Dispatched :=
  match d.runStages (.start exchange) with
  | (p, .ok .done) =>
    let (p, left) := d.conclude none p
    .finished p left
  | (p, .ok (.suspended receiver)) => .suspended ⟨p, receiver⟩
  | (p, .ok .pending) => .pending p
  | (p, .error fault) =>
    let (p, left) := d.conclude (some fault) p
    .finished p left

/-- Go on with the outcome of a handler that answers later. -/
def resumeWith (d : Dispatcher) (p : Progress) (outcome : DeferredOutcome) :
    Progress × Option DispatchFault :=
  match outcome with
  | .error error => d.conclude (some (.handler error)) (p.note (.delivered (some error)))
  | .ok output =>
    match d.applyOutput (p.note (.delivered none)) output with
    | (p, .ok ()) => d.conclude none p
    | (p, .error fault) => d.conclude (some fault) p

/-- Go on with a suspended dispatch, waiting no longer than a time limit if there is one. -/
def resumeWithin? (d : Dispatcher) (s : SuspendedDispatch) (timeout : Option Nat) :
    Option (Progress × Option DispatchFault) :=
  (s.receiver.outcomeWithin? timeout).map (d.resumeWith s.progress)

/-- Go on with a suspended dispatch, within the configured time limit. -/
def resume? (d : Dispatcher) (s : SuspendedDispatch) : Option (Progress × Option DispatchFault) :=
  d.resumeWithin? s d.config.asyncTimeout

/-- Give a suspended dispatch up. -/
def cancelSuspended (d : Dispatcher) (s : SuspendedDispatch) : Progress :=
  d.cancel s.progress

end Dispatcher

end HttpRouting
