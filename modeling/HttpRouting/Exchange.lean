import HttpRouting.Attributes
import HttpRouting.Calendar.HttpDate
import HttpRouting.Calendar.MailDate
import HttpRouting.Deferred
import HttpRouting.Http.Request
import HttpRouting.Phases

/-!
Exchanges: a request on its way to a response.  Handlers and hooks work on one part of an exchange,
the response with the attributes and the deferred result; the request and the phases stay out of
their reach.
-/

set_option autoImplicit false
set_option relaxedAutoImplicit false

namespace HttpRouting

/-- The part of an exchange that handlers and hooks work on.  A deferred result whose receiver is
not the one kept here is cancelled. -/
structure Work where
  response : Response
  attributes : Attributes
  receiver : Option Receiver
  handedOut : Nat

namespace Work

/-- Nothing done yet. -/
def blank : Work := ⟨.blank, .empty, none, 0⟩

/-- Answer later: a new receiver takes the place of any other, and its deferred result is handed
out. -/
def startAsync (work : Work) : DeferredResult × Work :=
  (⟨work.handedOut⟩,
    { work with receiver := some (.fresh work.handedOut), handedOut := work.handedOut + 1 })

/-- Whether the answer is to come later. -/
def isAsync (work : Work) : Bool :=
  work.receiver.isSome

/-- The receivers that are left. -/
def receivers (work : Work) : List Receiver :=
  work.receiver.toList

/-- Set an attribute. -/
def setAttribute (work : Work) (name : String) (value : AttributeValue) : Work :=
  { work with attributes := work.attributes.insert name value }

end Work

/-- A request on its way to a response. -/
structure Exchange where
  request : Request
  phases : Phases
  work : Work

namespace Exchange

/-- The exchange in which a request begins. -/
def ofRequest (request : Request) : Exchange := ⟨request, .none, .blank⟩

/-- The response under construction. -/
def response (exchange : Exchange) : Response :=
  exchange.work.response

/-- The attributes set so far. -/
def attributes (exchange : Exchange) : Attributes :=
  exchange.work.attributes

/-- Enter a phase. -/
def enter (exchange : Exchange) (phase : Phases) : Exchange :=
  { exchange with phases := exchange.phases.union phase }

/-- Replace the response. -/
def withResponse (exchange : Exchange) (response : Response) : Exchange :=
  { exchange with work := { exchange.work with response } }

/-- Compare the date that the request knows with the time of the last change, to the second.  The
flag tells that the copy of the client is current; otherwise the time is written to the
response. -/
def checkNotModified (exchange : Exchange) (lastModified : Option Instant) : Bool × Exchange :=
  match lastModified with
  | none => (false, exchange)
  | some changed =>
    let since := (exchange.request.header? .ifModifiedSince).bind Calendar.mailDateSeconds?
    if since.any fun seconds => changed.seconds ≤ seconds then
      (true, exchange.withResponse { exchange.response with status := .notModified })
    else
      let value := HeaderValue.ofPlain (Calendar.httpDate changed)
      (false, exchange.withResponse
        { exchange.response with headers := exchange.response.headers.insert .lastModified value })

end Exchange

end HttpRouting
