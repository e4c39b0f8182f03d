import HttpRouting.Dispatch.Fault
import HttpRouting.Exchange

/-!
Turning faults into responses.
-/

set_option autoImplicit false
set_option relaxedAutoImplicit false

namespace HttpRouting

/-- Offered a fault, it may write a response; the flag tells that the fault is handled. -/
structure FaultResolver where
  resolve : Exchange → Option Handler → DispatchFault → Work × Bool

namespace FaultResolver

/-- The status for a fault of a mapping. -/
def mappingStatus : MappingError → Status
  | .noHandlerFound _ _ => .notFound
  | .methodNotAllowed _ _ => .methodNotAllowed
  | .notAcceptable _ => .notAcceptable
  | .unsupportedMediaType _ _ => .unsupportedMediaType
  | .unsatisfiedParams _ => .badRequest
  | _ => .internalServerError

/-- The status for a failure of a handler; plain failures and abandoned results have none. -/
def handlerStatus? : HandlerError → Option Status
  | .badRequest _ => some .badRequest
  | .status code _ => some code
  | .asyncTimeout => some .serviceUnavailable
  | .unresolvedBean _ => some .internalServerError
  | .failed _ => none
  | .asyncCancelled => none

/-- The status for a fault, if it is to be answered by one. -/
def status? : DispatchFault → Option Status
  | .mapping error => some (mappingStatus error)
  | .handler error => handlerStatus? error
  | .noAdapter _ => none
  | .cancelled => none

/-- Whether a status tells of a fault of the server. -/
def isServerFault (status : Status) : Bool :=
  500 ≤ status.code && status.code < 600

/-- What the response says about a fault.  Of faults of the server only the registered reason is
shown, unless the handler chose the words itself. -/
def reason (fault : DispatchFault) (status : Status) : String :=
  match fault with
  | .handler (.status _ reason) => reason
  | fault => if isServerFault status then status.reason?.getD "" else fault.message

/-- Set a header field to a list, unless the list is empty or no value. -/
def setList (headers : Headers) (name : HeaderName) (entries : List String) : Headers :=
  if entries.isEmpty then headers
  else
    match HeaderValue.ofText? (", ".intercalate entries) with
    | some value => headers.insert name value
    | none => headers

/-- The header fields that tell what the client may do instead. -/
def adviceFields (fault : DispatchFault) (headers : Headers) : Headers :=
  match fault with
  | .mapping (.methodNotAllowed _ allowed) => setList headers .allow (allowed.map Method.name)
  | .mapping (.unsupportedMediaType _ supported) => setList headers .accept supported
  | _ => headers

/-- Write the response for a fault with a given status. -/
def writeFault (fault : DispatchFault) (status : Status) (response : Response) : Response :=
  let response := response.sendError status (reason fault status)
  { response with headers := adviceFields fault response.headers }

/-- Answers every fault that has a status. -/
def byStatus : FaultResolver :=
  { resolve := fun exchange _ fault =>
      match status? fault with
      | none => (exchange.work, false)
      | some status =>
        ({ exchange.work with response := writeFault fault status exchange.response }, true) }

end FaultResolver

end HttpRouting
