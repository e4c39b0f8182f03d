import HttpRouting.Dispatch.Fault
import HttpRouting.Http.Request
import HttpRouting.Json.Basic
import HttpRouting.Route.Basic

/-!
Errors in JSON: the name of their kind, the sentence that reports them, and of some the list that
tells what would have been accepted.  Lists whose order has no meaning are sorted.
-/

set_option autoImplicit false
set_option relaxedAutoImplicit false

namespace HttpRouting

/-- The name of the kind of an error. -/
def PatternError.kind : PatternError → String
  | .unclosedCapture _ => "UnclosedCapture"
  | .emptyCaptureName _ => "EmptyCaptureName"
  | .duplicateCapture _ _ => "DuplicateCapture"
  | .catchAllNotLast _ => "CatchAllNotLast"

/-- The name of the kind of an error. -/
def RouteError.kind : RouteError → String
  | .pattern error => error.kind
  | .mediaType _ => "Invalid"
  | .invalidMethod _ => "InvalidMethod"
  | .invalidExpression _ => "InvalidExpression"

/-- The name of the kind of an error. -/
def RequestError.kind : RequestError → String
  | .invalidMethod _ => "InvalidMethod"
  | .invalidHeaderName _ => "InvalidHeaderName"
  | .invalidHeaderValue _ => "InvalidHeaderValue"

/-- The name of the kind of an error. -/
def BeanError.kind : BeanError → String
  | .missing _ => "MissingBean"
  | .conflicting _ => "ConflictingBeanName"

/-- The name of the kind of an error. -/
def CorsError.kind : CorsError → String
  | .credentialsWithWildcardOrigin => "CredentialsWithWildcardOrigin"

/-- The name of the kind of an error. -/
def MappingError.kind : MappingError → String
  | .ambiguousMapping _ _ _ => "AmbiguousMapping"
  | .ambiguousHandler _ _ _ => "AmbiguousHandler"
  | .invalidMapping _ _ => "InvalidMapping"
  | .methodNotAllowed _ _ => "MethodNotAllowed"
  | .unsupportedMediaType _ _ => "UnsupportedMediaType"
  | .notAcceptable _ => "NotAcceptable"
  | .unsatisfiedParams _ => "UnsatisfiedParams"
  | .noHandlerFound _ _ => "NoHandlerFound"
  | .bean error => error.kind
  | .cors error => error.kind

/-- The name of the kind of an error. -/
def HandlerError.kind : HandlerError → String
  | .failed _ => "Failed"
  | .badRequest _ => "BadRequest"
  | .status _ _ => "Status"
  | .unresolvedBean _ => "UnresolvedBean"
  | .asyncTimeout => "AsyncTimeout"
  | .asyncCancelled => "AsyncCancelled"

/-- The name of the kind of a fault. -/
def DispatchFault.kind : DispatchFault → String
  | .mapping error => error.kind
  | .handler error => error.kind
  | .noAdapter _ => "NoAdapter"
  | .cancelled => "Cancelled"

namespace Report

/-- Texts in their order. -/
def sortTexts (texts : List String) : List String :=
  Sorting.sortBy (fun (a b : String) => compare a b) texts

/-- Texts whose order has no meaning. -/
def texts (items : List String) : Json :=
  Json.ofStrings (sortTexts items)

/-- An error of a kind with its sentence. -/
def error (kind message : String) : Json :=
  Json.ofFields [("error", .ofString kind), ("message", .ofString message)]

/-- An error of a pattern. -/
def patternError (e : PatternError) : Json := error e.kind e.message

/-- An error of a media type. -/
def mediaTypeError (e : MediaTypeError) : Json := error "Invalid" e.message

/-- An error of a route. -/
def routeError (e : RouteError) : Json := error e.kind e.message

/-- An error of a request. -/
def requestError (e : RequestError) : Json := error e.kind e.message

/-- An error of a bean. -/
def beanError (e : BeanError) : Json := error e.kind e.message

/-- An error of a policy. -/
def corsError (e : CorsError) : Json := error e.kind e.message

/-- An error of a handler. -/
def handlerError (e : HandlerError) : Json := error e.kind e.message

/-- What an error of a mapping says beside its kind. -/
def mappingDetails (e : MappingError) : List (String × Json) :=
  let message := ("message", Json.ofString e.message)
  match e with
  | .ambiguousHandler path first second =>
    [("path", .ofString path), ("handlers", texts [first, second])]
  | .unsatisfiedParams conditions => [("conditions", texts conditions)]
  | .methodNotAllowed _ allowed => [message, ("allowed", texts (allowed.map Method.name))]
  | .unsupportedMediaType _ supported => [message, ("supported", texts supported)]
  | .notAcceptable supported => [message, ("supported", texts supported)]
  | _ => [message]

/-- An error of a mapping. -/
def mappingError (e : MappingError) : Json :=
  Json.ofFields (("error", .ofString e.kind) :: mappingDetails e)

/-- A fault of a dispatch. -/
def fault : DispatchFault → Json
  | .mapping e => mappingError e
  | f => error f.kind f.message

end Report

end HttpRouting
