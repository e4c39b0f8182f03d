import HttpRouting.Config.Codec
import HttpRouting.Json.Access
import HttpRouting.Scenario.Hooks

/-!
Scenarios in JSON: requests, declarations, scripts and those that follow them.  Fields that are null
count as missing.
-/

set_option autoImplicit false
set_option relaxedAutoImplicit false

namespace HttpRouting.Scenario

/-- Octets by their hexadecimal digits. -/
def hex? (json : Json) : Option Bytes :=
  json.string?.bind fun text => Text.hexDecode? (Text.utf8 text)

/-- A moment by its seconds and nanoseconds. -/
def instant? (json : Json) : Option Instant :=
  (json.pair? Json.int? Json.word?).map fun (seconds, nanos) => ⟨seconds, nanos⟩

/-- A status by its number. -/
def status? (json : Json) : Option Status :=
  json.word?.map Status.mk

/-- An identifier. -/
def uuid? (json : Json) : Option Uuid :=
  json.string?.bind Uuid.parse?

/-- A method of requests. -/
def method? (json : Json) : Option Method :=
  json.string?.bind Method.parse?

/-- Names with texts. -/
def textPair? (json : Json) : Option (String × String) :=
  json.pair? Json.string? Json.string?

/-- A header field of a name and octets. -/
def field? (name : String) (octets : Bytes) : Option (HeaderName × HeaderValue) := do
  return (← HeaderName.parse? name, ← HeaderValue.ofBytes? octets)

/-- The parts of a request; what is missing is as in a blank draft. -/
def draft? (json : Json) : Option RequestDraft := do
  let raw ← json.list "raw_headers" (Json.pair? Json.string? hex?)
  let blank := RequestDraft.blank
  return {
    uuid := ← json.maybe "uuid" uuid?
    method := ← json.orElse "method" Json.string? blank.method
    uri := ← json.orElse "uri" Json.string? blank.uri
    params := ← json.list "params" textPair?
    parsedHeaders := ⟨← raw.mapM fun (name, octets) => field? name octets⟩
    headers := ← json.list "headers" textPair?
    body := ← json.orElse "body" (fun body => body.string?.map Text.utf8) [] }

/-- A declaration of a route. -/
def spec? (json : Json) : Option RouteSpec := do
  return {
    paths := ← json.list "paths" Json.string?
    methods := ← json.list "methods" Json.string?
    params := ← json.list "params" Json.string?
    headers := ← json.list "headers" Json.string?
    consumes := ← json.list "consumes" Json.string?
    produces := ← json.list "produces" Json.string?
    name := ← json.maybe "name" Json.string? }

/-- The declaration that a list of a word and its argument makes of another. -/
def extendSpec? (spec : RouteSpec) (json : Json) : Option RouteSpec := do
  let items ← json.array?
  let word ← items.head?.bind Json.string?
  let argument := items[1]?.bind Json.string?
  match word with
  | "path" => argument.map RouteSpec.empty.withPath
  | "with_path" => argument.map spec.withPath
  | "method" => argument.map spec.withMethod
  | "get" => some (spec.withMethod "GET")
  | "post" => some (spec.withMethod "POST")
  | "put" => some (spec.withMethod "PUT")
  | "delete" => some (spec.withMethod "DELETE")
  | "patch" => some (spec.withMethod "PATCH")
  | "param" => argument.map spec.withParam
  | "header" => argument.map spec.withHeader
  | "consumes" => argument.map spec.withConsumed
  | "produces" => argument.map spec.withProduced
  | "name" => argument.map spec.withName
  | _ => none

/-- The policy that a list of a word and its argument makes of another. -/
def extendPolicy? (policy : CorsConfig) (json : Json) : Option CorsConfig := do
  let items ← json.array?
  let word ← items.head?.bind Json.string?
  let argument := items[1]?
  let text := argument.bind Json.string?
  match word with
  | "allowed_origin" => text.map policy.allowOrigin
  | "allowed_origin_pattern" => text.map policy.allowOriginPattern
  | "allowed_method" => text.map policy.allowMethod
  | "allowed_header" => text.map policy.allowHeader
  | "exposed_header" => text.map policy.exposeHeader
  | "allow_credentials" => (argument.bind Json.bool?).map policy.setCredentials
  | "max_age" => (argument.bind Json.word?).map policy.setMaxAge
  | "apply_permit_default_values" => some policy.withDefaults
  | _ => none

/-- A policy: the one that allows everything, one built step by step, or one in full. -/
def policy? (json : Json) : Option CorsConfig :=
  match json.string?, json.given? "build" with
  | some "ALLOW", _ => some .allowAll
  | _, some steps => steps.array?.bind fun steps => steps.foldlM extendPolicy? .empty
  | _, none => CorsConfig.ofJson? json

/-- What a handler answers with. -/
def output? (json : Json) : Option HandlerOutput := do
  match ← json.need "type" Json.string? with
  | "empty" => some .empty
  | "text" => (json.need "text" Json.string?).map .text
  | "json" => some (.json ((json.field? "value").getD .null))
  | "bytes" => return .bytes (← json.need "content_type" Json.string?) (← json.need "hex" hex?)
  | "status" => (json.need "status" status?).map .status
  | _ => none

/-- How a handler fails. -/
def failure? (json : Json) : Option HandlerError := do
  let message ← json.orElse "message" Json.string? ""
  match ← json.need "kind" Json.string? with
  | "Failed" => some (.failed message)
  | "BadRequest" => some (.badRequest message)
  | "Status" => return .status (← json.orElse "status" status? .internalServerError) message
  | "UnresolvedBean" => some (.unresolvedBean message)
  | "AsyncTimeout" => some .asyncTimeout
  | "AsyncCancelled" => some .asyncCancelled
  | _ => none

/-- A step at the response: a list of a word and its arguments. -/
def step? (json : Json) : Option ResponseStep := do
  match ← json.array? with
  | [] => none
  | word :: arguments =>
    match ← word.string?, arguments with
    | "set_status", [n] => (status? n).map .setStatus
    | "set_body", [text] => text.string?.map fun text => .setBody (Text.utf8 text)
    | "set_body_hex", [digits] => (hex? digits).map .setBody
    | "send_error", [n, text] => return .sendError (← status? n) (← text.string?)
    | "reset", _ => some .reset
    | "add_header", [name, text] => do
      let (name, value) ← field? (← name.string?) (Text.utf8 (← text.string?))
      return .addHeader name value
    | "add_header_hex", [name, digits] => do
      let (name, value) ← field? (← name.string?) (← hex? digits)
      return .addHeader name value
    | "write", [answer] => (output? answer).map .write
    | "take_body", _ => some .takeBody
    | "get_header", [name] => name.string?.map .readHeader
    | _, _ => none

/-- How a script ends: of the fields that say so the first counts. -/
def ending? (json : Json) : Option ScriptEnding := do
  let pending ← json.flag "pending"
  let error ← json.maybe "error" failure?
  let boundary ← json.flag "boundary"
  let output ← json.maybe "output" output?
  return match pending, error, boundary, output with
    | true, _, _, _ => .never
    | false, some error, _, _ => .failure error
    | false, none, true, _ => .boundary
    | false, none, false, some output => .output output
    | false, none, false, none => .name

/-- A script. -/
def script? (json : Json) : Option Script := do
  return ⟨← json.list "calls" step?, ← json.flag "async", ← ending? json⟩

/-- A method of a controller. -/
def scriptedMethod? (json : Json) : Option ScriptedMethod := do
  return {
    method := {
      name := ← json.need "name" Json.string?
      route := ← json.maybe "route" spec?
      cors := ← json.maybe "cors" policy? }
    script := ← json.orElse "action" script? .plain
    changed := ← json.maybe "last_modified" instant? }

/-- A controller of a number. -/
def controller? (number : Nat) (json : Json) : Option ScriptedController :=
  if json.string? = some "bare" then some (.bare number)
  else do
    let methods ← json.list "methods" scriptedMethod?
    return {
      controller := {
        identity := .application number
        typeName := ← json.need "type_name" Json.string?
        route := ← json.maybe "route" spec?
        cors := ← json.maybe "cors" policy?
        methods := methods.map ScriptedMethod.method }
      methods }

/-- A request handler of a number; its name alone will do. -/
def handler? (number : Nat) (json : Json) : Option ScriptedHandler :=
  match json.string? with
  | some name => some (.plain number name)
  | none => do
    return {
      handler := .application number (← json.need "name" Json.string?)
      script := ← json.orElse "action" script? .plain
      changed := ← json.maybe "last_modified" instant? }

/-- Number the items of a list from a start on, and read them. -/
def numbered? {α : Type} (start : Nat) (decode : Nat → Json → Option α) (items : List Json) :
    Option (List α) :=
  (items.zipIdx start).mapM fun (item, number) => decode number item

/-- The controllers of an object under their keys. -/
def controllers? (json : Json) : Option (List (String × ScriptedController)) :=
  match json.given? "controllers" with
  | some (.object fields) =>
    fields.zipIdx.mapM fun ((key, value), number) => do return (← key, ← controller? number value)
  | _ => some []

/-- A method that a handler refers to: a name alone declares nothing. -/
def methodRef? (json : Json) : Option ControllerMethod :=
  match json.string? with
  | some name => some (.plain name)
  | none => (scriptedMethod? json).map ScriptedMethod.method

/-- A handler method of one of several controllers or of a bean. -/
def handlerRef? (controllers : List (String × ScriptedController)) (json : Json) :
    Option HandlerMethod :=
  if json.string? = some "PREFLIGHT" then some .ambiguousPreflight
  else do
    let method ← json.need "method" methodRef?
    match ← json.maybe "bean" Json.string? with
    | some bean => return .ofBean bean (← json.need "type" Json.string?) method
    | none =>
      let key ← json.need "controller" Json.string?
      return .ofController (← controllers.lookup key).controller method

/-- Whether an interceptor lets a request pass. -/
def passage? (json : Json) : Option (Except HandlerError Bool) :=
  match json.bool? with
  | some passes => some (.ok passes)
  | none => (failure? json).map .error

/-- An interceptor. -/
def interceptor? (json : Json) : Option ScriptedInterceptor :=
  if json.string? = some "silent" then some .silent
  else do
    let failing := fun (hook : String) =>
      json.orElse hook (fun error => (failure? error).map Except.error) (Except.ok ())
    return {
      name := some (← json.need "name" Json.string?)
      preSteps := ← json.list "pre_calls" step?
      postSteps := ← json.list "post_calls" step?
      completionSteps := ← json.list "completion_calls" step?
      asyncSteps := ← json.list "async_calls" step?
      preResult := ← json.orElse "pre" passage? (.ok true)
      postResult := ← failing "post"
      completionResult := ← failing "completion" }

/-- A resolver. -/
def resolver? (json : Json) : Option ScriptedResolver :=
  if json.string? = some "status" then some .standard
  else do return .answering (← json.maybe "handles" Json.string?) (← json.maybe "status" status?)

/-- A fault of a dispatch by its kind. -/
def fault? (json : Json) : Option DispatchFault := do
  let text := fun (name : String) => json.orElse name Json.string? ""
  match ← json.need "kind" Json.string? with
  | "Cancelled" => return .cancelled
  | "NoAdapter" => return .noAdapter (← text "handler")
  | "NoHandlerFound" =>
    return .mapping (.noHandlerFound (← json.need "method" method?) (← text "path"))
  | "MethodNotAllowed" =>
    return .mapping
      (.methodNotAllowed (← json.need "method" method?) (← json.list "allowed" method?))
  | "NotAcceptable" => return .mapping (.notAcceptable (← json.list "supported" Json.string?))
  | "UnsupportedMediaType" =>
    return .mapping
      (.unsupportedMediaType (← text "content_type") (← json.list "supported" Json.string?))
  | "UnsatisfiedParams" =>
    return .mapping (.unsatisfiedParams (← json.list "conditions" Json.string?))
  | "AmbiguousHandler" =>
    return .mapping (.ambiguousHandler (← text "path") (← text "first") (← text "second"))
  | "AmbiguousMapping" =>
    return .mapping (.ambiguousMapping (← text "mapping") (← text "existing") (← text "new"))
  | "InvalidMapping" => return .mapping (.invalidMapping (← text "handler") (← text "reason"))
  | "MissingBean" => return .mapping (.bean (.missing (← text "name")))
  | "ConflictingBeanName" => return .mapping (.bean (.conflicting (← text "name")))
  | "Cors" => return .mapping (.cors .credentialsWithWildcardOrigin)
  | _ => (failure? json).map .handler

end HttpRouting.Scenario
