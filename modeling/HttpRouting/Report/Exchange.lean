import HttpRouting.Exchange
import HttpRouting.Report.Fault
import HttpRouting.Route.Printer

/-!
Responses, handlers and exchanges in JSON.  Header fields are sorted by their names, and within the
fields and texts that list what a table holds the items are sorted as well, since a table has no
order.
-/

set_option autoImplicit false
set_option relaxedAutoImplicit false

namespace HttpRouting.Report

/-- Octets: a text if they are one, and otherwise their hexadecimal digits. -/
def bytes (octets : Bytes) : Json :=
  match Text.ofUtf8? octets with
  | some text => .ofString text
  | none => Json.ofFields [("hex", .ofString (Text.hexEncode octets))]

/-- A listing with its items in order. -/
def sortListing (listing : String) : String :=
  let separator := if 1 < (listing.splitOn ", ").length then ", " else ","
  separator.intercalate (sortTexts (listing.splitOn separator))

/-- The fields whose values list what a table holds. -/
def isListing (name : HeaderName) : Bool :=
  name == .allow || name == .accept

/-- The value of a header field. -/
def headerValue (name : HeaderName) (value : HeaderValue) : Json :=
  match Text.ofUtf8? value.bytes with
  | some text => .ofString (if isListing name then sortListing text else text)
  | none => bytes value.bytes

/-- Header fields by name. -/
def headers (fields : List (HeaderName × HeaderValue)) : Json :=
  let sorted := Sorting.sortBy (fun a b => compare a.1.text b.1.text) fields
  .array (sorted.map fun (name, value) => .array [.ofString name.text, headerValue name value])

/-- A response. -/
def response (r : Response) : Json :=
  Json.ofFields
    [("status", .ofNat r.status.code), ("headers", headers r.headers.fields),
      ("body", Json.ofOption bytes r.body)]

/-- What a handler answers with. -/
def output : HandlerOutput → Json
  | .empty => Json.ofFields [("type", .ofString "empty")]
  | .text content => Json.ofFields [("type", .ofString "text"), ("text", .ofString content)]
  | .json value => Json.ofFields [("type", .ofString "json"), ("value", value)]
  | .bytes contentType body =>
    Json.ofFields
      [("type", .ofString "bytes"), ("content_type", .ofString contentType),
        ("hex", .ofString (Text.hexEncode body))]
  | .status code => Json.ofFields [("type", .ofString "status"), ("status", .ofNat code.code)]

/-- What an invocation came to. -/
def outcome : DeferredOutcome → Json
  | .ok answer => output answer
  | .error error => handlerError error

/-- A bean: an instance by its type, or a name. -/
def bean : Bean → String
  | .controller controller => "Instance(" ++ controller.typeName ++ ")"
  | .named name => "Named(" ++ name ++ ")"

/-- A handler method. -/
def handlerMethod (h : HandlerMethod) : Json :=
  Json.ofFields
    [("text", .ofString h.text), ("bean", .ofString (bean h.bean)),
      ("resolved_from", Json.ofOption (fun name => .ofString (bean (.named name))) h.resolvedFrom)]

/-- The text of a handler within the name of its kind. -/
def handlerKind : Handler → String
  | .method h => "Method(" ++ h.text ++ ")"
  | .request h => "Request(" ++ h.name ++ ")"

/-- A handler. -/
def handler : Handler → Json
  | .method h => handlerMethod h
  | .request h =>
    Json.ofFields
      [("text", .ofString h.name), ("debug", .ofString (handlerKind (.request h)))]

/-- The beginning of the sentence that names two handlers in no particular order. -/
def ambiguityStart : String := "Ambiguous handler methods mapped for"

/-- The sentence of a fault, with the two names at the end of an ambiguity in order. -/
def sortNames (sentence : String) : String :=
  if sentence.startsWith ambiguityStart then
    match Text.splitOnce? "\x7b :'".toList sentence.toList.reverse with
    | some (names, front) =>
      let names := String.ofList names.reverse.dropLast
      String.ofList front.reverse ++ "': \x7b"
        ++ ", ".intercalate (sortTexts (names.splitOn ", ")) ++ "\x7d"
    | none => sentence
  else sentence

/-- What a pattern binds. -/
def bindings (bound : Variables) : Json :=
  Json.ofFields (bound.map fun (name, value) => (name, .ofString value))

/-- The value of an attribute. -/
def attributeValue : AttributeValue → Json
  | .text value => .ofString value
  | .number value => .ofNat value
  | .flag value => .bool value
  | .handler value => .ofString value.text
  | .route value => .ofString value.text
  | .bindings value => bindings value

/-- An attribute under a shown name, if it is there. -/
def attribute? (a : Attributes) (shown name : String) (kind : AttributeKind) :
    Option (String × Json) :=
  (a.get? name kind).map fun value => (shown, attributeValue value)

/-- The attributes that a dispatch sets. -/
def attributes (a : Attributes) : Json :=
  Json.ofFields
    (([attribute? a "handler" Attributes.bestHandler .handler,
        attribute? a "mapping" Attributes.bestMapping .route,
        attribute? a "mapping" Attributes.bestMapping .text,
        attribute? a "pattern" Attributes.bestPattern .text,
        attribute? a "path" Attributes.pathWithinMapping .text,
        attribute? a "vars" Attributes.pathVariables .bindings,
        (a.text? Attributes.exception).map fun text => ("exception", .ofString (sortNames text)),
        attribute? a "boundary" Attributes.multipartBoundary .text]).filterMap id)

/-- An exchange. -/
def exchange (e : Exchange) : Json :=
  Json.ofFields
    [("response", response e.response), ("phases", .ofString e.phases.text),
      ("attrs", attributes e.attributes)]

end HttpRouting.Report
