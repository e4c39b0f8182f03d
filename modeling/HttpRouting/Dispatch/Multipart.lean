import HttpRouting.Exchange

/-!
Requests in parts: before a request is routed the boundary of its parts is noted on the exchange,
and taken away when the request is brought to its end.
-/

set_option autoImplicit false
set_option relaxedAutoImplicit false

namespace HttpRouting

/-- Prepares requests in parts, and cleans up after them. -/
structure MultipartResolver where
  isMultipart : Exchange → Bool
  resolve : Exchange → Work × Except HandlerError Unit
  cleanup : Exchange → Work

namespace MultipartResolver

/-- Whether a content type is one of bodies in parts. -/
def isMultipartType (contentType : String) : Bool :=
  "multipart/".toList.isPrefixOf ((Text.trimStart contentType.toList).map Char.toLower)

/-- The boundary that the parameters of a content type name: the first one counts, without blanks
and then without quotes at its ends, and it may not be empty. -/
def boundary? (contentType : String) : Option String :=
  let parameters := ((contentType.toList.splitOn ';').drop 1).filterMap (Text.splitOnce? ['='])
  let named := parameters.find? fun (name, _) =>
    Text.sameIgnoringCase (String.ofList (Text.trim name)) "boundary"
  (named.map fun (_, value) => String.ofList (Text.stripMark '"' (Text.trim value))).filter
    fun boundary => !boundary.isEmpty

/-- Notes the boundary as an attribute. -/
def standard : MultipartResolver :=
  { isMultipart := fun exchange => exchange.request.contentType?.any isMultipartType
    resolve := fun exchange =>
      match exchange.request.contentType?.bind boundary? with
      | none => (exchange.work, .error (.badRequest "Multipart request has no boundary"))
      | some boundary =>
        (exchange.work.setAttribute Attributes.multipartBoundary (.text boundary), .ok ())
    cleanup := fun exchange =>
      { exchange.work with
        attributes := exchange.work.attributes.erase Attributes.multipartBoundary .text } }

end MultipartResolver

end HttpRouting
