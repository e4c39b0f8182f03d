import HttpRouting.Http.Headers
import HttpRouting.Http.Status

/-!
The response under construction: a status, header fields and perhaps a body.
-/

set_option autoImplicit false
set_option relaxedAutoImplicit false

namespace HttpRouting

/-- A response; nothing written yet is not the same as an empty body. -/
structure Response where
  status : Status
  headers : Headers
  body : Option Bytes
deriving DecidableEq, Repr

namespace Response

/-- The response before anything is written. -/
def blank : Response := ⟨.ok, .empty, none⟩

/-- Replace what was written by a status with a reason as plain text; other header fields stay. -/
def sendError (response : Response) (status : Status) (reason : String) : Response :=
  { status
    headers := response.headers.insert .contentType (.ofPlain "text/plain; charset=utf-8")
    body := some (Text.utf8 reason) }

end Response

end HttpRouting
