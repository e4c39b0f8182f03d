import HttpRouting.Dispatch.Application
import HttpRouting.Mapping.Registry
import HttpRouting.Report.Exchange

/-!
Registrations and what handlers answer with in JSON.
-/

set_option autoImplicit false
set_option relaxedAutoImplicit false

namespace HttpRouting.Report

/-- A moment as seconds and nanoseconds. -/
def instant (t : Instant) : Json :=
  .array [.ofInt t.seconds, .ofNat t.nanos]

/-- A registration. -/
def registration {κ : Type} (text : κ → String) (r : Registration κ) : Json :=
  Json.ofFields
    [("mapping", .ofString (text r.mapping)), ("handler", handlerMethod r.handler),
      ("direct_paths", .ofStrings r.directPaths), ("name", Json.ofOption .ofString r.name),
      ("cors", .bool r.hasCors)]

/-- What an invocation comes to; one that never ends shows nothing. -/
def invocation : Invocation HandlerOutput → Json
  | .finished result => outcome result
  | .pending => .null

end HttpRouting.Report
