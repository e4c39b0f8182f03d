import HttpRouting.Mapping.Error
import HttpRouting.Handler.Basic

/-!
Faults of a dispatch.
-/

set_option autoImplicit false
set_option relaxedAutoImplicit false

namespace HttpRouting

/-- What can go wrong while a request is dispatched. -/
inductive DispatchFault where
  | mapping (error : MappingError)
  | handler (error : HandlerError)
  | noAdapter (name : String)
  | cancelled
deriving DecidableEq, Repr

/-- The sentence that reports the fault. -/
def DispatchFault.message : DispatchFault → String
  | .mapping error => error.message
  | .handler error => error.message
  | .noAdapter name =>
    "No adapter for handler '" ++ name ++ "'. Register an adapter that supports it."
  | .cancelled => "Dispatch was cancelled before it completed."

end HttpRouting
