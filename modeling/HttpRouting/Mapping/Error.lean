import HttpRouting.Handler.Controller
import HttpRouting.Text.Quoted

/-!
Faults of mappings: of registering handlers, and of finding the handler of a request.
-/

set_option autoImplicit false
set_option relaxedAutoImplicit false

namespace HttpRouting

/-- Why a handler cannot be registered, or a request has none. -/
inductive MappingError where
  | ambiguousMapping (mapping existing new : String)
  | ambiguousHandler (path first second : String)
  | invalidMapping (handler reason : String)
  | methodNotAllowed (method : Method) (allowed : List Method)
  | unsupportedMediaType (contentType : String) (supported : List String)
  | notAcceptable (supported : List String)
  | unsatisfiedParams (conditions : List String)
  | noHandlerFound (method : Method) (path : String)
  | bean (error : BeanError)
  | cors (error : CorsError)
deriving DecidableEq, Repr

namespace MappingError

/-- The sentence that reports the error. -/
def message : MappingError → String
  | .ambiguousMapping mapping existing new =>
    "Ambiguous mapping. Cannot map '" ++ new ++ "' method " ++ mapping ++ ": there is already '"
      ++ existing ++ "' mapped."
  | .ambiguousHandler path first second =>
    "Ambiguous handler methods mapped for '" ++ path ++ "': \x7b" ++ first ++ ", " ++ second
      ++ "\x7d"
  | .invalidMapping handler reason => "Invalid mapping on handler '" ++ handler ++ "': " ++ reason
  | .methodNotAllowed method _ => "Request method '" ++ method.name ++ "' is not supported."
  | .unsupportedMediaType contentType _ => "Content type '" ++ contentType ++ "' is not supported."
  | .notAcceptable _ => "No acceptable representation."
  | .unsatisfiedParams conditions =>
    "Parameter conditions " ++ Text.quotedList conditions
      ++ " not met for actual request parameters."
  | .noHandlerFound method path => "No handler found for " ++ method.name ++ " " ++ path ++ "."
  | .bean error => error.message
  | .cors error => error.message

end MappingError

end HttpRouting
