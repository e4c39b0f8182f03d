import HttpRouting.Exchange
import HttpRouting.Mapping.Error

/-!
Strategies: what a mapping key means.  A strategy derives keys from the methods of controllers,
matches and ranks them for a request, and says what follows from a match or from none.
-/

set_option autoImplicit false
set_option relaxedAutoImplicit false

namespace HttpRouting

/-- A strategy for keys of one type.
* `isHandler`: whether the methods of a controller are looked at.
* `keyFor`: the key of a method, or none for a method that serves no requests.
* `directPaths`: the paths that a key matches literally.
* `lookupPath`: the path of a request by which keys are looked up.
* `narrow`: a key narrowed to what matches a request, if it does.
* `compare`: which of two narrowed keys fits a request better.
* `expose`: what is noted on the exchange for the narrowed key that was chosen.
* `onMiss`: a handler to use anyway, nothing, or the reason why no key matches.
* `corsFor`: the cross-origin policy of a handler method under a key.
* `asAttribute`: a key as the value of an attribute.
* `text`: the text of a key. -/
structure MappingStrategy (κ : Type) where
  isHandler : Controller → Bool
  keyFor : Controller → ControllerMethod → Except MappingError (Option κ)
  directPaths : κ → List String
  lookupPath : Request → String
  narrow : κ → Request → String → Option κ
  compare : κ → κ → Request → String → Ordering
  expose : κ → String → Work → Work
  onMiss : List κ → String → Request → Except MappingError (Option HandlerMethod)
  corsFor : HandlerMethod → κ → Except MappingError (Option CorsConfig)
  asAttribute : κ → AttributeValue
  text : κ → String

/-- Finds the handler of a request, working on the exchange. -/
structure HandlerMapping where
  name : String
  find : Exchange → Work × Except MappingError (Option Handler)

end HttpRouting
