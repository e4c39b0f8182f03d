import HttpRouting.Cors.Config
import HttpRouting.Route.Spec
import HttpRouting.Uuid

/-!
Controllers: types whose methods serve requests, with what they declare about routes and
cross-origin policies.  Beans are controllers under unique names.
-/

set_option autoImplicit false
set_option relaxedAutoImplicit false

namespace HttpRouting

/-- A method of a controller with its declarations. -/
structure ControllerMethod where
  name : String
  route : Option RouteSpec
  cors : Option CorsConfig
deriving DecidableEq, Repr

/-- A method that declares nothing. -/
def ControllerMethod.plain (name : String) : ControllerMethod := ⟨name, none, none⟩

/-- Which instance a controller is.  Two controllers of the application are the same instance when
their numbers agree.  Of those that answer in place of the application, one stands for ties in
preflights, and one that lists methods is made for every request that asks for them. -/
inductive ControllerIdentity where
  | application (number : Nat)
  | ambiguousPreflight
  | allowedMethods (asked : Uuid) (allow : String)
deriving DecidableEq, Repr

/-- A controller: one instance with its declarations. -/
structure Controller where
  identity : ControllerIdentity
  typeName : String
  route : Option RouteSpec
  cors : Option CorsConfig
  methods : List ControllerMethod
deriving DecidableEq, Repr

/-- Why a bean cannot be found or added. -/
inductive BeanError where
  | missing (name : String)
  | conflicting (name : String)
deriving DecidableEq, Repr

/-- The sentence that reports the error. -/
def BeanError.message : BeanError → String
  | .missing name => "Bean with name '" ++ name ++ "' not found."
  | .conflicting name => "Bean with name '" ++ name ++ "' already exists."

/-- Controllers under unique names, in the order they were added. -/
structure BeanRegistry where
  beans : List (String × Controller)
deriving DecidableEq, Repr

namespace BeanRegistry

/-- No beans. -/
def empty : BeanRegistry := ⟨[]⟩

/-- The controller of a name. -/
def resolve (registry : BeanRegistry) (name : String) : Except BeanError Controller :=
  match registry.beans.lookup name with
  | some controller => .ok controller
  | none => .error (.missing name)

/-- Add a controller under a name that is not taken. -/
def register (registry : BeanRegistry) (name : String) (controller : Controller) :
    Except BeanError BeanRegistry :=
  if (registry.beans.lookup name).isSome then .error (.conflicting name)
  else .ok ⟨registry.beans ++ [(name, controller)]⟩

/-- The names in order. -/
def names (registry : BeanRegistry) : List String :=
  (registry.beans.map Prod.fst).mergeSort fun a b => (compare a b).isLE

end BeanRegistry

end HttpRouting
