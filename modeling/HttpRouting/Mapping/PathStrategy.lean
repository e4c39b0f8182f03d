import HttpRouting.Mapping.MethodMapping

/-!
A strategy whose keys are plain paths, or beginnings of paths marked by an asterisk at their end.
The longest key that fits a path is the best.
-/

set_option autoImplicit false
set_option relaxedAutoImplicit false

namespace HttpRouting.PathStrategy

/-- The beginning of paths that a key with an asterisk at its end stands for. -/
def beginning? (key : String) : Option (List Char) :=
  Text.withoutEnd? ['*'] key.toList

/-- Whether a key fits a path. -/
def fits (key path : String) : Bool :=
  match beginning? key with
  | some beginning => beginning.isPrefixOf path.toList
  | none => key == path

/-- The key of a method is its name as a path.  Names that begin with a low line are skipped, and
one name is refused. -/
def keyFor (controller : Controller) (method : ControllerMethod) :
    Except MappingError (Option String) :=
  if method.name.toList.head? = some '_' then .ok none
  else if method.name = "bad" then .error (.invalidMapping controller.typeName "bad")
  else .ok (some ("/" ++ method.name))

/-- The strategy; it notes nothing on the exchange and knows no policies. -/
def strategy : MappingStrategy String :=
  { isHandler := fun controller => !controller.methods.isEmpty
    keyFor
    directPaths := fun key => if (beginning? key).isSome then [] else [key]
    lookupPath := Request.lookupPath
    narrow := fun key _ path => if fits key path then some key else none
    compare := fun a b _ _ => compare b.utf8ByteSize a.utf8ByteSize
    expose := fun _ _ work => work
    onMiss := fun _ _ _ => .ok none
    corsFor := fun _ _ => .ok none
    asAttribute := .text
    text := id }

end HttpRouting.PathStrategy
