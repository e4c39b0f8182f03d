import HttpRouting.Mapping.Strategy
import HttpRouting.Mapping.Table

/-!
The registry of handler methods: registrations by their keys, with an index of the paths that keys
match literally, an index of mapping names and an index of cross-origin policies.
-/

set_option autoImplicit false
set_option relaxedAutoImplicit false

namespace HttpRouting

/-- A key bound to a handler method, with what was derived from both when they were registered. -/
structure Registration (κ : Type) where
  mapping : κ
  handler : HandlerMethod
  directPaths : List String
  name : Option String
  hasCors : Bool

/-- A table of registrations under their keys, with its indexes. -/
structure Registry (κ : Type) where
  table : Table κ (Registration κ)
  paths : Table String (List κ)
  names : Table String (List HandlerMethod)
  policies : Table HandlerMethod CorsConfig

/-- Gives names to mappings. -/
abbrev Naming (κ : Type) := HandlerMethod → κ → String

namespace Registry

variable {κ : Type} [BEq κ]

/-- Nothing is registered. -/
def empty : Registry κ := ⟨.empty, .empty, .empty, .empty⟩

/-- The keys in the order they were registered. -/
def keys (registry : Registry κ) : List κ :=
  registry.table.keys

/-- The live registrations in the order they were made. -/
def registrations (registry : Registry κ) : List (Registration κ) :=
  registry.table.values

/-- The registration of a key. -/
def registration? (registry : Registry κ) (key : κ) : Option (Registration κ) :=
  registry.table.get? key

/-- The keys that match a path literally. -/
def keysAt (registry : Registry κ) (path : String) : List κ :=
  registry.paths.bucket path

/-- The handler methods of a mapping name. -/
def handlersNamed (registry : Registry κ) (name : String) : List HandlerMethod :=
  registry.names.bucket name

/-- The policy of a handler method, which is kept under the method as it was declared. -/
def policy? (registry : Registry κ) (handler : HandlerMethod) : Option CorsConfig :=
  registry.policies.get? handler.declared

/-- Enter a new registration with its policy into the table and all indexes. -/
def add (registry : Registry κ) (r : Registration κ) (policy : Option CorsConfig) : Registry κ :=
  { table := registry.table.put r.mapping r
    paths := r.directPaths.foldl (fun paths path => paths.addTo path r.mapping) registry.paths
    names :=
      match r.name with
      | some name => registry.names.addTo name r.handler
      | none => registry.names
    policies :=
      match policy with
      | some policy => registry.policies.put r.handler policy
      | none => registry.policies }

/-- Bind a key to a handler method.  All that can fail comes first, so that a failure leaves the
registry as it was; a key keeps the handler method it is bound to. -/
def register (registry : Registry κ) (strategy : MappingStrategy κ) (naming : Option (Naming κ))
    (key : κ) (handler : HandlerMethod) : Except MappingError (Registry κ) :=
  match registry.registration? key with
  | some existing =>
    if existing.handler == handler then .ok registry
    else .error (.ambiguousMapping (strategy.text key) existing.handler.text handler.text)
  | none =>
    match strategy.corsFor handler key with
    | .error error => .error error
    | .ok policy =>
      let r : Registration κ :=
        { mapping := key
          handler
          directPaths := strategy.directPaths key
          name := naming.map fun name => name handler key
          hasCors := policy.isSome }
      .ok (registry.add r policy)

/-- Take the registration of a key out of the table and of the indexes.  A name keeps a handler
method, and a handler method keeps its policy, while another registration refers to it. -/
def remove (registry : Registry κ) (key : κ) (r : Registration κ) : Registry κ :=
  let table := registry.table.erase key
  let others := table.values
  { table
    paths := r.directPaths.foldl (fun paths path => paths.removeFrom path key) registry.paths
    names :=
      match r.name with
      | some name =>
        if others.any fun other => other.name == some name && other.handler == r.handler then
          registry.names
        else registry.names.removeFrom name r.handler
      | none => registry.names
    policies :=
      if r.hasCors && !(others.any fun other => other.handler == r.handler) then
        registry.policies.erase r.handler
      else registry.policies }

/-- Release a key; a key that is not bound changes nothing. -/
def unregister (registry : Registry κ) (key : κ) : Registry κ :=
  match registry.registration? key with
  | some r => registry.remove key r
  | none => registry

end Registry

end HttpRouting
