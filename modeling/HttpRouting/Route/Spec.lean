/-!
Route declarations as a controller states them: plain texts that are read when a mapping is made.
-/

set_option autoImplicit false
set_option relaxedAutoImplicit false

namespace HttpRouting

/-- The route declared for a controller or for one of its methods. -/
structure RouteSpec where
  paths : List String
  methods : List String
  params : List String
  headers : List String
  consumes : List String
  produces : List String
  name : Option String
deriving DecidableEq, Repr

namespace RouteSpec

/-- Nothing is declared. -/
def empty : RouteSpec := ⟨[], [], [], [], [], [], none⟩

/-- A path is added. -/
def withPath (spec : RouteSpec) (path : String) : RouteSpec :=
  { spec with paths := spec.paths ++ [path] }

/-- A request method is added. -/
def withMethod (spec : RouteSpec) (method : String) : RouteSpec :=
  { spec with methods := spec.methods ++ [method] }

/-- An expression over the query is added. -/
def withParam (spec : RouteSpec) (expression : String) : RouteSpec :=
  { spec with params := spec.params ++ [expression] }

/-- An expression over the header fields is added. -/
def withHeader (spec : RouteSpec) (expression : String) : RouteSpec :=
  { spec with headers := spec.headers ++ [expression] }

/-- A media type that the handler accepts is added. -/
def withConsumed (spec : RouteSpec) (mediaType : String) : RouteSpec :=
  { spec with consumes := spec.consumes ++ [mediaType] }

/-- A media type that the handler answers with is added. -/
def withProduced (spec : RouteSpec) (mediaType : String) : RouteSpec :=
  { spec with produces := spec.produces ++ [mediaType] }

/-- The mapping gets a name. -/
def withName (spec : RouteSpec) (name : String) : RouteSpec :=
  { spec with name := some name }

end RouteSpec

end HttpRouting
