/-!
Tables: values under keys, where keys count as one when they compare equal.  A new key comes last,
and a value that is replaced keeps its place and the key it was first put under.
-/

set_option autoImplicit false
set_option relaxedAutoImplicit false

namespace HttpRouting

/-- Values under keys. -/
structure Table (κ β : Type) where
  entries : List (κ × β)
deriving Repr

namespace Table

variable {κ β : Type} [BEq κ]

/-- No values. -/
def empty : Table κ β := ⟨[]⟩

/-- The keys in the order of the entries. -/
def keys (table : Table κ β) : List κ :=
  table.entries.map Prod.fst

/-- The values in the order of the entries. -/
def values (table : Table κ β) : List β :=
  table.entries.map Prod.snd

/-- The value under a key. -/
def get? (table : Table κ β) (key : κ) : Option β :=
  (table.entries.find? fun entry => entry.1 == key).map Prod.snd

/-- Replace the value of the first entry with a key, or add an entry. -/
def putEntry (key : κ) (value : β) : List (κ × β) → List (κ × β)
  | [] => [(key, value)]
  | entry :: rest =>
    if entry.1 == key then (entry.1, value) :: rest else entry :: putEntry key value rest

/-- Put a value under a key. -/
def put (table : Table κ β) (key : κ) (value : β) : Table κ β :=
  ⟨putEntry key value table.entries⟩

/-- Take the value under a key away. -/
def erase (table : Table κ β) (key : κ) : Table κ β :=
  ⟨table.entries.filter fun entry => !(entry.1 == key)⟩

variable {γ : Type} [BEq γ]

/-- The values of a bucket; a key without one has none. -/
def bucket (table : Table κ (List γ)) (key : κ) : List γ :=
  (table.get? key).getD []

/-- Add a value to the bucket of a key, unless it is there. -/
def addTo (table : Table κ (List γ)) (key : κ) (value : γ) : Table κ (List γ) :=
  let values := table.bucket key
  if values.contains value then table else table.put key (values ++ [value])

/-- Take a value out of the bucket of a key; an empty bucket goes away with its key. -/
def removeFrom (table : Table κ (List γ)) (key : κ) (value : γ) : Table κ (List γ) :=
  match table.get? key with
  | none => table
  | some values =>
    match values.filter fun v => !(v == value) with
    | [] => table.erase key
    | kept => table.put key kept

end Table

end HttpRouting
