import TableStore.Catalog.Program
import TableStore.Store.Request

/-!
# Arguments of catalog operations

What callers hand to operations, and the checks that are made on it before anything is read.
-/

namespace TableStore

/-- What operations work with: the limits in force, the dialect of the store, the time, and a source
of fresh identifiers. -/
structure Surroundings where
  limits : Query.Limits
  dialect : Sql.Dialect
  now : Timestamp
  fresh : Nat → Uuid

/-- A column as a caller defines it. -/
structure ColumnDefinition where
  name : String
  type : String
  properties : Members Json
deriving DecidableEq, Inhabited

/-- Changes to a column as a caller asks for them; what is absent stays. -/
structure ColumnChanges where
  name : Option String
  type : Option String
  properties : Option (Members Json)
  index : Option Int
deriving DecidableEq, Inhabited

/-- Where children are listed. -/
inductive Parent where
  | root (organization : Uuid)
  | folder (id : Uuid)
deriving DecidableEq, Inhabited

namespace Catalog

def checkType (name : String) : Except CatalogError ColumnType :=
  match ColumnType.read? name with
  | some type => .ok type
  | none => .error (.invalidType name)

def checkProperties (members : Members Json) : Except CatalogError Properties :=
  (Properties.ofMembers? members).mapError .invalidProperty

def checkUpdate (members : Members Json) : Except CatalogError PropertiesUpdate :=
  (PropertiesUpdate.ofMembers? members).mapError .invalidProperty

/-- The position that an index asks for; a negative one is refused. -/
def checkIndex : Option Int → Except CatalogError (Option Nat)
  | none => .ok none
  | some (.ofNat n) => .ok (some n)
  | some index => .error (.invalidIndex index)

/-- The limit to use: the default one if none is given. -/
def checkLimit (limits : Query.Limits) : Option Nat → Except CatalogError Nat
  | none => .ok limits.default
  | some limit => if limits.max < limit then .error (.invalidLimit limit limits.max) else .ok limit

def checkOffset (offset : Nat) : Except CatalogError Nat :=
  if Query.maxOffset < offset then .error (.invalidOffset offset Query.maxOffset) else .ok offset

/-- The new column of a definition; its type is checked first. -/
def checkDefinition (d : ColumnDefinition) : Except CatalogError NewColumn := do
  let type ← checkType d.type
  return ⟨d.name, type, ← checkProperties d.properties⟩

/-- The update of changes: index, type and properties are checked in this order. -/
def checkChanges (c : ColumnChanges) : Except CatalogError ColumnUpdate := do
  let index ← checkIndex c.index
  let type ← c.type.mapM checkType
  let properties ← c.properties.mapM checkUpdate
  return ⟨c.name, type, properties, index⟩

/-- The result of a check, in a program. -/
def check {α : Type} (r : Except CatalogError α) : Program α :=
  .ofExcept id r

end Catalog
end TableStore
