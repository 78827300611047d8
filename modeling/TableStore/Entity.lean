import TableStore.Properties
import TableStore.Sql.Dialect
import TableStore.Timestamp
import TableStore.Uuid

/-!
# What the store keeps

Organizations own entries. An entry is a folder or a table; folders hold entries, tables have
columns and records. These are the entities as callers see them, and their documents.
-/

namespace TableStore

/-- A tenant. -/
structure Organization where
  id : Uuid
  name : String
  createdAt : Timestamp
  updatedAt : Timestamp
deriving DecidableEq, Inhabited

/-- The two types of entries. -/
inductive EntryType where
  | folder
  | table
deriving DecidableEq, Repr, Inhabited

def EntryType.name : EntryType → String
  | .folder => "folder"
  | .table => "table"

def EntryType.all : List EntryType :=
  [.folder, .table]

def EntryType.read? (text : String) : Option EntryType :=
  EntryType.all.find? fun t => t.name == text

/-- The types of columns. -/
inductive ColumnType where
  | string
deriving DecidableEq, Repr, Inhabited

def ColumnType.name : ColumnType → String
  | .string => "string"

def ColumnType.all : List ColumnType :=
  [.string]

def ColumnType.read? (text : String) : Option ColumnType :=
  ColumnType.all.find? fun t => t.name == text

/-- What a stored value of a column is cast to when it is read. -/
def ColumnType.castTarget : ColumnType → Sql.CastTarget
  | .string => .character

/-- A column of a table. -/
structure Column where
  id : Uuid
  tableId : Uuid
  index : Int
  name : String
  type : ColumnType
  properties : Properties
  createdAt : Timestamp
  updatedAt : Timestamp
deriving DecidableEq, Inhabited

/-- A column still to be made. -/
structure NewColumn where
  name : String
  type : ColumnType
  properties : Properties
deriving DecidableEq, Inhabited

/-- What to change of a column; what is absent stays. -/
structure ColumnUpdate where
  name : Option String
  type : Option ColumnType
  properties : Option PropertiesUpdate
  index : Option Nat
deriving DecidableEq, Inhabited

/-- An ancestor of an entry. -/
structure PathElement where
  id : Uuid
  type : EntryType
  properties : Properties
deriving DecidableEq, Inhabited

/-- A folder or a table. The path is there once it has been computed, the columns once they have
been loaded, which happens for tables only. -/
structure Entry where
  id : Uuid
  organizationId : Uuid
  parent : Option Uuid
  type : EntryType
  properties : Properties
  createdAt : Timestamp
  updatedAt : Timestamp
  path : Option (List PathElement)
  columns : Option (List Column)
deriving DecidableEq, Inhabited

def Entry.isFolder (e : Entry) : Bool :=
  e.type == .folder

/-- The entry as an ancestor of others. -/
def Entry.toPathElement (e : Entry) : PathElement :=
  ⟨e.id, e.type, e.properties⟩

/-! ### Documents -/

def Uuid.toJson (u : Uuid) : Json :=
  .str u.text

def Timestamp.toJson (t : Timestamp) : Json :=
  .str t.text

def Organization.toJson (o : Organization) : Json :=
  .obj [
    ("created_at", o.createdAt.toJson),
    ("id", o.id.toJson),
    ("name", .str o.name),
    ("updated_at", o.updatedAt.toJson)]

def Column.toJson (c : Column) : Json :=
  .obj [
    ("created_at", c.createdAt.toJson),
    ("id", c.id.toJson),
    ("index", .num (.int c.index)),
    ("name", .str c.name),
    ("properties", c.properties.toJson),
    ("table_id", c.tableId.toJson),
    ("type", .str c.type.name),
    ("updated_at", c.updatedAt.toJson)]

def PathElement.toJson (p : PathElement) : Json :=
  .obj [
    ("id", p.id.toJson),
    ("properties", p.properties.toJson),
    ("type", .str p.type.name)]

/-- The document of an entry. Path and columns stand in it only when they are there. -/
def Entry.toJson (e : Entry) : Json :=
  .obj (
    (e.columns.map fun cs => ("columns", .arr (cs.map Column.toJson))).toList ++
    [("created_at", e.createdAt.toJson),
      ("id", e.id.toJson),
      ("organization_id", e.organizationId.toJson),
      ("parent_folder_id", (e.parent.map Uuid.toJson).getD .null)] ++
    (e.path.map fun p => ("path", .arr (p.map PathElement.toJson))).toList ++
    [("properties", e.properties.toJson),
      ("type", .str e.type.name),
      ("updated_at", e.updatedAt.toJson)])

end TableStore
