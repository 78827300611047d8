import TableStore.Entity

/-!
# Rows

The rows of the tables that hold entries and columns. They keep the type as its name: a row is read
before the name is understood. Organizations are their own rows.

Properties are stored as text, and a row comes back with what its text reads as (`reread`). The
reader takes texts that nest below `Source.nestingBound` only: `reread` is for rows with such
properties (`Json.readBack?_eq_reread_iff`), as all rows have that requests lead to
(`Database.properties_are_read_back`).
-/

namespace TableStore

/-- A row of an entry. -/
structure EntryRow where
  id : Uuid
  organizationId : Uuid
  type : String
  parent : Option Uuid
  properties : Properties
  createdAt : Timestamp
  updatedAt : Timestamp
deriving DecidableEq, Inhabited

/-- A row of a column. -/
structure ColumnRow where
  id : Uuid
  tableId : Uuid
  index : Int
  name : String
  type : String
  properties : Properties
  createdAt : Timestamp
  updatedAt : Timestamp
deriving DecidableEq, Inhabited

/-- The row as it comes back from the database, if its properties nest below the bound. -/
def EntryRow.reread (r : EntryRow) : EntryRow :=
  { r with properties := r.properties.reread }

/-- The row as it comes back from the database, if its properties nest below the bound. -/
def ColumnRow.reread (r : ColumnRow) : ColumnRow :=
  { r with properties := r.properties.reread }

end TableStore
