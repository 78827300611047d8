import TableStore.Catalog.Argument
import TableStore.Catalog.Stored

/-!
# Operations on columns

Every operation on a column names its table, which has to exist, and the column has to belong to it.
-/

namespace TableStore.Catalog

/-- Where an entry is missing or is no table, a table is missing. -/
def asMissingTable (id : Uuid) : CatalogError → CatalogError
  | .entryNotFound _ => .tableNotFound id
  | e => e

/-- A table. -/
def requireTable (id : Uuid) : Program Entry := do
  let entry ← (Stored.getEntry id).mapError (asMissingTable id)
  if entry.type = .table then return entry else .fail (.tableNotFound id)

/-- A column of a given table. -/
def tableColumn (table column : Uuid) : Program Column := do
  let c ← Stored.getColumn column
  if c.tableId = table then return c else .fail (.wrongTable column table)

def listColumns (table : Uuid) : Program (List Column) := do
  let _ ← requireTable table
  Stored.listColumns table

/-- Makes a column at a position, or at the end. -/
def createColumn (env : Surroundings) (table : Uuid) (definition : ColumnDefinition)
    (index : Option Int) : Program Column := do
  let index ← check (checkIndex index)
  let column ← check (checkDefinition definition)
  let _ ← requireTable table
  let column ← Stored.createColumn table column index env.now (env.fresh 0)
  Program.note .debug
    ("Created column " ++ column.id.text ++ " at index " ++ toString column.index ++
      " in table " ++ table.text)
  return column

/-- Changes a column of a table. -/
def updateColumn (env : Surroundings) (table column : Uuid) (changes : ColumnChanges) :
    Program Column := do
  let update ← check (checkChanges changes)
  let _ ← requireTable table
  let _ ← tableColumn table column
  Stored.updateColumn column update env.now

/-- Deletes a column of a table. -/
def deleteColumn (table column : Uuid) : Program Unit := do
  let _ ← requireTable table
  let _ ← tableColumn table column
  Stored.deleteColumn column
  Program.note .debug ("Deleted column " ++ column.text ++ " from table " ++ table.text)

/-- Brings the named columns of a table to the front. -/
def reorderColumns (table : Uuid) (columns : List Uuid) : Program (List Column) := do
  let _ ← requireTable table
  Stored.reorderColumns table columns

end TableStore.Catalog
