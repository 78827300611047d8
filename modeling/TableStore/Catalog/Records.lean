import TableStore.Catalog.Columns
import TableStore.Query.Wire

/-!
# Queries on records

A query is read before anything else, and compiled against the columns that its table has.
-/

namespace TableStore.Catalog

/-- What a query answers. -/
inductive QueryResult where
  | inserted (ids : List Uuid)
  | rows (rows : List (List Json))
deriving DecidableEq, Inhabited

/-- Carries out a query on the records of a table. -/
def executeQuery (env : Surroundings) (table : Uuid) (query : Json) : Program QueryResult := do
  let query ← Program.ofExcept CatalogError.ofQuery (Query.decode env.limits query)
  let _ ← requireTable table
  let columns ← Stored.listColumns table
  let plan ← Program.ofExcept CatalogError.ofQuery
    (Query.compile table columns env.now env.fresh query)
  Program.note .debug (plan.logMessage env.dialect)
  match plan with
  | .insert plan =>
    let count ← Stored.insertRecords plan
    Program.note .debug
      ("Inserted " ++ toString count ++ " record(s) into table " ++ table.text)
    return .inserted plan.recordIds
  | .select plan => return .rows (← Stored.selectRecords plan)

end TableStore.Catalog
