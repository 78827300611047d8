import TableStore.Store.Connection
import TableStore.Store.Engine

/-!
# Backends

A store keeps its rows in the embedded database or on a database server. Both carry out the same
requests.
-/

namespace TableStore

/-- Where a store keeps its rows. -/
inductive Backend where
  | embedded (db : Database)
  | server (c : Connection)

namespace Backend

def dialect : Backend → Sql.Dialect
  | .embedded _ => .sqlite
  | .server _ => .postgres

/-- Carries out a request. -/
def serve {α : Type} (r : Request α) : Backend → Except StoreError α × Backend
  | .embedded db =>
    let (answer, db) := db.serve r
    (answer, .embedded db)
  | .server c =>
    let (answer, c) := c.serve r
    (answer, .server c)

end Backend
end TableStore
