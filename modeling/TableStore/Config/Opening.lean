import TableStore.Config.Basic
import TableStore.Log
import TableStore.Store.Location

/-!
# Opening the catalog of a configuration

`CatalogConfig.open?` opens the embedded database that a configuration names. A database server is
spoken to over a connection instead, which is no matter of files.
-/

namespace TableStore

/-- A catalog that was opened in files. -/
structure OpenCatalog where
  database : Database
  file : Option String
  disk : Disk
deriving DecidableEq

namespace CatalogConfig

/-- What is logged before the catalog is opened. -/
def openingLine : CatalogConfig → LogLine
  | .server _ schema =>
    ⟨.info, "Connecting to the PostgreSQL catalog (schema " ++ schema ++ ")"⟩
  | .embedded dsn _ readOnly =>
    ⟨.info, "Opening the SQLite catalog at " ++ dsn ++
      (if readOnly then " in read-only mode" else "")⟩

/-- Opens a catalog in files. A database server is out of reach. -/
def open? (disk : Disk) (held : Option String) : CatalogConfig → Option OpenCatalog
  | .server _ _ => none
  | .embedded dsn mode readOnly => do
    let location ← Location.read? dsn
    let (database, file, disk) ← disk.open? held location mode readOnly
    return ⟨database, file, disk⟩

end CatalogConfig
end TableStore
