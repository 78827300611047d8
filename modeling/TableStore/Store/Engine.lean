import TableStore.Store.Cascade
import TableStore.Store.Request

/-!
# The embedded database engine

A database is its tables, with two conditions that make writes fail: it may be open for reading
only, and columns of a certain name may be guarded. Statements are bounded: an insertion can have so
many placeholders, a listing or a selection so many terms to sort by, a selection so many output
columns, and a deletion can cascade so deep. `Database.exec` carries out one statement, and
`Database.serve` a request: a transaction that fails leaves the database as it was.
-/

namespace TableStore

/-- An open embedded database. -/
structure Database where
  tables : Tables
  readOnly : Bool
  /-- Columns of this name are guarded against indices that are not negative. -/
  locked : Option String
deriving DecidableEq, Inhabited

namespace Database

/-- A fresh database. -/
def fresh : Database :=
  ⟨.empty, false, none⟩

/-- The most terms that rows can be sorted by. -/
def maxSortTerms : Nat := 2000

/-- The most columns that an answer can have. -/
def maxColumns : Nat := 2000

/-- A statement that does not change anything. -/
def reading {α : Type} (db : Database) (answer : Tables → α) : Except EngineFault α × Database :=
  (.ok (answer db.tables), db)

/-- A statement that changes the tables, and what it answers from the tables it leaves. -/
def writing {α : Type} (db : Database) (change : Tables → Tables.Change) (answer : Tables → α) :
    Except EngineFault α × Database :=
  if db.readOnly then (.error .readOnly, db)
  else
    match change db.tables with
    | .ok t => (.ok (answer t), { db with tables := t })
    | .error fault => (.error fault, db)

/-- The row of an entry as it comes back. -/
def entryRow? (id : Uuid) (t : Tables) : Option EntryRow :=
  (t.entry? id).map EntryRow.reread

/-- The row of a column as it comes back. -/
def columnRow? (id : Uuid) (t : Tables) : Option ColumnRow :=
  (t.column? id).map ColumnRow.reread

/-- Carries out one statement. -/
def exec {α : Type} (s : Statement α) (db : Database) : Except EngineFault α × Database :=
  match s with
  | .insertOrganization row => db.writing (·.insertOrganization row) (·.organization? row.id)
  | .getOrganization id => db.reading (·.organization? id)
  | .listOrganizations =>
    db.reading fun t =>
      Tables.sortByKeys (fun o => [(.time o.createdAt, .asc), (.uuid o.id, .asc)]) t.organizations
  | .renameOrganization id name now =>
    db.writing
      (fun t => .ok (t.modifyOrganization id fun o => { o with name := name, updatedAt := now }))
      (·.organization? id)
  | .deleteOrganization id =>
    let found := (db.tables.organization? id).map fun _ => ()
    db.writing (·.delete .organization id) fun _ => found
  | .insertEntry row => db.writing (·.insertEntry row) (entryRow? row.id)
  | .markFolder id => db.writing (·.markFolder id) fun _ => ()
  | .markTable id => db.writing (·.markTable id) fun _ => ()
  | .getEntry id => db.reading (entryRow? id)
  | .listChildren organization parent keys limit offset =>
    if maxSortTerms < (SortKey.effectiveKeys keys).length then (.error .tooManySortTerms, db)
    else
      db.reading fun t =>
        (Tables.window offset limit
          (Tables.sortByKeys (Tables.sortValues keys) (t.children organization parent))).map
            EntryRow.reread
  | .countChildren organization parent =>
    db.reading fun t => some (t.children organization parent).length
  | .getEntryProperties id => db.reading fun t => (entryRow? id t).map EntryRow.properties
  | .setEntryProperties id properties now =>
    db.writing
      (fun t => .ok (t.modifyEntry id fun e =>
        { e with properties := properties, updatedAt := now }))
      (entryRow? id)
  | .touchEntry id now =>
    db.writing (fun t => .ok (t.modifyEntry id fun e => { e with updatedAt := now }))
      fun t => (t.entry? id).map EntryRow.organizationId
  | .getPlacement id =>
    db.reading fun t => (t.entry? id).map fun e => (e.organizationId, e.type)
  | .getParent id => db.reading fun t => (t.entry? id).map EntryRow.parent
  | .setParent id parent => db.writing (·.setParent id parent) (entryRow? id)
  | .deleteEntry id =>
    let found := (db.tables.entry? id).map fun _ => ()
    db.writing (·.delete .entry id) fun _ => found
  | .columnOrder table => db.reading fun t => (t.columnsOf table).map ColumnRow.id
  | .negateIndices table =>
    let locked := db.locked
    db.writing (fun t => Tables.negateIndices locked t table) fun _ => ()
  | .setIndex id position =>
    let locked := db.locked
    db.writing (fun t => Tables.writeIndex locked t id position) fun _ => ()
  | .getColumn id => db.reading (columnRow? id)
  | .listColumns table => db.reading fun t => (t.columnsOf table).map ColumnRow.reread
  | .insertColumn row => db.writing (·.insertColumn row) fun _ => ()
  | .setColumn id name type properties now =>
    db.writing
      (fun t => .ok (t.modifyColumn id fun c =>
        { c with name := name, type := type, properties := properties, updatedAt := now }))
      fun _ => ()
  | .deleteColumn id =>
    let found := (db.tables.column? id).map ColumnRow.tableId
    db.writing (fun t => .ok (t.deleteColumn id)) fun _ => found
  | .insertRecords plan =>
    db.writing (fun t => t.insertPlan plan) fun _ => plan.records.length
  | .selectRecords plan =>
    if maxColumns < plan.width then (.error .tooManyColumns, db)
    else if maxSortTerms < plan.order.length then (.error .tooManySortTerms, db)
    else db.reading fun t => (t.selectRecords plan).map fun row => row.map Sql.Value.toJson

/-- Carries out one statement; a fault is told by its message. -/
def execute {α : Type} (s : Statement α) (db : Database) : Except StoreError α × Database :=
  match db.exec s with
  | (.ok answer, db) => (.ok answer, db)
  | (.error fault, db) => (.error (.ofEngineMessage fault.message), db)

/-- Carries out a request. -/
def serve {α : Type} (r : Request α) (db : Database) : Except StoreError α × Database :=
  match r.batch.run execute db with
  | (.ok answer, after) => (.ok answer, after)
  | (.error e, after) => (.error e, if r.atomic then db else after)

end Database
end TableStore
