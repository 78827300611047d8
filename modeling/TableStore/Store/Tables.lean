import TableStore.Store.Row
import TableStore.Query.Compile

/-!
# Tables of the embedded database

The rows of the embedded database and what each change does to them. Identifiers are unique in their
table, references have to lead to rows, and the indices of the columns of a table differ. A change
that would break a constraint is refused with the fault it causes and changes nothing. What goes
with a deleted row is told in `TableStore.Store.Cascade`.

Folders and tables have a marker each beside their entry: parents refer to folder markers, columns
and records to table markers.
-/

namespace TableStore

/-- A row of a record: its cells in one document. -/
structure RecordRow where
  id : Uuid
  tableId : Uuid
  data : Members Json
  createdAt : Timestamp
  updatedAt : Timestamp
deriving DecidableEq, Inhabited

/-- All rows of a database. -/
structure Tables where
  organizations : List Organization
  entries : List EntryRow
  folders : List Uuid
  tables : List Uuid
  columns : List ColumnRow
  records : List RecordRow
deriving DecidableEq, Inhabited

/-- Why the embedded engine refuses a statement. -/
inductive EngineFault where
  | foreignKey
  | unique (key : String)
  | readOnly
  /-- An index was written to a column that is guarded against it. -/
  | guarded
  | tooManyPlaceholders
  | tooManyColumns
  | tooManySortTerms
  | tooManyLevels
deriving DecidableEq, Repr

def EngineFault.message : EngineFault → String
  | .foreignKey => "FOREIGN KEY constraint failed"
  | .unique key => "UNIQUE constraint failed: " ++ key
  | .readOnly => "attempt to write a readonly database"
  | .guarded => "column is locked"
  | .tooManyPlaceholders => "too many SQL variables"
  | .tooManyColumns => "too many columns in result set"
  | .tooManySortTerms => "too many terms in ORDER BY clause"
  | .tooManyLevels => "too many levels of trigger recursion"

namespace Tables

/-- A database without rows. -/
def empty : Tables :=
  ⟨[], [], [], [], [], []⟩

/-! ### Lookups -/

def organization? (t : Tables) (id : Uuid) : Option Organization :=
  t.organizations.find? fun o => o.id == id

def entry? (t : Tables) (id : Uuid) : Option EntryRow :=
  t.entries.find? fun e => e.id == id

def column? (t : Tables) (id : Uuid) : Option ColumnRow :=
  t.columns.find? fun c => c.id == id

/-- The children of a folder, or of the root of an organization. -/
def children (t : Tables) (organization : Uuid) (parent : Option Uuid) : List EntryRow :=
  t.entries.filter fun e => e.organizationId == organization && e.parent == parent

/-- The columns of a table, by index. -/
def columnsOf (t : Tables) (table : Uuid) : List ColumnRow :=
  (t.columns.filter fun c => c.tableId == table).mergeSort fun a b => a.index ≤ b.index

/-! ### Changes -/

/-- A change that may be refused. -/
abbrev Change := Except EngineFault Tables

/-- Refuses where a condition fails. -/
def ensure (condition : Bool) (fault : EngineFault) : Except EngineFault Unit :=
  if condition then .ok () else .error fault

/-- Whether a parent can be referred to: a folder, or none. -/
def isParent (t : Tables) (parent : Option Uuid) : Bool :=
  match parent with
  | some id => t.folders.contains id
  | none => true

def insertOrganization (t : Tables) (row : Organization) : Change := do
  ensure (t.organization? row.id).isNone (.unique "organizations.id")
  return { t with organizations := t.organizations ++ [row] }

/-- Changes the rows of one organization. -/
def modifyOrganization (t : Tables) (id : Uuid) (f : Organization → Organization) : Tables :=
  { t with organizations := t.organizations.map fun o => if o.id = id then f o else o }

def insertEntry (t : Tables) (row : EntryRow) : Change := do
  -- an identifier that is taken is noticed before a reference that leads nowhere
  ensure (t.entry? row.id).isNone (.unique "table_filesystem_entries.id")
  ensure (t.organization? row.organizationId).isSome .foreignKey
  ensure (t.isParent row.parent) .foreignKey
  return { t with entries := t.entries ++ [row] }

def markFolder (t : Tables) (id : Uuid) : Change := do
  ensure (!t.folders.contains id) (.unique "folders.id")
  ensure (t.entry? id).isSome .foreignKey
  return { t with folders := t.folders ++ [id] }

def markTable (t : Tables) (id : Uuid) : Change := do
  ensure (!t.tables.contains id) (.unique "tables.id")
  ensure (t.entry? id).isSome .foreignKey
  return { t with tables := t.tables ++ [id] }

/-- Changes the rows of one entry. -/
def modifyEntry (t : Tables) (id : Uuid) (f : EntryRow → EntryRow) : Tables :=
  { t with entries := t.entries.map fun e => if e.id = id then f e else e }

/-- Sets the parent of an entry, if there is one with this identifier. -/
def setParent (t : Tables) (id : Uuid) (parent : Option Uuid) : Change := do
  ensure ((t.entry? id).isNone || t.isParent parent) .foreignKey
  return t.modifyEntry id fun e => { e with parent := parent }

/-- Whether a column of a table has an index. -/
def hasIndex (t : Tables) (table : Uuid) (index : Int) : Bool :=
  t.columns.any fun c => c.tableId == table && c.index == index

def insertColumn (t : Tables) (row : ColumnRow) : Change := do
  ensure (t.column? row.id).isNone (.unique "columns.id")
  ensure (!t.hasIndex row.tableId row.index) (.unique "columns.table_id, columns.index")
  ensure (t.tables.contains row.tableId) .foreignKey
  return { t with columns := t.columns ++ [row] }

/-- Changes the rows of one column. -/
def modifyColumn (t : Tables) (id : Uuid) (f : ColumnRow → ColumnRow) : Tables :=
  { t with columns := t.columns.map fun c => if c.id = id then f c else c }

/-- Whether some other column of its table has the index that is to be given to a column. -/
def indexTaken (t : Tables) (column : ColumnRow) (index : Int) : Bool :=
  t.columns.any fun c => c.id != column.id && c.tableId == column.tableId && c.index == index

/-- Writes the index of one column. With `locked`, columns of that name are guarded against indices
that are not negative. -/
def writeIndex (locked : Option String) (t : Tables) (id : Uuid) (index : Int) : Change :=
  match t.column? id with
  | none => .ok t
  | some c => do
    -- a guard lets negative indices pass, so that it stops an order only once it is being written
    ensure (!(0 ≤ index && locked == some c.name)) .guarded
    ensure (!t.indexTaken c index) (.unique "columns.table_id, columns.index")
    return t.modifyColumn id fun c => { c with index := index }

/-- Makes the indices of a table negative, one column after the other. -/
def negateIndices (locked : Option String) (t : Tables) (table : Uuid) : Change :=
  (t.columns.filter fun c => c.tableId == table).foldlM
    (fun t c => writeIndex locked t c.id (-1 - c.index)) t

def deleteColumn (t : Tables) (id : Uuid) : Tables :=
  { t with columns := t.columns.filter fun c => c.id != id }

/-- Stores one record. -/
def insertRecord (t : Tables) (r : Query.NewRecord) : Change := do
  ensure (!(t.records.any fun old => old.id == r.id)) (.unique "records.id")
  ensure (t.tables.contains r.tableId) .foreignKey
  return { t with records := t.records ++ [⟨r.id, r.tableId, r.data, r.createdAt, r.createdAt⟩] }

/-- Stores records. -/
def insertRecords (t : Tables) (records : List Query.NewRecord) : Change :=
  records.foldlM insertRecord t

/-- The most placeholders that an insertion can have. -/
def maxPlaceholders : Nat := 32766

/-- Stores the records of one statement. -/
def insertPlan (t : Tables) (plan : Query.InsertPlan) : Change := do
  ensure (plan.params.length ≤ maxPlaceholders) .tooManyPlaceholders
  t.insertRecords plan.records

/-! ### Sorting and windows -/

/-- The order by the first keys that differ. -/
def compareKeys : List (Sql.Value × Direction) → List (Sql.Value × Direction) → Ordering
  | (a, .asc) :: as, (b, _) :: bs => (a.compare b).then (compareKeys as bs)
  | (a, .desc) :: as, (b, _) :: bs => (b.compare a).then (compareKeys as bs)
  | _, _ => .eq

/-- Rows sorted by keys. -/
def sortByKeys {α : Type} (keys : α → List (Sql.Value × Direction)) (rows : List α) : List α :=
  (rows.map fun row => (keys row, row)).mergeSort
    (fun a b => compareKeys a.1 b.1 != .gt) |>.map Prod.snd

/-- The rows after the first `offset` ones, at most `limit` of them. -/
def window {α : Type} (offset limit : Nat) (rows : List α) : List α :=
  (rows.drop offset).take limit

/-- The columns of an entry by the names that statements use. -/
def entryColumn (e : EntryRow) (name : String) : Sql.Value :=
  if name = "e.id" then .uuid e.id
  else if name = "e.type" then .text e.type
  else if name = "e.created_at" then .time e.createdAt
  else if name = "e.updated_at" then .time e.updatedAt
  else if name = "e.properties" then .document (.obj e.properties.members)
  else .null

/-- What an entry is sorted by for a field. -/
def sortValue (e : EntryRow) (field : SortField) : Sql.Value :=
  (field.expr "e").eval ⟨entryColumn e, []⟩

/-- What an entry is sorted by. -/
def sortValues (keys : List SortKey) (e : EntryRow) : List (Sql.Value × Direction) :=
  (SortKey.effectiveKeys keys).map fun k => (sortValue e k.field, k.direction)

/-! ### Records -/

/-- The value that a parameter is bound as. -/
def paramValue : Query.Param → Sql.Value
  | .uuid u => .uuid u
  | .document j => .document j
  | .timestamp t => .time t
  | .literal j => Sql.Value.ofJson j

/-- The columns of a record by the names that statements use. -/
def recordColumn (r : RecordRow) (name : String) : Sql.Value :=
  if name = "records.id" then .uuid r.id
  else if name = "records.table_id" then .uuid r.tableId
  else if name = "records.data" then .document (.obj r.data)
  else if name = "records.created_at" then .time r.createdAt
  else if name = "records.updated_at" then .time r.updatedAt
  else .null

/-- The rows of a table, by the names of their columns. -/
def rowsNamed (t : Tables) (source : String) : List (String → Sql.Value) :=
  if source = "records" then t.records.map recordColumn else []

/-- The rows that a selection answers, given its parameters. -/
def answer (t : Tables) (s : Sql.Select) (params : List Sql.Value) : List (List Sql.Value) :=
  let rows : List Sql.Expr.Context := (t.rowsNamed s.source).map fun row => ⟨row, params⟩
  let kept := rows.filter fun row => (s.condition.eval row).isTrue
  let sorted := sortByKeys (fun row => s.order.map (Sql.OrderTerm.key row)) kept
  (window s.offset s.limit sorted).map fun row => s.outputs.map fun output => output.expr.eval row

/-- The rows that a select statement answers. -/
def selectRecords (t : Tables) (p : Query.SelectPlan) : List (List Sql.Value) :=
  t.answer p.statement (p.params.map paramValue)

end Tables
end TableStore
