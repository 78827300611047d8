import TableStore.Json.Source
import TableStore.Store.Statement

/-!
# Rows from the database server

A row of a result has named columns, each with a value of one of the types the store uses. Columns
are read by their names or by their positions (`ResultRow.named`, `ResultRow.nth`); a value that is
missing, or of another type than the one wanted, makes the row unreadable. `Statement.read` is what
each statement reads from the rows it is answered with.
-/

namespace TableStore

/-- A value in a row. -/
inductive Cell where
  | null
  | bool (b : Bool)
  | int (n : Int)
  | real (x : Binary64)
  | text (s : String)
  | uuid (u : Uuid)
  | time (t : Timestamp)
  | document (j : Json)
deriving DecidableEq, Inhabited

namespace Cell

def uuid? : Cell → Option Uuid
  | .uuid u => some u
  | _ => none

def text? : Cell → Option String
  | .text s => some s
  | _ => none

def int? : Cell → Option Int
  | .int n => some n
  | _ => none

def time? : Cell → Option Timestamp
  | .time t => some t
  | _ => none

/-- The value of a column that may hold nothing. -/
def optional? {α : Type} (read : Cell → Option α) : Cell → Option (Option α)
  | .null => some none
  | c => (read c).map some

/-- The properties in a document, which is read from its text. -/
def properties? : Cell → Option Properties
  | .document j => do return ⟨← (← j.readBack?).members?⟩
  | _ => none

/-- A number as a document; there is none for infinities and for what is no number. -/
def ofReal (x : Binary64) : Json :=
  if x.isFinite then .num (.real x) else .null

/-- The value as a part of a record. Identifiers and timestamps are not parts of records. -/
def toJson? : Cell → Option Json
  | .null => some .null
  | .bool b => some (.bool b)
  | .int n => some (.num (.int n))
  | .real x => some (ofReal x)
  | .text s => some (.str s)
  | .document j => j.readBack?
  | .uuid _ | .time _ => none

end Cell

/-- A row of a result: its columns in order, each with its name. -/
structure ResultRow where
  cells : List (String × Cell)
deriving DecidableEq, Inhabited

namespace ResultRow

/-- A column by its name; of several with one name the last one counts. -/
def named {α : Type} (row : ResultRow) (name : String) (read : Cell → Option α) : Option α := do
  let (_, cell) ← row.cells.reverse.find? fun c => c.1 == name
  read cell

/-- A column by its position. -/
def nth {α : Type} (row : ResultRow) (position : Nat) (read : Cell → Option α) : Option α := do
  let (_, cell) ← row.cells[position]?
  read cell

def organization? (row : ResultRow) : Option Organization := do
  return {
    id := ← row.named "id" Cell.uuid?
    name := ← row.named "name" Cell.text?
    createdAt := ← row.named "created_at" Cell.time?
    updatedAt := ← row.named "updated_at" Cell.time? }

def entry? (row : ResultRow) : Option EntryRow := do
  return {
    id := ← row.named "id" Cell.uuid?
    organizationId := ← row.named "organization_id" Cell.uuid?
    type := ← row.named "type" Cell.text?
    parent := ← row.named "parent_folder_id" (Cell.optional? Cell.uuid?)
    properties := ← row.named "properties" Cell.properties?
    createdAt := ← row.named "created_at" Cell.time?
    updatedAt := ← row.named "updated_at" Cell.time? }

def column? (row : ResultRow) : Option ColumnRow := do
  return {
    id := ← row.named "id" Cell.uuid?
    tableId := ← row.named "table_id" Cell.uuid?
    index := ← row.named "index" Cell.int?
    name := ← row.named "name" Cell.text?
    type := ← row.named "type" Cell.text?
    properties := ← row.named "properties" Cell.properties?
    createdAt := ← row.named "created_at" Cell.time?
    updatedAt := ← row.named "updated_at" Cell.time? }

/-- The organization and the type of an entry. -/
def placement? (row : ResultRow) : Option (Uuid × String) := do
  return (← row.nth 0 Cell.uuid?, ← row.nth 1 Cell.text?)

/-- So many columns from the front as parts of a record. -/
def parts? (row : ResultRow) (width : Nat) : Option (List Json) :=
  (List.range width).mapM fun position => row.nth position Cell.toJson?

/-- Reads all rows. -/
def readAll {α : Type} (read : ResultRow → Option α) (rows : List ResultRow) :
    Except StoreError (List α) :=
  match rows.mapM read with
  | some answers => .ok answers
  | none => .error .failed

/-- Reads the first row, if there is one. -/
def readFirst {α : Type} (read : ResultRow → Option α) :
    List ResultRow → Except StoreError (Option α)
  | [] => .ok none
  | row :: _ =>
    match read row with
    | some answer => .ok (some answer)
    | none => .error .failed

end ResultRow

open ResultRow in
/-- What a statement reads from the rows it is answered with. -/
def Statement.read {α : Type} : Statement α → List ResultRow → Except StoreError α
  | .insertOrganization _ => readFirst organization?
  | .getOrganization _ => readFirst organization?
  | .listOrganizations => readAll organization?
  | .renameOrganization _ _ _ => readFirst organization?
  | .deleteOrganization _ => readFirst fun _ => some ()
  | .insertEntry _ => readFirst entry?
  | .markFolder _ => fun _ => .ok ()
  | .markTable _ => fun _ => .ok ()
  | .getEntry _ => readFirst entry?
  | .listChildren _ _ _ _ _ => readAll entry?
  | .countChildren _ _ => readFirst (·.named "count" Cell.int?)
  | .getEntryProperties _ => readFirst (·.nth 0 Cell.properties?)
  | .setEntryProperties _ _ _ => readFirst entry?
  | .touchEntry _ _ => readFirst (·.nth 0 Cell.uuid?)
  | .getPlacement _ => readFirst placement?
  | .getParent _ => readFirst (·.nth 0 (Cell.optional? Cell.uuid?))
  | .setParent _ _ => readFirst entry?
  | .deleteEntry _ => readFirst fun _ => some ()
  | .columnOrder _ => readAll (·.nth 0 Cell.uuid?)
  | .negateIndices _ => fun _ => .ok ()
  | .setIndex _ _ => fun _ => .ok ()
  | .getColumn _ => readFirst column?
  | .listColumns _ => readAll column?
  | .insertColumn _ => fun _ => .ok ()
  | .setColumn _ _ _ _ _ => fun _ => .ok ()
  | .deleteColumn _ => readFirst (·.nth 0 Cell.uuid?)
  | .insertRecords _ => fun rows => .ok rows.length
  | .selectRecords plan => readAll (·.parts? plan.width)

end TableStore
