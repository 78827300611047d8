import TableStore.ColumnOrder
import TableStore.Store.Statement

/-!
# Operations on the store

Each operation of the store as a batch of statements, and whether the batch is a transaction
(`Request`). The operations that need several statements to change something are transactions.

The index of a column is its position in the order of its table. An operation that changes the order
computes it as a whole (`TableStore.ColumnOrder`) and writes all positions; the old indices are made
negative first, so that no two columns of a table ever have the same one.
-/

namespace TableStore

/-- A batch of statements, and whether it takes effect as a whole or not at all. -/
structure Request (α : Type) where
  atomic : Bool
  batch : Batch α

namespace Request

/-- Statements on their own. -/
def plain {α : Type} (batch : Batch α) : Request α :=
  ⟨false, batch⟩

/-- Statements that take effect together. -/
def transaction {α : Type} (batch : Batch α) : Request α :=
  ⟨true, batch⟩

/-- Identifiers, of which there are so many. -/
def identifierCount : Nat :=
  Nat.pow 2 128

/-! ### Organizations -/

/-- Stores a new organization. -/
def createOrganization (id : Uuid) (name : String) (now : Timestamp) : Request Organization :=
  plain (Batch.askOne (.insertOrganization ⟨id, name, now, now⟩))

def getOrganization (id : Uuid) : Request Organization :=
  plain (Batch.askOne (.getOrganization id))

/-- All organizations, by time of creation. -/
def listOrganizations : Request (List Organization) :=
  plain (Batch.ask .listOrganizations)

def renameOrganization (id : Uuid) (name : String) (now : Timestamp) : Request Organization :=
  plain (Batch.askOne (.renameOrganization id name now))

/-- Deletes an organization and all it owns. -/
def deleteOrganization (id : Uuid) : Request Unit :=
  plain (Batch.askOne (.deleteOrganization id))

/-! ### Entries -/

/-- Stores columns at positions counted from `position`. -/
def insertColumns (table : Uuid) (now : Timestamp) (fresh : Nat → Uuid) :
    Nat → List NewColumn → Batch Unit
  | _, [] => .done ()
  | position, c :: rest =>
    .send (.insertColumn
      ⟨fresh position, table, position, c.name, c.type.name, c.properties, now, now⟩)
      fun _ => insertColumns table now fresh (position + 1) rest

/-- Stores a new entry with its columns. The first fresh identifier is the entry's, the following
ones are the columns'. -/
def createEntry (organization : Uuid) (type : EntryType) (parent : Option Uuid)
    (properties : Properties) (columns : List NewColumn) (now : Timestamp) (fresh : Nat → Uuid) :
    Request EntryRow :=
  transaction do
    let id := fresh 0
    let row ← Batch.askOne
      (.insertEntry ⟨id, organization, type.name, parent, properties, now, now⟩)
    match type with
    | .folder => Batch.ask (.markFolder id)
    | .table => Batch.ask (.markTable id)
    -- columns refer to the marker of a table, so the first column of a folder is refused
    insertColumns id now (fun i => fresh (i + 1)) 0 columns
    return row

def getEntry (id : Uuid) : Request EntryRow :=
  plain (Batch.askOne (.getEntry id))

/-- A window of the children of a folder, or of the root of an organization, and the number of all
of them. A window that signed 64-bit integers can't describe is refused. -/
def listChildren (organization : Uuid) (parent : Option Uuid) (keys : List SortKey)
    (limit offset : Nat) : Request (List EntryRow × Int) :=
  plain (
    if Json.maxSigned < limit ∨ Json.maxSigned < offset then .fail .failed
    else do
      let rows ← Batch.ask (.listChildren organization parent keys limit offset)
      let total ← Batch.askOne (.countChildren organization parent)
      return (rows, total))

/-- Applies an update to the properties of an entry. -/
def updateEntryProperties (id : Uuid) (update : PropertiesUpdate) (now : Timestamp) :
    Request EntryRow :=
  transaction do
    let properties ← Batch.askOne (.getEntryProperties id)
    Batch.askOne (.setEntryProperties id (properties.apply update) now)

/-- Walks from an entry up through its ancestors and refuses to meet `entry`. It ends at a root, or
where it comes a second time; there are fewer than `steps` identifiers left to come to. -/
def walkUp (entry destination : Uuid) : (steps : Nat) → List Uuid → Uuid → Batch Unit
  | 0, _, _ => .done ()
  | steps + 1, visited, current =>
    if current = entry then .fail (.invalidMove entry destination .cycle)
    else if visited.contains current then .done ()
    else
      .send (.getParent current) fun
        | some (some parent) => walkUp entry destination steps (current :: visited) parent
        | some none | none => .done ()

/-- Refuses a destination that does not exist, is no folder, belongs to another organization, or is
the entry or below it. -/
def checkDestination (entry organization destination : Uuid) : Batch Unit := do
  let refuse (reason : MoveRefusal) : Batch Unit :=
    .fail (.invalidMove entry destination reason)
  match ← Batch.ask (.getPlacement destination) with
  | none => refuse .destinationNotFound
  | some (owner, type) =>
    if type ≠ EntryType.folder.name then refuse .notAFolder
    else if owner ≠ organization then refuse .organizationMismatch
    else walkUp entry destination (identifierCount + 1) [] destination

/-- Moves an entry to a folder, or to the root of its organization. The entry is written before
anything is read, so that a concurrent move waits for this one. -/
def moveEntry (id : Uuid) (destination : Option Uuid) (now : Timestamp) : Request EntryRow :=
  transaction do
    let organization ← Batch.askOne (.touchEntry id now)
    match destination with
    | some destination => checkDestination id organization destination
    | none => pure ()
    Batch.askOne (.setParent id destination)

/-- Deletes an entry and everything under it. -/
def deleteEntry (id : Uuid) : Request Unit :=
  plain (Batch.askOne (.deleteEntry id))

/-! ### Columns -/

/-- Writes the positions of columns, counted from `position`. -/
def writePositions : Nat → ColumnOrder → Batch Unit
  | _, [] => .done ()
  | position, id :: rest =>
    .send (.setIndex id position) fun _ => writePositions (position + 1) rest

/-- Writes an order: all indices of the table out of the way first, then the positions. -/
def writeOrder (table : Uuid) (order : ColumnOrder) : Batch Unit :=
  .send (.negateIndices table) fun _ => writePositions 0 order

def listColumns (table : Uuid) : Request (List ColumnRow) :=
  plain (Batch.ask (.listColumns table))

def getColumn (id : Uuid) : Request ColumnRow :=
  plain (Batch.askOne (.getColumn id))

/-- Stores a new column at a position: at the end first, then moved into place. -/
def createColumn (table : Uuid) (column : NewColumn) (index : Option Nat) (now : Timestamp)
    (id : Uuid) : Request ColumnRow :=
  transaction do
    let order ← Batch.ask (.columnOrder table)
    Batch.ask (.insertColumn
      ⟨id, table, order.length, column.name, column.type.name, column.properties, now, now⟩)
    let target := ColumnOrder.place order id index
    -- if the column belongs at the end, the order is there already
    if target.getLast? ≠ some id then writeOrder table target
    Batch.askOne (.getColumn id)

/-- Changes a column; with an index it moves there. -/
def updateColumn (id : Uuid) (update : ColumnUpdate) (now : Timestamp) : Request ColumnRow :=
  transaction do
    let old ← Batch.askOne (.getColumn id)
    let properties :=
      match update.properties with
      | some u => old.properties.apply u
      | none => old.properties
    let type := (update.type.map ColumnType.name).getD old.type
    Batch.ask (.setColumn id (update.name.getD old.name) type properties now)
    if update.index.isSome then
      let order ← Batch.ask (.columnOrder old.tableId)
      let target := ColumnOrder.place order id update.index
      if target ≠ order then writeOrder old.tableId target
    Batch.askOne (.getColumn id)

/-- Deletes a column and closes the gap it leaves. -/
def deleteColumn (id : Uuid) : Request Unit :=
  transaction do
    let table ← Batch.askOne (.deleteColumn id)
    let order ← Batch.ask (.columnOrder table)
    writeOrder table order

/-- Brings the named columns of a table to the front. -/
def reorderColumns (table : Uuid) (columns : List Uuid) : Request (List ColumnRow) :=
  transaction do
    let order ← Batch.ask (.columnOrder table)
    let target := ColumnOrder.reorder order columns
    if target ≠ order then writeOrder table target
    Batch.ask (.listColumns table)

/-! ### Records -/

/-- Stores records and counts them. -/
def insertRecords (plan : Query.InsertPlan) : Request Nat :=
  transaction (Batch.ask (.insertRecords plan))

/-- Reads records. -/
def selectRecords (plan : Query.SelectPlan) : Request (List (List Json)) :=
  plain (Batch.ask (.selectRecords plan))

end Request
end TableStore
