import TableStore.Catalog.Program

/-!
# Access to stored entities

One program for each thing the store does with entries, columns and records, without the checks that
the catalog makes first. Rows become entities here, and a row whose type is unknown is a failure.
-/

namespace TableStore

/-- The entity of a row. -/
def EntryRow.toEntry (r : EntryRow) : Except CatalogError Entry :=
  match EntryType.read? r.type with
  | some type =>
    .ok ⟨r.id, r.organizationId, r.parent, type, r.properties, r.createdAt, r.updatedAt, none, none⟩
  | none => .error (.corruptEntry r.id r.type)

/-- The entity of a row. -/
def ColumnRow.toColumn (r : ColumnRow) : Except CatalogError Column :=
  match ColumnType.read? r.type with
  | some type =>
    .ok ⟨r.id, r.tableId, r.index, r.name, type, r.properties, r.createdAt, r.updatedAt⟩
  | none => .error (.corruptColumn r.id r.type)

namespace Stored

/-- The entry of a row, in a program. -/
def asEntry (r : EntryRow) : Program Entry :=
  .ofExcept id r.toEntry

/-- The entries of rows; the first unreadable one is reported. -/
def asEntries (rows : List EntryRow) : Program (List Entry) :=
  .ofExcept id (rows.mapM EntryRow.toEntry)

/-- The column of a row, in a program. -/
def asColumn (r : ColumnRow) : Program Column :=
  .ofExcept id r.toColumn

/-- The columns of rows; the first unreadable one is reported. -/
def asColumns (rows : List ColumnRow) : Program (List Column) :=
  .ofExcept id (rows.mapM ColumnRow.toColumn)

/-! ### Organizations -/

def createOrganization (id : Uuid) (name : String) (now : Timestamp) : Program Organization :=
  .request (Request.createOrganization id name now) CatalogError.ofStore

def getOrganization (id : Uuid) : Program Organization :=
  .request (Request.getOrganization id) (CatalogError.organizationMissing id)

def listOrganizations : Program (List Organization) :=
  .request Request.listOrganizations CatalogError.ofStore

def renameOrganization (id : Uuid) (name : String) (now : Timestamp) : Program Organization :=
  .request (Request.renameOrganization id name now) (CatalogError.organizationMissing id)

def deleteOrganization (id : Uuid) : Program Unit :=
  .request (Request.deleteOrganization id) (CatalogError.organizationMissing id)

/-! ### Entries -/

def createEntry (organization : Uuid) (type : EntryType) (parent : Option Uuid)
    (properties : Properties) (columns : List NewColumn) (now : Timestamp) (fresh : Nat → Uuid) :
    Program Entry := do
  let row ← Program.request
    (Request.createEntry organization type parent properties columns now fresh)
    (CatalogError.ofCreation organization parent)
  asEntry row

def getEntry (id : Uuid) : Program Entry := do
  asEntry (← Program.request (Request.getEntry id) (CatalogError.entryMissing id))

/-- A window of the children of a folder or of a root, and the number of all of them. -/
def listChildren (organization : Uuid) (parent : Option Uuid) (keys : List SortKey)
    (offset limit : Nat) : Program (List Entry × Int) := do
  let (rows, total) ← Program.request
    (Request.listChildren organization parent keys limit offset) CatalogError.ofStore
  return (← asEntries rows, total)

def updateProperties (id : Uuid) (update : PropertiesUpdate) (now : Timestamp) :
    Program Entry := do
  asEntry (← Program.request (Request.updateEntryProperties id update now)
    (CatalogError.entryMissing id))

def moveEntry (id : Uuid) (destination : Option Uuid) (now : Timestamp) : Program Entry := do
  asEntry (← Program.request (Request.moveEntry id destination now) (CatalogError.entryMissing id))

def deleteEntry (id : Uuid) : Program Unit :=
  .request (Request.deleteEntry id) (CatalogError.entryMissing id)

/-! ### Columns -/

def listColumns (table : Uuid) : Program (List Column) := do
  asColumns (← Program.request (Request.listColumns table) CatalogError.ofStore)

def getColumn (id : Uuid) : Program Column := do
  asColumn (← Program.request (Request.getColumn id) (CatalogError.columnMissing id))

def createColumn (table : Uuid) (column : NewColumn) (index : Option Nat) (now : Timestamp)
    (id : Uuid) : Program Column := do
  asColumn (← Program.request (Request.createColumn table column index now id)
    (CatalogError.ofColumnCreation table))

def updateColumn (id : Uuid) (update : ColumnUpdate) (now : Timestamp) : Program Column := do
  asColumn (← Program.request (Request.updateColumn id update now)
    (CatalogError.columnMissing id))

def deleteColumn (id : Uuid) : Program Unit :=
  .request (Request.deleteColumn id) (CatalogError.columnMissing id)

def reorderColumns (table : Uuid) (columns : List Uuid) : Program (List Column) := do
  asColumns (← Program.request (Request.reorderColumns table columns) CatalogError.ofStore)

/-! ### Records -/

def insertRecords (plan : Query.InsertPlan) : Program Nat :=
  .request (Request.insertRecords plan) CatalogError.ofStore

def selectRecords (plan : Query.SelectPlan) : Program (List (List Json)) :=
  .request (Request.selectRecords plan) CatalogError.ofStore

end Stored
end TableStore
