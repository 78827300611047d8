import TableStore.Store.Tables

/-!
# Foreign keys

Rows refer to rows by foreign keys: an entry to its organization and to the folder it is in, a
marker to the entry it stands beside, columns and records to the marker of their table. All keys
cascade: with a row go the rows that refer to it. For each key that refers to a deleted row, the
engine runs a program that deletes the rows of this key, inside the program that deleted the row,
and it bounds how many programs run inside one another (`Tables.maxDepth`).
-/

namespace TableStore

/-- The tables of the database that keys lead from and to. -/
inductive RowKind where
  | organization | entry | folder | table | column | record
deriving DecidableEq, Repr

/-- The foreign keys. -/
inductive ForeignKey where
  | entryOrganization
  | entryParent
  | folderEntry
  | tableEntry
  | columnTable
  | recordTable
deriving DecidableEq, Repr

namespace ForeignKey

def all : List ForeignKey :=
  [.entryOrganization, .entryParent, .folderEntry, .tableEntry, .columnTable, .recordTable]

/-- The rows that refer. -/
def source : ForeignKey → RowKind
  | .entryOrganization | .entryParent => .entry
  | .folderEntry => .folder
  | .tableEntry => .table
  | .columnTable => .column
  | .recordTable => .record

/-- The rows that are referred to. -/
def target : ForeignKey → RowKind
  | .entryOrganization => .organization
  | .entryParent => .folder
  | .folderEntry | .tableEntry => .entry
  | .columnTable | .recordTable => .table

end ForeignKey

/-- The keys that refer to rows of a table. -/
def RowKind.referrers (kind : RowKind) : List ForeignKey :=
  ForeignKey.all.filter fun key => key.target == kind

namespace Tables

/-- The identifiers of the rows of a table, as they are stored. -/
def ids (t : Tables) : RowKind → List Uuid
  | .organization => t.organizations.map Organization.id
  | .entry => t.entries.map EntryRow.id
  | .folder => t.folders
  | .table => t.tables
  | .column => t.columns.map ColumnRow.id
  | .record => t.records.map RecordRow.id

/-- The rows that refer to a row by a key, as they are stored. -/
def referring (t : Tables) (key : ForeignKey) (id : Uuid) : List Uuid :=
  match key with
  | .entryOrganization => (t.entries.filter fun e => e.organizationId == id).map EntryRow.id
  | .entryParent => (t.entries.filter fun e => e.parent == some id).map EntryRow.id
  | .folderEntry => t.folders.filter fun folder => folder == id
  | .tableEntry => t.tables.filter fun table => table == id
  | .columnTable => (t.columns.filter fun c => c.tableId == id).map ColumnRow.id
  | .recordTable => (t.records.filter fun r => r.tableId == id).map RecordRow.id

/-- Takes one row out, and nothing with it. -/
def erase (t : Tables) (kind : RowKind) (id : Uuid) : Tables :=
  match kind with
  | .organization => { t with organizations := t.organizations.filter fun o => o.id != id }
  | .entry => { t with entries := t.entries.filter fun e => e.id != id }
  | .folder => { t with folders := t.folders.filter fun folder => folder != id }
  | .table => { t with tables := t.tables.filter fun table => table != id }
  | .column => t.deleteColumn id
  | .record => { t with records := t.records.filter fun r => r.id != id }

/-- Deletes a row and then, key by key, the rows that refer to it, where so many programs more may
run inside one another. A row that is gone already is passed over. -/
def cascade : Nat → RowKind → Tables → Uuid → Change
  | 0, kind, t, id =>
    if (t.ids kind).contains id then
      -- the program of a key is started whether or not any row refers by it
      if kind.referrers.isEmpty then .ok (t.erase kind id) else .error .tooManyLevels
    else .ok t
  | depth + 1, kind, t, id =>
    if (t.ids kind).contains id then
      kind.referrers.foldlM
        (fun t key => (t.referring key id).foldlM (cascade depth key.source) t)
        (t.erase kind id)
    else .ok t

/-- How many programs may run inside one another. -/
def maxDepth : Nat := 1000

/-- Deletes a row with all that goes with it. -/
def delete (t : Tables) (kind : RowKind) (id : Uuid) : Change :=
  cascade maxDepth kind t id

end Tables
end TableStore
