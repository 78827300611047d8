import TableStore.Catalog.Entries
import TableStore.Catalog.Records

/-!
# Catalog operations

`Operation` lists what callers can ask of the catalog, and `Operation.program` says how each is
done. `Reply` is what an operation answers.
-/

namespace TableStore

/-- What callers can ask of the catalog. -/
inductive Operation where
  | createOrganization (name : String)
  | getOrganization (id : Uuid)
  | listOrganizations
  | renameOrganization (id : Uuid) (name : String)
  | deleteOrganization (id : Uuid)
  | createEntry (organization : Uuid) (type : EntryType) (parent : Option Uuid)
      (properties : Members Json) (columns : List ColumnDefinition)
  | getEntry (id : Uuid) (path : Bool)
  | computePath (id : Uuid)
  | listChildren (parent : Parent) (sort : List String) (offset : Nat) (limit : Option Nat)
      (path : Bool)
  | validateMove (id : Uuid) (destination : Option Uuid)
  | moveEntry (id : Uuid) (destination : Option Uuid)
  | updateProperties (id : Uuid) (properties : Members Json)
  | deleteEntry (id : Uuid)
  | listColumns (table : Uuid)
  | createColumn (table : Uuid) (definition : ColumnDefinition) (index : Option Int)
  | updateColumn (table column : Uuid) (changes : ColumnChanges)
  | deleteColumn (table column : Uuid)
  | reorderColumns (table : Uuid) (columns : List Uuid)
  | query (table : Uuid) (query : Json)
deriving Inhabited

/-- What an operation answers. -/
inductive Reply where
  | nothing
  | organization (o : Organization)
  | organizations (os : List Organization)
  | entry (e : Entry)
  | path (p : List PathElement)
  | page (p : ChildrenPage)
  | column (c : Column)
  | columns (cs : List Column)
  | inserted (ids : List Uuid)
  | rows (rows : List (List Json))
deriving DecidableEq, Inhabited

/-- The document of a reply. -/
def Reply.toJson : Reply → Json
  | .nothing => .null
  | .organization o => o.toJson
  | .organizations os => .arr (os.map Organization.toJson)
  | .entry e => e.toJson
  | .path p => .arr (p.map PathElement.toJson)
  | .page p =>
    .obj [("entries", .arr (p.entries.map Entry.toJson)), ("total", .num (.int p.total))]
  | .column c => c.toJson
  | .columns cs => .arr (cs.map Column.toJson)
  | .inserted ids => .obj [("ids", .arr (ids.map Uuid.toJson))]
  | .rows answer => .obj [("rows", .arr (answer.map .arr))]

/-- How an operation is done. -/
def Operation.program (env : Surroundings) : Operation → Program Reply
  | .createOrganization name => do
    return .organization (← Stored.createOrganization (env.fresh 0) name env.now)
  | .getOrganization id => do return .organization (← Stored.getOrganization id)
  | .listOrganizations => do return .organizations (← Stored.listOrganizations)
  | .renameOrganization id name => do
    return .organization (← Stored.renameOrganization id name env.now)
  | .deleteOrganization id => do
    Stored.deleteOrganization id
    return .nothing
  | .createEntry organization type parent properties columns => do
    return .entry (← Catalog.createEntry env organization type parent properties columns)
  | .getEntry id path => do return .entry (← Catalog.getEntry id path)
  | .computePath id => do return .path (← Catalog.computePath id)
  | .listChildren parent sort offset limit path => do
    return .page (← Catalog.listChildren env parent sort offset limit path)
  | .validateMove id destination => do
    let entry ← Stored.getEntry id
    Catalog.validateMove entry destination
    return .nothing
  | .moveEntry id destination => do return .entry (← Catalog.moveEntry env id destination)
  | .updateProperties id properties => do
    return .entry (← Catalog.updateProperties env id properties)
  | .deleteEntry id => do
    Catalog.deleteEntry id
    return .nothing
  | .listColumns table => do return .columns (← Catalog.listColumns table)
  | .createColumn table definition index => do
    return .column (← Catalog.createColumn env table definition index)
  | .updateColumn table column changes => do
    return .column (← Catalog.updateColumn env table column changes)
  | .deleteColumn table column => do
    Catalog.deleteColumn table column
    return .nothing
  | .reorderColumns table columns => do
    return .columns (← Catalog.reorderColumns table columns)
  | .query table document => do
    match ← Catalog.executeQuery env table document with
    | .inserted ids => return .inserted ids
    | .rows answer => return .rows answer

end TableStore
