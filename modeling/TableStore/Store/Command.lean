import TableStore.Store.Statement

/-!
# Commands of the database server

What goes to the server: the text of a statement and the values bound to its placeholders.
`Statement.command` gives the command of every statement; the text of a statement never depends on
the values, which only ever travel as bindings.
-/

namespace TableStore

/-- A value bound to a placeholder. -/
inductive Binding where
  | null
  | bool (b : Bool)
  | int (n : Int)
  | real (x : Binary64)
  | text (s : String)
  | uuid (u : Uuid)
  | time (t : Timestamp)
  | document (j : Json)
deriving DecidableEq, Inhabited

namespace Binding

/-- The binding of a literal. An integer beyond 64 bits with a sign goes as a float, and containers
go as documents. -/
def ofLiteral : Json → Binding
  | .null => .null
  | .bool b => .bool b
  | .num (.int n) => if Json.fitsSigned n then .int n else .real (Binary64.ofInt n)
  | .num (.real x) => .real x
  | .str s => .text s
  | .arr items => .document (.arr items)
  | .obj members => .document (.obj members)

/-- The binding of a parameter of a query. -/
def ofParam : Query.Param → Binding
  | .uuid u => .uuid u
  | .document j => .document j
  | .timestamp t => .time t
  | .literal j => ofLiteral j

/-- The binding of a value that may be absent. -/
def optional {α : Type} (f : α → Binding) : Option α → Binding
  | some a => f a
  | none => .null

/-- How a binding is shown. A document travels as text and is shown as the server reads it. -/
def toJson : Binding → Json
  | .null => .null
  | .bool b => .bool b
  | .int n => .num (.int n)
  | .real x => .num (.real x)
  | .text s => .str s
  | .uuid u => u.toJson
  | .time t => t.toJson
  | .document j => .obj [("jsonb", j.reread)]

end Binding

/-- A statement as it goes to the server. -/
structure Command where
  text : String
  params : List Binding
deriving DecidableEq, Inhabited

namespace Command

/-! ### Transactions -/

def begin : Command :=
  ⟨"BEGIN", []⟩

def serializable : Command :=
  ⟨"SET TRANSACTION ISOLATION LEVEL SERIALIZABLE", []⟩

def commit : Command :=
  ⟨"COMMIT", []⟩

def rollback : Command :=
  ⟨"ROLLBACK", []⟩

/-! ### Parts of statements -/

def organizationColumns : String :=
  "id, name, created_at, updated_at"

def entryColumns : String :=
  "id, organization_id, type, parent_folder_id, properties, created_at, updated_at"

def columnColumns : String :=
  "id, table_id, \"index\", name, type, properties, created_at, updated_at"

/-- The columns of an entry, those of the table called `e`. -/
def qualifiedEntryColumns : String :=
  "e.id, e.organization_id, e.type, e.parent_folder_id, e.properties, e.created_at, e.updated_at"

/-- The condition that picks the children of a folder or of a root, with its bindings. -/
def childrenCondition (organization : Uuid) : Option Uuid → String × List Binding
  | some parent =>
    ("e.organization_id = $1 AND e.parent_folder_id = $2", [.uuid organization, .uuid parent])
  | none => ("e.organization_id = $1 AND e.parent_folder_id IS NULL", [.uuid organization])

end Command

open Command in
/-- The command of a statement. -/
def Statement.command {α : Type} : Statement α → Command
  | .insertOrganization row =>
    ⟨"INSERT INTO organizations (" ++ organizationColumns ++
      ") VALUES ($1, $2, $3, $3) RETURNING " ++ organizationColumns,
      [.uuid row.id, .text row.name, .time row.createdAt]⟩
  | .getOrganization id =>
    ⟨"SELECT " ++ organizationColumns ++ " FROM organizations WHERE id = $1", [.uuid id]⟩
  | .listOrganizations =>
    ⟨"SELECT " ++ organizationColumns ++ " FROM organizations ORDER BY created_at, id", []⟩
  | .renameOrganization id name now =>
    ⟨"UPDATE organizations SET name = $1, updated_at = $2 WHERE id = $3 RETURNING " ++
      organizationColumns, [.text name, .time now, .uuid id]⟩
  | .deleteOrganization id =>
    ⟨"DELETE FROM organizations WHERE id = $1 RETURNING id", [.uuid id]⟩
  | .insertEntry row =>
    ⟨"INSERT INTO table_filesystem_entries (" ++ entryColumns ++
      ") VALUES ($1, $2, $3, $4, $5, $6, $6) RETURNING " ++ entryColumns,
      [.uuid row.id, .uuid row.organizationId, .text row.type, .optional .uuid row.parent,
        .document row.properties.toJson, .time row.createdAt]⟩
  | .markFolder id => ⟨"INSERT INTO folders (id) VALUES ($1)", [.uuid id]⟩
  | .markTable id => ⟨"INSERT INTO tables (id) VALUES ($1)", [.uuid id]⟩
  | .getEntry id =>
    ⟨"SELECT " ++ entryColumns ++ " FROM table_filesystem_entries WHERE id = $1", [.uuid id]⟩
  | .listChildren organization parent keys limit offset =>
    let (condition, bindings) := childrenCondition organization parent
    ⟨"SELECT " ++ qualifiedEntryColumns ++ " FROM table_filesystem_entries e WHERE " ++ condition ++
      " " ++ SortKey.orderByClause .postgres "e" keys ++
      " LIMIT $" ++ toString (bindings.length + 1) ++
      " OFFSET $" ++ toString (bindings.length + 2), bindings ++ [.int limit, .int offset]⟩
  | .countChildren organization parent =>
    let (condition, bindings) := childrenCondition organization parent
    ⟨"SELECT COUNT(*) AS count FROM table_filesystem_entries e WHERE " ++ condition, bindings⟩
  | .getEntryProperties id =>
    ⟨"SELECT properties FROM table_filesystem_entries WHERE id = $1", [.uuid id]⟩
  | .setEntryProperties id properties now =>
    ⟨"UPDATE table_filesystem_entries SET properties = $1, updated_at = $2 WHERE id = $3 " ++
      "RETURNING " ++ entryColumns, [.document properties.toJson, .time now, .uuid id]⟩
  | .touchEntry id now =>
    ⟨"UPDATE table_filesystem_entries SET updated_at = $1 WHERE id = $2 " ++
      "RETURNING organization_id", [.time now, .uuid id]⟩
  | .getPlacement id =>
    ⟨"SELECT organization_id, type FROM table_filesystem_entries WHERE id = $1", [.uuid id]⟩
  | .getParent id =>
    ⟨"SELECT parent_folder_id FROM table_filesystem_entries WHERE id = $1", [.uuid id]⟩
  | .setParent id parent =>
    ⟨"UPDATE table_filesystem_entries SET parent_folder_id = $1 WHERE id = $2 RETURNING " ++
      entryColumns, [.optional .uuid parent, .uuid id]⟩
  | .deleteEntry id =>
    ⟨"DELETE FROM table_filesystem_entries WHERE id = $1 RETURNING id", [.uuid id]⟩
  | .columnOrder table =>
    ⟨"SELECT id FROM columns WHERE table_id = $1 ORDER BY \"index\"", [.uuid table]⟩
  | .negateIndices table =>
    ⟨"UPDATE columns SET \"index\" = -1 - \"index\" WHERE table_id = $1", [.uuid table]⟩
  | .setIndex id position =>
    ⟨"UPDATE columns SET \"index\" = $1 WHERE id = $2", [.int position, .uuid id]⟩
  | .getColumn id =>
    ⟨"SELECT " ++ columnColumns ++ " FROM columns WHERE id = $1", [.uuid id]⟩
  | .listColumns table =>
    ⟨"SELECT " ++ columnColumns ++ " FROM columns WHERE table_id = $1 ORDER BY \"index\"",
      [.uuid table]⟩
  | .insertColumn row =>
    ⟨"INSERT INTO columns (" ++ columnColumns ++ ") VALUES ($1, $2, $3, $4, $5, $6, $7, $7)",
      [.uuid row.id, .uuid row.tableId, .int row.index, .text row.name, .text row.type,
        .document row.properties.toJson, .time row.createdAt]⟩
  | .setColumn id name type properties now =>
    ⟨"UPDATE columns SET name = $1, type = $2, properties = $3, updated_at = $4 WHERE id = $5",
      [.text name, .text type, .document properties.toJson, .time now, .uuid id]⟩
  | .deleteColumn id => ⟨"DELETE FROM columns WHERE id = $1 RETURNING table_id", [.uuid id]⟩
  | .insertRecords plan => ⟨plan.sql, plan.params.map .ofParam⟩
  | .selectRecords plan => ⟨plan.sql .postgres, plan.params.map .ofParam⟩

end TableStore
