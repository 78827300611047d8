import TableStore.Entity
import TableStore.Query.Basic
import TableStore.Sql.Statement

/-!
# Statements for queries

A query over a table becomes one statement over the table of records, which keep their cells in one
document each, by the identifier of the column. `compile` checks the query against the columns of
its table and makes a plan: what each output and each sort term is (`Term`), and the parameters that
the placeholders stand for. Literals go to the parameters; the text of the statement (`sql`) never
holds one. `statement` is what the text means to the embedded engine, and `Term.expr` what a term
means to it.
-/

namespace TableStore.Query

/-- A value bound to a placeholder. -/
inductive Param where
  | uuid (u : Uuid)
  | document (j : Json)
  | timestamp (t : Timestamp)
  | literal (j : Json)
deriving DecidableEq, Inhabited

/-- What a statement takes from a record. -/
inductive Term where
  | recordId
  | createdAtText
  | createdAt
  | cell (column : Uuid) (type : ColumnType)
  | placeholder (number : Nat)
deriving DecidableEq, Inhabited

namespace Term

/-- The text of a term in a dialect. -/
def sql (d : Sql.Dialect) : Term → String
  | .recordId => d.uuidToText "records.id"
  | .createdAtText => d.timestampToText "records.created_at"
  | .createdAt => "records.created_at"
  | .cell column type =>
    let extracted :=
      match type.castTarget with
      | .json => d.jsonRaw "records.data" column.text
      | _ => d.jsonScalar "records.data" column.text
    d.cast type.castTarget extracted
  | .placeholder number => "$" ++ toString number

/-- An identifier column as text, from the groups of its hexadecimal digits. -/
def uuidExpr (column : String) : Sql.Expr :=
  let group (start : Nat) (length : Option Nat) : Sql.Expr :=
    .substr (.hex (.column column)) start length
  let hyphen : Sql.Expr := .text "-"
  .lower
    (.concat (.concat (.concat (.concat (.concat (.concat (.concat (.concat
      (group 1 (some 8)) hyphen) (group 9 (some 4))) hyphen) (group 13 (some 4))) hyphen)
      (group 17 (some 4))) hyphen) (group 21 none))

/-- A key of a document column as a scalar. -/
def scalarExpr (column key : String) : Sql.Expr :=
  let document : Sql.Expr := .column column
  .cases (.jsonType document key)
    [("null", .null),
      ("text", .jsonExtract document key),
      ("true", .integer 1),
      ("false", .integer 0)]
    (.jsonExtract document key)

/-- What a term is to the embedded engine. -/
def expr : Term → Sql.Expr
  | .recordId => uuidExpr "records.id"
  | .createdAtText => .strftime "%Y-%m-%dT%H:%M:%f+00:00" (.column "records.created_at")
  | .createdAt => .column "records.created_at"
  | .cell column _ => .castText (scalarExpr "records.data" column.text)
  | .placeholder number => .placeholder number

end Term

/-! ### Plans -/

/-- A record to be stored. -/
structure NewRecord where
  id : Uuid
  tableId : Uuid
  data : Members Json
  createdAt : Timestamp
deriving DecidableEq, Inhabited

/-- Records to be stored by one statement. -/
structure InsertPlan where
  records : List NewRecord
deriving DecidableEq, Inhabited

/-- The records of a table to be read by one statement, and what to take from each. -/
structure SelectPlan where
  tableId : Uuid
  outputs : List Term
  order : List (Term × Direction)
  limit : Nat
  offset : Nat
  /-- What the placeholders after the first one stand for. -/
  literals : List Json
deriving DecidableEq, Inhabited

/-- A query made a statement. -/
inductive Plan where
  | insert (p : InsertPlan)
  | select (p : SelectPlan)
deriving DecidableEq, Inhabited

/-! ### Text and parameters -/

/-- Refuses a name that is not one or more ASCII letters, digits or underscores. -/
def checkAlias (text : String) : Except QueryError Unit :=
  if isKey text then .ok () else .error (.invalidAlias text)

/-- The name of the output column at a position. -/
def outputName (position : Nat) : String :=
  "_" ++ toString position

/-- The placeholder with a number. -/
def placeholder (number : Nat) : String :=
  "$" ++ toString number

namespace InsertPlan

/-- The placeholders of one record; each has five. -/
def tuple (position : Nat) : String :=
  "(" ++ ", ".intercalate ((List.range 5).map fun i => placeholder (5 * position + i + 1)) ++ ")"

/-- The text of the statement, the same in all dialects. -/
def sql (p : InsertPlan) : String :=
  "INSERT INTO records (id, table_id, data, created_at, updated_at) VALUES " ++
    ", ".intercalate ((List.range p.records.length).map tuple)

/-- The parameters of one record. -/
def recordParams (r : NewRecord) : List Param :=
  [.uuid r.id, .uuid r.tableId, .document (.obj r.data), .timestamp r.createdAt,
    .timestamp r.createdAt]

def params (p : InsertPlan) : List Param :=
  p.records.flatMap recordParams

/-- What the statement is to the embedded engine. -/
def statement (p : InsertPlan) : Sql.Insert where
  target := "records"
  columns := ["id", "table_id", "data", "created_at", "updated_at"]
  rows := (List.range p.records.length).map fun position =>
    (List.range 5).map fun i => .placeholder (5 * position + i + 1)

/-- The identifiers of the records, in the order of the rows. -/
def recordIds (p : InsertPlan) : List Uuid :=
  p.records.map NewRecord.id

end InsertPlan

namespace SelectPlan

/-- The output columns, each under its name. -/
def projection (d : Sql.Dialect) (p : SelectPlan) : String :=
  ", ".intercalate
    (p.outputs.mapIdx fun position term => term.sql d ++ " AS " ++ outputName position)

/-- The clause that sorts the records; there is none without terms. -/
def orderClause (d : Sql.Dialect) (p : SelectPlan) : String :=
  if p.order.isEmpty then ""
  else
    " ORDER BY " ++
      ", ".intercalate (p.order.map fun (term, direction) => term.sql d ++ " " ++ direction.keyword)

/-- The text of the statement in a dialect. -/
def sql (d : Sql.Dialect) (p : SelectPlan) : String :=
  "SELECT " ++ p.projection d ++ " FROM records WHERE records.table_id = $1" ++ p.orderClause d ++
    " LIMIT " ++ toString p.limit ++ " OFFSET " ++ toString p.offset

def params (p : SelectPlan) : List Param :=
  .uuid p.tableId :: p.literals.map .literal

/-- What the statement is to the embedded engine. -/
def statement (p : SelectPlan) : Sql.Select where
  outputs := p.outputs.mapIdx fun position term => ⟨term.expr, outputName position⟩
  source := "records"
  condition := .equals (.column "records.table_id") (.placeholder 1)
  order := p.order.map fun key => ⟨key.1.expr, key.2⟩
  limit := p.limit
  offset := p.offset

/-- The number of output columns. -/
def width (p : SelectPlan) : Nat :=
  p.outputs.length

end SelectPlan

/-! ### Compilation -/

/-- The type of a column of the table. -/
def columnType? (columns : List Column) (id : Uuid) : Option ColumnType :=
  (columns.find? fun c => c.id == id).map Column.type

/-- Refuses a column that the table does not have. -/
def requireColumn (columns : List Column) (id : Uuid) : Except QueryError ColumnType :=
  match columnType? columns id with
  | some type => .ok type
  | none => .error (.unknownColumn id)

/-- The term of an expression, and its literal if it is one, which takes the placeholder `next`. -/
def compileExpr (columns : List Column) (next : Nat) :
    Expr → Except QueryError (Term × List Json)
  | .metadata .id => .ok (.recordId, [])
  | .metadata .createdAt => .ok (.createdAt, [])
  | .column id => (requireColumn columns id).map fun type => (.cell id type, [])
  | .value literal => .ok (.placeholder next, [literal])
  | .func name _ => .error (.unimplemented (.func name))
  | .binary op _ _ => .error (.unimplemented (.binary op))
  | .unary op _ => .error (.unimplemented (.unary op))

/-- The term of an output: the time of creation is an output as text. -/
def compileOutput (columns : List Column) (next : Nat) :
    Expr → Except QueryError (Term × List Json)
  | .metadata .createdAt => .ok (.createdAtText, [])
  | e => compileExpr columns next e

/-- The terms of expressions, with the literals in the order of their placeholders. -/
def compileEach (compile : Nat → Expr → Except QueryError (Term × List Json)) :
    Nat → List Expr → Except QueryError (List Term × List Json)
  | _, [] => .ok ([], [])
  | next, e :: rest => do
    let (term, literals) ← compile next e
    let (terms, more) ← compileEach compile (next + literals.length) rest
    return (term :: terms, literals ++ more)

/-- The plan of a select query. The first placeholder is the table. -/
def compileSelect (tableId : Uuid) (columns : List Column) (q : Select) :
    Except QueryError SelectPlan := do
  if q.filter.isSome then throw (.unimplemented .filter)
  let (outputs, literals) ← compileEach (compileOutput columns) 2 q.columns
  -- the literals of the order are numbered after those of the outputs
  let (order, more) ←
    compileEach (compileExpr columns) (2 + literals.length) (q.orderBy.map SortExpr.expr)
  if maxOffset < q.offset then throw (.offsetTooLarge q.offset maxOffset)
  return {
    tableId, outputs
    order := order.zip (q.orderBy.map SortExpr.direction)
    limit := q.limit
    offset := q.offset
    literals := literals ++ more }

/-- The document of a row: its cells by the identifiers of their columns. -/
def rowData (columns : List Uuid) (row : List Json) : Members Json :=
  Members.ofList ((columns.map Uuid.text).zip row)

/-- The records of rows, from a position on. A row has to have a cell for each column. -/
def compileRows (tableId : Uuid) (columns : List Uuid) (now : Timestamp) (fresh : Nat → Uuid) :
    Nat → List (List Json) → Except QueryError (List NewRecord)
  | _, [] => .ok []
  | position, row :: rest =>
    if row.length ≠ columns.length then
      .error (.rowWidthMismatch position columns.length row.length)
    else do
      let more ← compileRows tableId columns now fresh (position + 1) rest
      return ⟨fresh position, tableId, rowData columns row, now⟩ :: more

/-- The plan of an insert query. Every row becomes a record with a fresh identifier; all have the
same time of creation. -/
def compileInsert (tableId : Uuid) (columns : List Column) (now : Timestamp) (fresh : Nat → Uuid)
    (q : Insert) : Except QueryError InsertPlan := do
  q.columns.forM fun id => discard (requireColumn columns id)
  return ⟨← compileRows tableId q.columns now fresh 0 q.rows⟩

/-- The plan of a query. -/
def compile (tableId : Uuid) (columns : List Column) (now : Timestamp) (fresh : Nat → Uuid) :
    Query → Except QueryError Plan
  | .insert q => (compileInsert tableId columns now fresh q).map .insert
  | .select q => (compileSelect tableId columns q).map .select
  | .update => .error (.unimplemented (.kind .update))
  | .delete => .error (.unimplemented (.kind .delete))

/-- What is logged once a query has become a statement. -/
def Plan.logMessage (d : Sql.Dialect) : Plan → String
  | .insert p =>
    "Compiled insert of " ++ toString p.records.length ++ " record(s): " ++ p.sql
  | .select p => "Compiled select: " ++ p.sql d

end TableStore.Query
