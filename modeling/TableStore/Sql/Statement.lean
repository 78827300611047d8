import TableStore.Sort
import TableStore.Sql.Expr

/-!
# Statements of the embedded engine

Selections and insertions as trees, over the expressions of `TableStore.Sql.Expr`: their text
(`Select.render`, `Insert.render`), the keys by which rows are sorted (`OrderTerm.key`) and the
values of new rows (`Insert.values`). What a selection answers depends on the tables
(`Tables.answer`).
-/

namespace TableStore.Sql

/-- An expression to sort by. -/
structure OrderTerm where
  expr : Expr
  direction : Direction
deriving Inhabited

namespace OrderTerm

def render (term : OrderTerm) : String :=
  term.expr.render ++ " " ++ term.direction.keyword

/-- What a row is sorted by. -/
def key (ctx : Expr.Context) (term : OrderTerm) : Value × Direction :=
  (term.expr.eval ctx, term.direction)

end OrderTerm

/-- The clause that sorts by terms. -/
def orderClause (terms : List OrderTerm) : String :=
  "ORDER BY " ++ ", ".intercalate (terms.map OrderTerm.render)

/-- An output column. -/
structure Output where
  expr : Expr
  name : String
deriving Inhabited

def Output.render (output : Output) : String :=
  output.expr.render ++ " AS " ++ output.name

/-- A window of the rows of a table that a condition is true of, in an order. -/
structure Select where
  outputs : List Output
  source : String
  condition : Expr
  order : List OrderTerm
  limit : Nat
  offset : Nat
deriving Inhabited

/-- The text of a selection; without terms to sort by there is no clause for them. -/
def Select.render (s : Select) : String :=
  "SELECT " ++ ", ".intercalate (s.outputs.map Output.render) ++ " FROM " ++ s.source ++
    " WHERE " ++ s.condition.render ++
    (if s.order.isEmpty then "" else " " ++ orderClause s.order) ++
    " LIMIT " ++ toString s.limit ++ " OFFSET " ++ toString s.offset

/-- New rows for a table, with a value for each of some columns. -/
structure Insert where
  target : String
  columns : List String
  rows : List (List Expr)
deriving Inhabited

/-- One row in parentheses. -/
def renderTuple (row : List Expr) : String :=
  "(" ++ ", ".intercalate (row.map Expr.render) ++ ")"

def Insert.render (s : Insert) : String :=
  "INSERT INTO " ++ s.target ++ " (" ++ ", ".intercalate s.columns ++ ") VALUES " ++
    ", ".intercalate (s.rows.map renderTuple)

/-- The values of the rows, given the parameters. -/
def Insert.values (params : List Value) (s : Insert) : List (List Value) :=
  s.rows.map fun row => row.map (Expr.eval ⟨fun _ => .null, params⟩)

end TableStore.Sql
