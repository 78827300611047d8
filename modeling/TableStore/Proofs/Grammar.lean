import Mathlib.Data.List.Forall2
import TableStore.Proofs.Identifiers
import TableStore.Query.Wire

/-!
# The grammar of query documents

Which documents are queries, and of which query, said without the decoder. `ExprForm j e` says that
the document `j` is a form of the expression `e`, by the rules of the grammar; `SortForm`,
`InsertForm` and `SelectForm` say it of the members of the objects that hold expressions, and
`QueryForm` of whole queries. A query may have many forms. One of them is the document that
`encode` writes (`queryForm_encode`), if the query is `Admissible`: if it has columns or rows and
its window is not too large, which every query is that has a form at all (`QueryForm.admissible`).
-/

namespace TableStore.Query

variable {α β : Type}

/-! ### Forms -/

/-- The members have no keys but the allowed ones. -/
def AllowsOnly (allowed : List String) (members : Members Json) : Prop :=
  ∀ key ∈ members.keys, key ∈ allowed

mutual

/-- `ExprForm j e`: the document `j` is a form of the expression `e`. -/
inductive ExprForm : Json → Expr → Prop where
  | metadata (field : Metadata) :
    ExprForm (.obj [("metadata", .str field.name)]) (.metadata field)
  | column {text : String} {id : Uuid} (hid : Uuid.read? text = some id) :
    ExprForm (.obj [("column", .str text)]) (.column id)
  | value (literal : Json) :
    ExprForm (.obj [("value", literal)]) (.value literal)
  | bare {members : Members Json} {name : String} (hkeys : AllowsOnly ["name", "args"] members)
    (hname : members.get? "name" = some (.str name)) (hargs : members.get? "args" = none) :
    ExprForm (.obj [("func", .obj members)]) (.func name [])
  | func {members : Members Json} {name : String} {items : List Json} {args : List Expr}
    (hkeys : AllowsOnly ["name", "args"] members)
    (hname : members.get? "name" = some (.str name))
    (hargs : members.get? "args" = some (.arr items)) (hitems : ExprForms items args) :
    ExprForm (.obj [("func", .obj members)]) (.func name args)
  | binary (op : BinaryOp) {l r : Json} {left right : Expr} (hleft : ExprForm l left)
    (hright : ExprForm r right) :
    ExprForm (.obj [(op.name, .arr [l, r])]) (.binary op left right)
  | unary (op : UnaryOp) {j : Json} {operand : Expr} (hoperand : ExprForm j operand) :
    ExprForm (.obj [(op.name, j)]) (.unary op operand)

/-- Forms of expressions, in the same order. -/
inductive ExprForms : List Json → List Expr → Prop where
  | nil : ExprForms [] []
  | cons {j : Json} {e : Expr} {items : List Json} {es : List Expr} (hhead : ExprForm j e)
    (htail : ExprForms items es) : ExprForms (j :: items) (e :: es)

end

theorem exprForms_iff {items : List Json} {es : List Expr} :
    ExprForms items es ↔ List.Forall₂ ExprForm items es := by
  constructor
  · intro h
    induction items generalizing es with
    | nil =>
      cases h
      exact .nil
    | cons j items ih =>
      cases h with
      | cons hhead htail => exact .cons hhead (ih htail)
  · intro h
    induction h with
    | nil => exact .nil
    | cons hhead _ ih => exact .cons hhead ih

/-- A value that may be left out: then it is the default. -/
def OrDefault (form : Json → α → Prop) (default : α) (j : Option Json) (a : α) : Prop :=
  match j with
  | none => a = default
  | some j => form j a

/-- The value of a key that has to be there. -/
def Field (key : String) (form : Json → α → Prop) (members : Members Json) (a : α) : Prop :=
  ∃ j, members.get? key = some j ∧ form j a

/-- An array of forms, in the same order. -/
def ArrayForm (form : Json → α → Prop) (j : Json) (values : List α) : Prop :=
  ∃ items, j = .arr items ∧ List.Forall₂ form items values

/-- An object whose members are a form. -/
def ObjectForm (form : Members Json → α → Prop) (j : Json) (a : α) : Prop :=
  ∃ members, j = .obj members ∧ form members a

/-- A direction is named in any case. -/
def DirectionForm (j : Json) (d : Direction) : Prop :=
  ∃ text, j = .str text ∧ Direction.read? text = some d

/-- The members are a form of what a query sorts by. -/
structure SortForm (members : Members Json) (s : SortExpr) : Prop where
  only : AllowsOnly ["expr", "direction"] members
  expr : Field "expr" ExprForm members s.expr
  direction : OrDefault DirectionForm .asc (optional "direction" members) s.direction

/-- An expression that is a column. -/
def ColumnForm (j : Json) (id : Uuid) : Prop :=
  ExprForm j (.column id)

/-- An expression that is a literal. -/
def LiteralForm (j literal : Json) : Prop :=
  ExprForm j (.value literal)

/-- The members are a form of an insert query. -/
structure InsertForm (members : Members Json) (q : Insert) : Prop where
  only : AllowsOnly ["columns", "values"] members
  columns : Field "columns" (ArrayForm ColumnForm) members q.columns
  rows : Field "values" (ArrayForm (ArrayForm LiteralForm)) members q.rows
  some_row : q.rows ≠ []

/-- A natural number. -/
def NaturalForm (j : Json) (n : Nat) : Prop :=
  j = .ofNat n

/-- An expression to filter by. -/
def FilterForm (j : Json) (filter : Option Expr) : Prop :=
  ∃ e, filter = some e ∧ ExprForm j e

/-- The members are a form of a select query, as far as it is made of expressions. -/
structure ClausesForm (members : Members Json) (outputs : List Expr) (filter : Option Expr)
    (orderBy : List SortExpr) : Prop where
  only : AllowsOnly ["columns", "where", "order_by", "offset", "limit"] members
  columns : Field "columns" (ArrayForm ExprForm) members outputs
  some_column : outputs ≠ []
  filter : OrDefault FilterForm none (optional "where" members) filter
  orderBy : OrDefault (ArrayForm (ObjectForm SortForm)) SortExpr.default
    (optional "order_by" members) orderBy

/-- The members are a form of a select query. -/
structure SelectForm (limits : Limits) (members : Members Json) (q : Select) : Prop where
  clauses : ClausesForm members q.columns q.filter q.orderBy
  offset : OrDefault NaturalForm 0 (optional "offset" members) q.offset
  limit : OrDefault NaturalForm limits.default (optional "limit" members) q.limit
  offset_le : q.offset ≤ maxOffset
  limit_le : q.limit ≤ limits.max

/-- `QueryForm limits j q`: under the limits, the document `j` is a form of the query `q`. -/
inductive QueryForm (limits : Limits) : Json → Query → Prop where
  | insert {members : Members Json} {q : Insert} (h : InsertForm members q) :
    QueryForm limits (.obj [("insert", .obj members)]) (.insert q)
  | select {members : Members Json} {q : Select} (h : SelectForm limits members q) :
    QueryForm limits (.obj [("select", .obj members)]) (.select q)
  | update (members : Members Json) : QueryForm limits (.obj [("update", .obj members)]) .update
  | delete (members : Members Json) : QueryForm limits (.obj [("delete", .obj members)]) .delete

/-! ### The form that is written -/

mutual

theorem exprForm_encode : ∀ e, ExprForm (encodeExpr e) e
  | .metadata field => .metadata field
  | .column id => .column id.read?_text
  | .value literal => .value literal
  | .func name args =>
    .func (by simp [AllowsOnly, Members.keys]) rfl rfl (exprForms_encode args)
  | .binary op left right => .binary op (exprForm_encode left) (exprForm_encode right)
  | .unary op operand => .unary op (exprForm_encode operand)

theorem exprForms_encode : ∀ es, ExprForms (encodeExprs es) es
  | [] => .nil
  | e :: rest => .cons (exprForm_encode e) (exprForms_encode rest)

end

theorem forall₂_map_of {form : Json → α → Prop} {write : α → Json} (h : ∀ a, form (write a) a)
    (values : List α) : List.Forall₂ form (values.map write) values :=
  List.forall₂_map_left_iff.mpr (List.forall₂_same.mpr fun a _ => h a)

theorem sortForm_encode (s : SortExpr) : ObjectForm SortForm (encodeSortExpr s) s := by
  refine ⟨_, rfl, by simp [AllowsOnly, Members.keys], ⟨_, rfl, exprForm_encode s.expr⟩,
    s.direction.name, rfl, ?_⟩
  cases s.direction <;> rfl

/-- The query has columns or rows, and its window is not too large. -/
def Admissible (limits : Limits) : Query → Prop
  | .insert q => q.rows ≠ []
  | .select q => q.columns ≠ [] ∧ q.offset ≤ maxOffset ∧ q.limit ≤ limits.max
  | .update => True
  | .delete => True

/-- A query that may be accepted is written in one of its forms. -/
theorem queryForm_encode {limits : Limits} {q : Query} (h : q.Admissible limits) :
    QueryForm limits (encode q) q := by
  cases q with
  | insert q =>
    refine .insert ⟨by simp [AllowsOnly, Members.keys], ?_, ?_, h⟩
    · exact ⟨_, rfl, _, rfl, forall₂_map_of (fun id => exprForm_encode (.column id)) q.columns⟩
    · refine ⟨_, rfl, _, rfl, forall₂_map_of (fun row => ?_) q.rows⟩
      exact ⟨_, rfl, forall₂_map_of (fun v => exprForm_encode (.value v)) row⟩
  | select q =>
    obtain ⟨hcolumns, hoffset, hlimit⟩ := h
    obtain ⟨columns, filter, orderBy, offset, limit⟩ := q
    have horder : ArrayForm (ObjectForm SortForm) (.arr (orderBy.map encodeSortExpr)) orderBy :=
      ⟨_, rfl, forall₂_map_of sortForm_encode orderBy⟩
    have houtputs := exprForms_iff.mp (exprForms_encode columns)
    refine .select ⟨⟨?_, ⟨_, rfl, _, rfl, houtputs⟩, hcolumns, ?_, horder⟩, rfl, rfl, hoffset,
      hlimit⟩
    · cases filter <;> simp [AllowsOnly, Members.keys]
    · cases filter with
      | none => rfl
      | some e => cases e <;> exact ⟨_, rfl, exprForm_encode _⟩
  | update => exact .update []
  | delete => exact .delete []

/-- Every query that has a form may be accepted. -/
theorem QueryForm.admissible {limits : Limits} {j : Json} {q : Query} (h : QueryForm limits j q) :
    q.Admissible limits := by
  cases h with
  | insert h => exact h.some_row
  | select h => exact ⟨h.clauses.some_column, h.offset_le, h.limit_le⟩
  | update => trivial
  | delete => trivial

end TableStore.Query
