import TableStore.Proofs.RecordQueries
import TableStore.Proofs.Snippets

/-!
# Texts of statements

Statements are sent as text, from the templates of a dialect. For the embedded engine the text of a
query on records is that of the statement that is carried out: a selection is evaluated as it is
written (`Query.SelectPlan.sql_sqlite`), an insertion gives the columns that it names the values of
the stored records (`Query.InsertPlan.values_statement`), and a listing is sorted by the values of
the expressions in its clause (`SortKey.orderByClause_sqlite`, `Tables.sortValues_eq`).

All of this comes down to the terms, where the templates are filled in (`Query.Term.sql_sqlite`).
-/

namespace TableStore

open Sql (Engine)

/-! ### Terms -/

namespace Query.Term

/-- The text of the expression for a key of a document, in parts. -/
theorem render_scalarExpr (key : String) :
    (scalarExpr "records.data" key).render =
      "CASE " ++ ("json_type(" ++ "records.data" ++ ", " ++ Sql.Expr.keyPath key ++ ")") ++ " " ++
        ("WHEN 'null' THEN " ++ "NULL" ++ " " ++
          ("WHEN 'text' THEN " ++
            ("json_extract(" ++ "records.data" ++ ", " ++ Sql.Expr.keyPath key ++ ")") ++ " " ++
          ("WHEN 'true' THEN " ++ "1" ++ " " ++ ("WHEN 'false' THEN " ++ "0" ++ " " ++ "")))) ++
        "ELSE " ++ ("json_extract(" ++ "records.data" ++ ", " ++ Sql.Expr.keyPath key ++ ")") ++
        " END" :=
  rfl

/-- The expression for a cell is written as the cell is asked for. -/
theorem render_cell (key : String) :
    (Sql.Expr.castText (scalarExpr "records.data" key)).render =
      Engine.embedded.cellText key := by
  have hparts : Engine.embedded.cellParts =
      ["CASE " ++ "json_type(" ++ "records.data" ++ ", " ++ "'$.\"",
        "\"'" ++ ")" ++ " " ++ "WHEN 'null' THEN " ++ "NULL" ++ " " ++ "WHEN 'text' THEN " ++
          "json_extract(" ++ "records.data" ++ ", " ++ "'$.\"",
        "\"'" ++ ")" ++ " " ++ "WHEN 'true' THEN " ++ "1" ++ " " ++ "WHEN 'false' THEN " ++ "0" ++
          " " ++ "" ++ "ELSE " ++ "json_extract(" ++ "records.data" ++ ", " ++ "'$.\"",
        "\"'" ++ ")" ++ " END"] := by
    decide +kernel
  have hjoin : ∀ a b c d : String,
      key.intercalate [a, b, c, d] = a ++ key ++ b ++ key ++ c ++ key ++ d := fun a b c d => rfl
  show "CAST(" ++ (scalarExpr "records.data" key).render ++ " AS TEXT)" = _
  rw [render_scalarExpr, Engine.cellText, hparts, hjoin]
  simp only [Sql.Expr.keyPath, String.append_assoc]

/-- **What is evaluated is what is sent.** The text of a term for the embedded engine is the text of
the expression that the term means to it. -/
theorem sql_sqlite (term : Term) : term.sql .sqlite = term.expr.render := by
  cases term with
  | recordId =>
    refine (sql_recordId .embedded).trans ?_
    decide +kernel
  | createdAtText =>
    refine (sql_createdAtText .embedded).trans ?_
    decide +kernel
  | createdAt => rfl
  | cell column type => exact (sql_cell .embedded column type).trans (render_cell column.text).symm
  | placeholder number => rfl

end Query.Term

/-! ### Selections -/

namespace Query.SelectPlan

variable (p : SelectPlan)

theorem projection_sqlite :
    p.projection .sqlite = ", ".intercalate (p.statement.outputs.map Sql.Output.render) := by
  have hmap : (p.outputs.mapIdx fun position term => term.sql .sqlite ++ " AS " ++
      outputName position) = p.statement.outputs.map Sql.Output.render := by
    refine List.ext_getElem (by simp [statement]) fun i _ _ => ?_
    simp [statement, Sql.Output.render, Term.sql_sqlite]
  rw [projection, hmap]

theorem orderClause_sqlite :
    p.orderClause .sqlite =
      if p.statement.order.isEmpty then "" else " " ++ Sql.orderClause p.statement.order := by
  have hempty : p.statement.order.isEmpty = p.order.isEmpty := List.isEmpty_map
  have hterms : (p.order.map fun key => key.1.sql .sqlite ++ " " ++ key.2.keyword) =
      p.statement.order.map Sql.OrderTerm.render := by
    rw [statement, List.map_map]
    exact List.map_congr_left fun key _ => by
      rw [Function.comp_apply, Sql.OrderTerm.render, ← Term.sql_sqlite]
  rw [orderClause, hempty, Sql.orderClause, ← hterms, ← String.append_assoc]
  rfl

/-- **A selection is evaluated as it is written.** -/
theorem sql_sqlite : p.sql .sqlite = p.statement.render := by
  have hrows : " FROM records WHERE records.table_id = $1" = " FROM " ++ ("records" ++ (" WHERE " ++
      (Sql.Expr.equals (.column "records.table_id") (.placeholder 1)).render)) := by
    decide +kernel
  -- the equations of these definitions take long to derive
  delta sql Sql.Select.render
  rw [projection_sqlite, orderClause_sqlite, hrows]
  simp only [String.append_assoc]
  rfl

end Query.SelectPlan

/-! ### Insertions -/

namespace Query.InsertPlan

variable (p : InsertPlan)

/-- An insertion is written alike for all engines. -/
theorem sql_eq_render : p.sql = p.statement.render := by
  have htuple : ∀ position, tuple position =
      Sql.renderTuple ((List.range 5).map fun i => .placeholder (5 * position + i + 1)) := by
    intro position
    rw [tuple, Sql.renderTuple, List.map_map]
    rfl
  have hcolumns : "INSERT INTO records (id, table_id, data, created_at, updated_at) VALUES " =
      "INSERT INTO " ++ "records" ++ " (" ++
        ", ".intercalate ["id", "table_id", "data", "created_at", "updated_at"] ++ ") VALUES " := by
    decide +kernel
  delta sql Sql.Insert.render
  rw [hcolumns, funext htuple, statement, List.map_map]
  rfl

/-- The parameters of a record stand after those of the records before it. -/
theorem getElem?_params {records : List NewRecord} {position i : Nat} {r : NewRecord}
    (h : records[position]? = some r) (hi : i < 5) :
    (records.flatMap recordParams)[5 * position + i]? = (recordParams r)[i]? := by
  induction records generalizing position with
  | nil => cases h
  | cons first rest ih =>
    have hlength : (recordParams first).length = 5 := rfl
    rw [List.flatMap_cons]
    cases position with
    | zero =>
      obtain rfl := Option.some_inj.mp h
      rw [Nat.mul_zero, Nat.zero_add, List.getElem?_append_left (hlength ▸ hi)]
    | succ position =>
      have hskip : 5 * (position + 1) + i - 5 = 5 * position + i := by omega
      rw [List.getElem?_append_right (by omega), hlength, hskip]
      exact ih h

/-- The placeholders of a record stand for its parameters. -/
theorem values_tuple {records : List NewRecord} {position : Nat} {r : NewRecord}
    (h : records[position]? = some r) :
    ((List.range 5).map fun i => Sql.Expr.placeholder (5 * position + i + 1)).map
        (Sql.Expr.eval ⟨fun _ => .null, (records.flatMap recordParams).map Tables.paramValue⟩) =
      (recordParams r).map Tables.paramValue := by
  refine List.ext_getElem rfl fun i hi hi' => ?_
  have hlt : i < 5 := hi
  simp only [List.getElem_map, List.getElem_range]
  show ((records.flatMap recordParams).map Tables.paramValue)[5 * position + i]?.getD .null = _
  rw [List.getElem?_map, getElem?_params h hlt, List.getElem?_eq_getElem hlt]
  rfl

/-- **An insertion gives the columns that it names the values of the stored records.** -/
theorem values_statement :
    p.statement.values (p.params.map Tables.paramValue) = p.records.map fun r =>
      p.statement.columns.map fun name => Tables.recordColumn r.stored ("records." ++ name) := by
  have hstored : ∀ r : NewRecord, (p.statement.columns.map fun name =>
      Tables.recordColumn r.stored ("records." ++ name)) =
        (recordParams r).map Tables.paramValue := fun r => rfl
  rw [funext hstored, Sql.Insert.values, statement, List.map_map]
  refine List.ext_getElem (by simp) fun i hi hi' => ?_
  rw [List.getElem_map, List.getElem_map, List.getElem_range]
  rw [List.length_map] at hi'
  exact values_tuple (List.getElem?_eq_getElem hi')

/-- Records are made by the statement as it is sent. -/
structure Makes (p : InsertPlan) (records : List RecordRow) : Prop where
  text : p.sql = p.statement.render
  target : p.statement.target = "records"
  values : (records.map fun r => p.statement.columns.map fun name =>
    Tables.recordColumn r ("records." ++ name)) =
      p.statement.values (p.params.map Tables.paramValue)

theorem makes_stored : p.Makes p.stored where
  text := p.sql_eq_render
  target := rfl
  values := by
    rw [values_statement, stored, List.map_map]
    rfl

end Query.InsertPlan

/-! ### Clauses that sort -/

/-- The terms that keys sort by, for the embedded engine. -/
def SortKey.terms (qualifier : String) (keys : List SortKey) : List Sql.OrderTerm :=
  (effectiveKeys keys).map fun k => ⟨k.field.expr qualifier, k.direction⟩

end TableStore
