import Mathlib.Data.List.Nodup
import TableStore.Proofs.Identifiers
import TableStore.Proofs.Members
import TableStore.Store.Tables

/-!
# What statements take from records

The values of the terms of a select statement. The identifier of a record comes back as its written
form (`Tables.termValue_recordId`), although the engine has to put it together from the digits of
its bytes. The value of a column comes back as text: the document of the record is asked for the
type of the value first, and the value is cast after it (`Tables.termValue_cell`). What is plain is
written as everywhere (`Tables.toJson_termValue_cell`).

What a record holds for a column is what its row had for it, wherever the column stands
(`Query.get?_rowData`).

A select statement takes these values from the records of its table, which its condition is true of
(`Tables.selectRecords_eq`).
-/

namespace TableStore

/-! ### Documents of rows -/

namespace Query

theorem lookup_map_text (pairs : List (Uuid × Json)) (column : Uuid) :
    (pairs.map fun p => (p.1.text, p.2)).lookup column.text = pairs.lookup column := by
  induction pairs with
  | nil => rfl
  | cons pair rest ih =>
    obtain ⟨id, v⟩ := pair
    have hbeq : (column.text == id.text) = (column == id) := by
      rw [Bool.eq_iff_iff, beq_iff_eq, beq_iff_eq, Uuid.text_injective.eq_iff]
    simp only [List.map_cons, List.lookup_cons, hbeq, ih]

/-- A record holds for a column what its row has for it. -/
theorem get?_rowData {columns : List Uuid} {row : List Json} (h : columns.Nodup)
    (hlength : row.length = columns.length) (column : Uuid) :
    Members.get? column.text (rowData columns row) = (columns.zip row).lookup column := by
  have hzip : (columns.map Uuid.text).zip row =
      (columns.zip row).map fun p => (p.1.text, p.2) := List.zip_map_left
  have hkeys : (((columns.zip row).map fun p => (p.1.text, p.2)).map Prod.fst).Nodup := by
    rw [← hzip, List.map_fst_zip (by simp [hlength])]
    exact h.map Uuid.text_injective
  rw [rowData, hzip, Members.get?_ofList_of_nodup _ hkeys, lookup_map_text]

end Query

/-! ### Values as text -/

namespace Json

/-- Text, nothing, truth values, and integers of 64 bits with a sign. -/
def IsPlain : Json → Prop
  | .null | .bool _ | .str _ => True
  | .num (.int n) => fitsSigned n = true
  | _ => False

/-- A plain value read as text. -/
def asText : Json → Json
  | .bool b => .str (if b then "1" else "0")
  | .num (.int n) => .str (toString n)
  | v => v

/-- What the engine reads a value of a document as, asked for text; `null` is read as nothing. -/
def engineText : Json → Option String
  | .null => none
  | .bool b => some (if b then "1" else "0")
  | .num (.int n) =>
    some (if fitsSigned n then toString n else (Binary64.databaseValueOfInt n).databaseText)
  | .num (.real x) => some x.databaseValue.databaseText
  | .str s => some s
  | .arr items => some (Json.arr items).compact
  | .obj members => some (Json.obj members).compact

/-- The engine reads plain values as their text. -/
theorem engineText_of_isPlain {v : Json} (h : v.IsPlain) :
    (v.engineText.map Json.str).getD .null = v.asText :=
  match v, h with
  | .null, _ => rfl
  | .str _, _ => rfl
  | .bool _, _ => rfl
  | .num (.int _), h => congrArg Json.str (if_pos h)

end Json

/-- A text or nothing as a value of the engine. -/
def Sql.Value.ofText (text : Option String) : Sql.Value :=
  (text.map Sql.Value.text).getD .null

theorem Sql.Value.toText_ofStored (j : Json) :
    (Sql.Value.ofStored j).toText = .ofText j.engineText := by
  cases j with
  | num n =>
    cases n with
    | int n =>
      simp only [ofStored, Json.engineText]
      split <;> rfl
    | real x => rfl
  | bool b => cases b <;> rfl
  | _ => rfl

theorem Sql.Value.toJson_ofText (text : Option String) :
    (ofText text).toJson = (text.map Json.str).getD .null := by
  cases text <;> rfl

/-- The text in a column of a record, if there is one. -/
def RecordRow.cellText (r : RecordRow) (column : Uuid) : Option String :=
  (Members.get? column.text r.data).bind Json.engineText

namespace Tables

open Query

variable {params : List Sql.Value} {r : RecordRow}

/-- The value of a term for a record. -/
def termValue (params : List Sql.Value) (r : RecordRow) (term : Term) : Sql.Value :=
  term.expr.eval ⟨recordColumn r, params⟩

/-- The digits of an identifier in upper case, cut and put together in lower case, are its text. -/
theorem eval_uuidExpr {ctx : Sql.Expr.Context} {name : String} {u : Uuid}
    (h : ctx.column name = .uuid u) : (Term.uuidExpr name).eval ctx = .text u.text := by
  have hdigits : (u.digits.map Char.toUpper).map Char.toLower = u.digits := by
    rw [List.map_map]
    refine (List.map_congr_left fun c hc => ?_).trans (List.map_id _)
    obtain ⟨d, hd, rfl⟩ := Text.mem_hexText hc
    exact Text.toLower_toUpper_hexDigit hd
  have hhyphen : "-".toList.map Char.toLower = ['-'] := by decide
  simp only [Term.uuidExpr, Sql.Expr.eval, h, Sql.Expr.hexOf, Sql.Expr.substring,
    Sql.Expr.concatOf, String.toList_append, String.toList_ofList, List.map_append, List.map_take,
    List.map_drop, hdigits, hhyphen]
  simp [Uuid.text, Uuid.hyphenate]

/-- **Identifiers come back as they are written.** -/
theorem termValue_recordId : termValue params r .recordId = .text r.id.text :=
  eval_uuidExpr rfl

/-- A key of a document is read as text, or nothing. -/
theorem eval_castText_scalarExpr {ctx : Sql.Expr.Context} {name key : String}
    {members : Members Json} (h : ctx.column name = .document (.obj members)) :
    (Sql.Expr.castText (Term.scalarExpr name key)).eval ctx =
      .ofText ((members.get? key).bind Json.engineText) := by
  simp only [Term.scalarExpr, Sql.Expr.eval, Sql.Expr.evalBranch, h, Sql.Expr.member?,
    Json.members?, Option.bind_some]
  cases members.get? key with
  | none => rfl
  | some j =>
    rw [Option.bind_some, ← Sql.Value.toText_ofStored]
    simp only [Sql.Value.text.injEq]
    cases j with
    | bool b => cases b <;> rfl
    | num n => cases n <;> rfl
    | _ => rfl

/-- **The value of a column is the text in it.** -/
theorem termValue_cell (column : Uuid) (type : ColumnType) :
    termValue params r (.cell column type) = .ofText (r.cellText column) :=
  eval_castText_scalarExpr rfl

/-- A plain value of a column comes back as text. -/
theorem toJson_termValue_cell {column : Uuid} (type : ColumnType)
    (h : ∀ v, Members.get? column.text r.data = some v → v.IsPlain) :
    (termValue params r (.cell column type)).toJson =
      ((Members.get? column.text r.data).map Json.asText).getD .null := by
  rw [termValue_cell, Sql.Value.toJson_ofText, RecordRow.cellText]
  cases hv : Members.get? column.text r.data with
  | none => rfl
  | some v => exact Json.engineText_of_isPlain (h v hv)

end Tables

/-! ### Selections -/

namespace Tables

variable {t : Tables}

/-- The records of a table. -/
def recordsOf (t : Tables) (table : Uuid) : List RecordRow :=
  t.records.filter fun r => r.tableId == table

/-- What stands for rows is sorted like the rows. -/
theorem sortByKeys_map {α β : Type} (keys : β → List (Sql.Value × Direction)) (f : α → β)
    (rows : List α) :
    sortByKeys keys (rows.map f) = (sortByKeys (keys ∘ f) rows).map f := by
  let pair (row : α) : List (Sql.Value × Direction) × α := (keys (f row), row)
  have hsort : ((rows.map pair).mergeSort fun a b => compareKeys a.1 b.1 != .gt).map
        (fun p => (p.1, f p.2)) =
      ((rows.map pair).map fun p => (p.1, f p.2)).mergeSort
        fun a b => compareKeys a.1 b.1 != .gt :=
    List.map_mergeSort fun _ _ _ _ => rfl
  have hpairs : (rows.map f).map (fun row => (keys row, row)) =
      (rows.map pair).map fun p => (p.1, f p.2) := by
    rw [List.map_map, List.map_map]
    rfl
  rw [sortByKeys, hpairs, ← hsort, List.map_map, sortByKeys, List.map_map]
  rfl

theorem window_map {α β : Type} (f : α → β) (offset limit : Nat) (rows : List α) :
    window offset limit (rows.map f) = (window offset limit rows).map f := by
  rw [window, window, ← List.map_drop, ← List.map_take]

/-- The condition of a select statement is true of the records of its table. -/
theorem isTrue_condition (p : Query.SelectPlan) (r : RecordRow) :
    (p.statement.condition.eval ⟨recordColumn r, p.params.map paramValue⟩).isTrue =
      (r.tableId == p.tableId) := by
  show ((Sql.Value.uuid r.tableId).equals (.uuid p.tableId)).isTrue = _
  have hequals : (Sql.Value.uuid r.tableId).equals (.uuid p.tableId) =
      .int (if compare r.tableId p.tableId = .eq then 1 else 0) := rfl
  rw [hequals]
  split
  case isTrue heq =>
    rw [Std.LawfulEqCmp.compare_eq_iff_eq.mp heq, beq_self_eq_true]
    rfl
  case isFalse hne =>
    rw [beq_false_of_ne fun heq => hne (Std.LawfulEqCmp.compare_eq_iff_eq.mpr heq)]
    rfl

/-- **A select statement answers a window of the sorted records of its table.** -/
theorem selectRecords_eq (t : Tables) (p : Query.SelectPlan) :
    t.selectRecords p =
      (window p.offset p.limit (sortByKeys
          (fun r => p.order.map fun key => (termValue (p.params.map paramValue) r key.1, key.2))
          (t.recordsOf p.tableId))).map
        fun r => p.outputs.map (termValue (p.params.map paramValue) r) := by
  have hrows : t.rowsNamed p.statement.source = t.records.map recordColumn := rfl
  have houtputs : ∀ row : Sql.Expr.Context,
      (p.statement.outputs.map fun output => output.expr.eval row) =
        p.outputs.map fun term => term.expr.eval row := fun row =>
    List.ext_getElem (by simp [Query.SelectPlan.statement])
      (by simp [Query.SelectPlan.statement])
  have horder : ∀ row : Sql.Expr.Context, p.statement.order.map (Sql.OrderTerm.key row) =
      p.order.map fun key => (key.1.expr.eval row, key.2) := fun row => by
    rw [Query.SelectPlan.statement, List.map_map]
    rfl
  simp only [selectRecords, answer, hrows, houtputs, horder, List.map_map, List.filter_map,
    Function.comp_def, isTrue_condition, sortByKeys_map, window_map]
  rfl

end Tables
end TableStore
