import TableStore.Proofs.Asking
import TableStore.Proofs.Selection

/-!
# Selected literals

A literal among the outputs of a select is bound to a placeholder, and what the engine has for the
placeholder is read back in every row. The engine has no truth values and no integers beyond 64 bits
with a sign, so a truth value comes back as a number and a great integer as a double; text, nothing
and all other numbers come back as they are (`Sql.Value.toJson_ofJson_eq_self`).

**Selected literals come back** (`Database.selected_literals_come_back`) says so of every row of
every answer, for any database.
-/

namespace TableStore

/-- Literals that come back as themselves: nothing, text, doubles, and integers of 64 bits with a
sign. -/
def Json.ComesBack : Json → Prop
  | .null | .str _ | .num (.real _) => True
  | .num (.int n) => fitsSigned n = true
  | .bool _ | .arr _ | .obj _ => False

/-- **Reading a literal undoes binding it for just these values.** -/
theorem Sql.Value.toJson_ofJson_eq_self {v : Json} : (Sql.Value.ofJson v).toJson = v ↔
    v.ComesBack := by
  rw [toJson_ofJson]
  cases v with
  | num n =>
    cases n with
    | real x => simp [Json.engineValue, Json.ComesBack]
    | int n =>
      rw [Json.engineValue, Json.ComesBack]
      cases hfits : Json.fitsSigned n <;> simp
  | null | bool | str | arr | obj => simp [Json.engineValue, Json.ComesBack]

namespace Query

theorem ExprForm.eq_value {v : Json} {e : Expr} (h : ExprForm (.obj [("value", v)]) e) :
    e = .value v := by
  have hvalue : decodeExpr [] (.obj [("value", v)]) = .ok (.value v) :=
    (ExprForm.value v).decodes []
  exact Except.ok.inj ((h.decodes []).symm.trans hvalue)

/-- A select that is read has the literals of its document in their places. -/
theorem value_of_decode {limits : Limits} {members : Members Json} {items : List Json}
    {q : Select} {j : Nat} {v : Json}
    (h : decode limits (.obj [("select", .obj members)]) = .ok (.select q))
    (hcolumns : members.get? "columns" = some (.arr items))
    (hitem : items[j]? = some (.obj [("value", v)])) : q.columns[j]? = some (.value v) := by
  have hform : SelectForm limits members q := by
    generalize hdocument : Json.obj [("select", .obj members)] = document at h
    cases decode_eq_ok.mp h with
    | select hform =>
      obtain rfl : members = _ := by simpa using hdocument
      exact hform
  obtain ⟨_, hget, items', rfl, hitems⟩ := hform.clauses.columns
  obtain rfl : items = items' := by simpa using hcolumns.symm.trans hget
  have hj : j < items.length := (List.getElem?_eq_some_iff.mp hitem).1
  obtain ⟨hlength, hforms⟩ := List.forall₂_iff_get.mp hitems
  have hj' : j < q.columns.length := hlength ▸ hj
  have hform : ExprForm items[j] q.columns[j] := hforms j hj hj'
  rw [List.getElem?_eq_getElem hj, Option.some_inj] at hitem
  rw [hitem] at hform
  rw [List.getElem?_eq_getElem hj', Option.some_inj]
  exact hform.eq_value

end Query

namespace Database

/-- What a select answers shows the literals of its outputs as the engine has them. -/
theorem engineValue_of_rows {db : Database} {env : Surroundings} {table : Uuid}
    {members : Members Json} {items : List Json} {rows : List (List Json)} {j : Nat} {v : Json}
    (hcolumns : members.get? "columns" = some (.arr items))
    (hitem : items[j]? = some (.obj [("value", v)]))
    (hrows : (db.perform ⟨env, .query table (.obj [("select", .obj members)])⟩).result =
      .ok (.rows rows)) : ∀ row ∈ rows, row[j]? = some v.engineValue := by
  obtain ⟨q, columns, plan, hdecode, hselect, before, after, hserved⟩ :=
    Operation.select_of_rows hrows
  have hvalue : q.columns[j]? = some (.value v) := Query.value_of_decode hdecode hcolumns hitem
  obtain rfl := serve_selectRecords_ok hserved
  intro row hrow
  rw [Tables.selectRecords_compiled hselect] at hrow
  obtain ⟨r, -, rfl⟩ := List.mem_map.mp hrow
  rw [List.getElem?_map, hvalue]
  rfl

/-- **Selected literals come back** as the engine has them. In every row of an answer a literal is
found in its place: as itself if it is nothing, text, an integer of 64 bits with a sign or a double;
as `1` or `0` if it is a truth value; and as a double if it is a greater integer. Reading what has
been bound gives back the literal in the first of these cases only. -/
theorem selected_literals_come_back (db : Database) (env : Surroundings) (table : Uuid)
    {members : Members Json} {items : List Json} {rows : List (List Json)} {j : Nat} {v : Json}
    (hcolumns : members.get? "columns" = some (.arr items))
    (hitem : items[j]? = some (.obj [("value", v)]))
    (hrows : (db.perform ⟨env, .query table (.obj [("select", .obj members)])⟩).result =
      .ok (.rows rows)) :
    (∀ row ∈ rows,
      (v.ComesBack → row[j]? = some v) ∧
        (∀ b, v = .bool b → row[j]? = some (.num (.int (if b then 1 else 0)))) ∧
        ∀ n, v = .num (.int n) → Json.fitsSigned n = false →
          row[j]? = some (.num (.real (Binary64.ofInt n)))) ∧
      ((Tables.paramValue (.literal v)).toJson = v ↔ v.ComesBack) := by
  refine ⟨fun row hrow => ?_, Sql.Value.toJson_ofJson_eq_self⟩
  have hcell : row[j]? = some v.engineValue := engineValue_of_rows hcolumns hitem hrows row hrow
  refine ⟨fun hback => ?_, ?_, ?_⟩
  · rw [hcell, ← Sql.Value.toJson_ofJson, Sql.Value.toJson_ofJson_eq_self.mpr hback]
  · rintro b rfl
    exact hcell
  · rintro n rfl hn
    rw [hcell, Json.engineValue, hn]
    rfl

/-- The greatest integer of 64 bits with a sign, in a row of a table. -/
theorem greatest_signed_integer_comes_back :
    let history : List Call :=
      [⟨.numbered 1, .createOrganization "org"⟩,
        ⟨.numbered 2, .createEntry ⟨1⟩ .table none [] [⟨"a", "string", []⟩]⟩,
        ⟨.numbered 4, .query ⟨2⟩ (.obj [("insert", .obj [
          ("columns", .arr [.obj [("column", .str (Uuid.text ⟨3⟩))]]),
          ("values", .arr [.arr [.obj [("value", .str "x")]]])])])⟩]
    let v : Json := .num (.int 9223372036854775807)
    ∃ row, ((fresh.after history).perform ⟨.numbered 8, .query ⟨2⟩ (.obj [("select", .obj [
        ("columns", .arr [.obj [("metadata", .str "id")], .obj [("value", v)]])])])⟩).result =
      .ok (.rows [row]) ∧ row[1]? = some v := by
  intro history v
  let row : List Json := [.str (Uuid.text ⟨4⟩), v]
  have hrows : ((fresh.after history).perform ⟨.numbered 8, .query ⟨2⟩ (.obj [("select", .obj [
      ("columns", .arr [.obj [("metadata", .str "id")], .obj [("value", v)]])])])⟩).result =
    .ok (.rows [row]) := by decide +kernel
  obtain ⟨hcells, -⟩ := selected_literals_come_back (fresh.after history) (.numbered 8) ⟨2⟩
    (j := 1) (v := v) rfl rfl hrows
  exact ⟨row, hrows, (hcells row List.mem_cons_self).1 rfl⟩

/-- A truth value and an integer beyond 64 bits with a sign do not come back as themselves. -/
theorem truth_value_comes_back_as_number :
    let history : List Call :=
      [⟨.numbered 1, .createOrganization "org"⟩,
        ⟨.numbered 2, .createEntry ⟨1⟩ .table none [] [⟨"a", "string", []⟩]⟩,
        ⟨.numbered 4, .query ⟨2⟩ (.obj [("insert", .obj [
          ("columns", .arr [.obj [("column", .str (Uuid.text ⟨3⟩))]]),
          ("values", .arr [.arr [.obj [("value", .str "x")]]])])])⟩]
    let values : List Json := [.bool true, .num (.int 18446744073709551615)]
    ∃ row, ((fresh.after history).perform ⟨.numbered 8, .query ⟨2⟩ (.obj [("select", .obj [
        ("columns", .arr (values.map fun v => .obj [("value", v)]))])])⟩).result =
      .ok (.rows [row]) ∧ row[0]? ≠ values[0]? ∧ row[1]? ≠ values[1]? := by
  refine ⟨[.num (.int 1), .num (.real (Binary64.ofInt 18446744073709551615))], ?_⟩
  decide +kernel

end Database
end TableStore
