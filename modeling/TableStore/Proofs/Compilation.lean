import TableStore.Proofs.RecordQueries

/-!
# Compiled queries

What a plan says about the query it was made of. A select is compiled without a filter and with an
offset that the database can count to; its outputs and its order are compiled one after the other,
and the literals of both stand in one list (`compileSelect_ok`). The placeholder of a literal is the
place of the literal in this list (`compileEach_ok`), which holds the literals of the query from
left to right (`compileSelect_params`).

The records of an insert are its rows in their order, each with the fresh identifier of its position
(`compileRows_records`). An insert is compiled if its rows fit its columns
(`exists_compileInsert`).

A query may be compiled and still ask for more than the engine takes in one statement (`Exceeds`).
-/

namespace TableStore.Query

variable {table : Uuid} {columns : List Column} {now : Timestamp} {fresh : Nat → Uuid}

/-! ### Lists of expressions -/

section Each

variable {compile : Nat → Expr → Except QueryError (Term × List Json)} {es : List Expr}
  {terms : List Term} {literals : List Json}

/-- Each expression has its term, and its literals stand in the list from its placeholder on. -/
theorem compileEach_ok {next : Nat} (h : compileEach compile next es = .ok (terms, literals)) :
    List.Forall₂ (fun e term => ∃ k own, compile (next + k) e = .ok (term, own) ∧
      own <+: literals.drop k) es terms := by
  induction es generalizing next terms literals with
  | nil =>
    obtain ⟨rfl, rfl⟩ := Prod.mk.inj (Except.ok.inj h)
    exact .nil
  | cons e rest ih =>
    rw [compileEach] at h
    obtain ⟨⟨term, own⟩, hfirst, h⟩ := bind_ok h
    obtain ⟨⟨others, more⟩, hrest, h⟩ := bind_ok h
    obtain ⟨rfl, rfl⟩ := Prod.mk.inj (Except.ok.inj h)
    refine .cons ⟨0, own, hfirst, List.prefix_append _ _⟩ ((ih hrest).imp ?_)
    rintro e' term' ⟨k, own', hcompiled, hfront⟩
    refine ⟨own.length + k, own', by rwa [← Nat.add_assoc], ?_⟩
    rwa [List.drop_append, List.drop_of_length_le (Nat.le_add_right _ _), List.nil_append,
      Nat.add_sub_cancel_left]

/-- The literal that an expression is. -/
def Expr.literal? : Expr → Option Json
  | .value literal => some literal
  | _ => none

/-- The literals of a list are those of its expressions, from left to right. -/
theorem compileEach_literals
    (hcompile : ∀ n e term own, compile n e = .ok (term, own) → own = e.literal?.toList)
    {next : Nat} (h : compileEach compile next es = .ok (terms, literals)) :
    literals = es.filterMap Expr.literal? := by
  induction es generalizing next terms literals with
  | nil => exact (Prod.mk.inj (Except.ok.inj h)).2.symm
  | cons e rest ih =>
    rw [compileEach] at h
    obtain ⟨⟨term, own⟩, hfirst, h⟩ := bind_ok h
    obtain ⟨⟨others, more⟩, hrest, h⟩ := bind_ok h
    obtain ⟨rfl, rfl⟩ := Prod.mk.inj (Except.ok.inj h)
    have hown : own = e.literal?.toList := hcompile _ _ _ _ hfirst
    rw [ih hrest, hown, List.filterMap_cons]
    cases e.literal? <;> rfl

end Each

theorem compileExpr_literal {n : Nat} {e : Expr} {term : Term} {own : List Json}
    (h : compileExpr columns n e = .ok (term, own)) : own = e.literal?.toList := by
  cases e with
  | metadata field => cases field <;> exact (Prod.mk.inj (Except.ok.inj h)).2.symm
  | column id =>
    rw [compileExpr] at h
    cases hr : requireColumn columns id with
    | error e => rw [hr] at h; cases h
    | ok type =>
      rw [hr] at h
      exact (Prod.mk.inj (Except.ok.inj h)).2.symm
  | value literal => exact (Prod.mk.inj (Except.ok.inj h)).2.symm
  | func name args => cases h
  | binary op left right => cases h
  | unary op operand => cases h

/-- Only the time of creation is compiled in another way where it is an output. -/
theorem compileOutput_of_ne (n : Nat) {e : Expr} (h : e ≠ .metadata .createdAt) :
    compileOutput columns n e = compileExpr columns n e := by
  rw [compileOutput]
  exact h

theorem compileOutput_literal {n : Nat} {e : Expr} {term : Term} {own : List Json}
    (h : compileOutput columns n e = .ok (term, own)) : own = e.literal?.toList := by
  by_cases he : e = .metadata .createdAt
  · subst he
    exact (Prod.mk.inj (Except.ok.inj h)).2.symm
  · rw [compileOutput_of_ne n he] at h
    exact compileExpr_literal h

/-! ### Selects -/

theorem compileSelect_eq (q : Select) :
    compileSelect table columns q =
      if q.filter.isSome then .error (.unimplemented .filter)
      else
        compileEach (compileOutput columns) 2 q.columns >>= fun x =>
          compileEach (compileExpr columns) (2 + x.2.length) (q.orderBy.map SortExpr.expr) >>=
            fun y =>
              if maxOffset < q.offset then .error (.offsetTooLarge q.offset maxOffset)
              else .ok ⟨table, x.1, y.1.zip (q.orderBy.map SortExpr.direction), q.limit, q.offset,
                x.2 ++ y.2⟩ := by
  rw [compileSelect]
  by_cases hfilter : q.filter.isSome = true
  · rw [if_pos hfilter, if_pos hfilter]
    rfl
  · rw [if_neg hfilter, if_neg hfilter]
    by_cases hoffset : maxOffset < q.offset
    · simp only [if_pos hoffset]
      rfl
    · simp only [if_neg hoffset]
      rfl

/-- The column that an expression is. -/
def Expr.column? : Expr → Option Uuid
  | .column id => some id
  | _ => none

/-- The columns that a select takes and sorts by. -/
def Select.namedColumns (q : Select) : List Uuid :=
  (q.columns ++ q.orderBy.map SortExpr.expr).filterMap Expr.column?

section Congr

variable {others : List Column}

/-- There is one type that columns have. -/
theorem columnType?_eq (known : List Column) (id : Uuid) :
    columnType? known id = if id ∈ known.map Column.id then some .string else none := by
  rw [columnType?]
  cases hf : known.find? fun c => c.id == id with
  | none =>
    refine (if_neg fun hmem => ?_).symm
    obtain ⟨c, hc, hid⟩ := List.mem_map.mp hmem
    exact find?_key_eq_none.mp hf c hc hid
  | some c =>
    obtain ⟨hmem, rfl⟩ := mem_and_key_of_find? hf
    rw [if_pos (List.mem_map_of_mem hmem), Option.map_some]

theorem compileExpr_congr (n : Nat) {e : Expr}
    (h : ∀ id, e.column? = some id → columnType? others id = columnType? columns id) :
    compileExpr others n e = compileExpr columns n e := by
  cases e with
  | column id => simp only [compileExpr, requireColumn, h id rfl]
  | metadata field => cases field <;> rfl
  | _ => rfl

theorem compileOutput_congr (n : Nat) {e : Expr}
    (h : ∀ id, e.column? = some id → columnType? others id = columnType? columns id) :
    compileOutput others n e = compileOutput columns n e := by
  by_cases he : e = .metadata .createdAt
  · subst he
    rfl
  · rw [compileOutput_of_ne n he, compileOutput_of_ne n he, compileExpr_congr n h]

theorem compileEach_congr {compile compile' : Nat → Expr → Except QueryError (Term × List Json)}
    {es : List Expr} (h : ∀ n, ∀ e ∈ es, compile n e = compile' n e) (next : Nat) :
    compileEach compile next es = compileEach compile' next es := by
  induction es generalizing next with
  | nil => rfl
  | cons e rest ih =>
    rw [compileEach, compileEach, h next e List.mem_cons_self]
    refine bind_congr_ok fun compiled _ => ?_
    obtain ⟨term, literals⟩ := compiled
    dsimp only
    rw [ih fun n e he => h n e (List.mem_cons_of_mem _ he)]

/-- A select is compiled to the same where the columns that it names have the same types. -/
theorem compileSelect_congr {q : Select}
    (h : ∀ id ∈ q.namedColumns, columnType? others id = columnType? columns id) :
    compileSelect table others q = compileSelect table columns q := by
  have heach : ∀ e ∈ q.columns ++ q.orderBy.map SortExpr.expr, ∀ id, e.column? = some id →
      columnType? others id = columnType? columns id := fun e he id hid =>
    h id (List.mem_filterMap.mpr ⟨e, he, hid⟩)
  have houtputs : ∀ n, compileEach (compileOutput others) n q.columns =
      compileEach (compileOutput columns) n q.columns :=
    compileEach_congr fun n e he => compileOutput_congr n (heach e (List.mem_append_left _ he))
  have horder : ∀ n, compileEach (compileExpr others) n (q.orderBy.map SortExpr.expr) =
      compileEach (compileExpr columns) n (q.orderBy.map SortExpr.expr) :=
    compileEach_congr fun n e he => compileExpr_congr n (heach e (List.mem_append_right _ he))
  simp only [compileSelect_eq, houtputs, horder]

end Congr

/-- What a select that is compiled is compiled to. -/
theorem compileSelect_ok {q : Select} {plan : SelectPlan}
    (h : compileSelect table columns q = .ok plan) :
    q.filter = none ∧ q.offset ≤ maxOffset ∧ ∃ outputs literals order more,
      compileEach (compileOutput columns) 2 q.columns = .ok (outputs, literals) ∧
      compileEach (compileExpr columns) (2 + literals.length) (q.orderBy.map SortExpr.expr) =
        .ok (order, more) ∧
      plan = ⟨table, outputs, order.zip (q.orderBy.map SortExpr.direction), q.limit, q.offset,
        literals ++ more⟩ := by
  rw [compileSelect_eq] at h
  split at h
  case isTrue => cases h
  case isFalse hfilter =>
    obtain ⟨⟨outputs, literals⟩, houtputs, h⟩ := bind_ok h
    obtain ⟨⟨order, more⟩, horder, h⟩ := bind_ok h
    split at h
    case isTrue => cases h
    case isFalse hoffset =>
      obtain rfl := Except.ok.inj h
      exact ⟨by simpa using hfilter, Nat.not_lt.mp hoffset, outputs, literals, order, more,
        houtputs, horder, rfl⟩

/-- The literals of a query, those of the outputs first. -/
def Select.literals (q : Select) : List Json :=
  (q.columns ++ q.orderBy.map SortExpr.expr).filterMap Expr.literal?

/-- The parameters of a select are its table and its literals. -/
theorem compileSelect_params {q : Select} {plan : SelectPlan}
    (h : compileSelect table columns q = .ok plan) :
    plan.params = .uuid table :: q.literals.map .literal := by
  obtain ⟨-, -, outputs, literals, order, more, houtputs, horder, rfl⟩ := compileSelect_ok h
  rw [SelectPlan.params, Select.literals, List.filterMap_append,
    compileEach_literals (fun _ _ _ _ => compileOutput_literal) houtputs,
    compileEach_literals (fun _ _ _ _ => compileExpr_literal) horder]

/-- The text of a plan, from the texts of its terms. -/
theorem SelectPlan.sql_eq {d : Sql.Dialect} {outputs order : List Term} {keys : List SortExpr}
    (hlength : order.length = keys.length) (limit offset : Nat) (literals : List Json) :
    SelectPlan.sql d
        ⟨table, outputs, order.zip (keys.map SortExpr.direction), limit, offset, literals⟩ =
      "SELECT " ++
        ", ".intercalate ((outputs.map (Term.sql d)).mapIdx fun i text =>
          text ++ " AS " ++ outputName i) ++
        " FROM records WHERE records.table_id = $1" ++
        (if (order.map (Term.sql d)).isEmpty then ""
          else " ORDER BY " ++ ", ".intercalate
            (List.zipWith (fun text s => text ++ " " ++ s.direction.keyword)
              (order.map (Term.sql d)) keys)) ++
        " LIMIT " ++ toString limit ++ " OFFSET " ++ toString offset := by
  have hprojection : SelectPlan.projection d
      ⟨table, outputs, order.zip (keys.map SortExpr.direction), limit, offset, literals⟩ =
        ", ".intercalate ((outputs.map (Term.sql d)).mapIdx fun i text =>
          text ++ " AS " ++ outputName i) := by
    rw [SelectPlan.projection, List.mapIdx_eq_zipIdx_map, List.mapIdx_eq_zipIdx_map,
      List.zipIdx_map, List.map_map]
    rfl
  have hclause : SelectPlan.orderClause d
      ⟨table, outputs, order.zip (keys.map SortExpr.direction), limit, offset, literals⟩ =
        if (order.map (Term.sql d)).isEmpty then ""
          else " ORDER BY " ++ ", ".intercalate
            (List.zipWith (fun text s => text ++ " " ++ s.direction.keyword)
              (order.map (Term.sql d)) keys) := by
    have hempty : (order.zip (keys.map SortExpr.direction)).isEmpty =
        (order.map (Term.sql d)).isEmpty := by
      rw [Bool.eq_iff_iff, List.isEmpty_iff_length_eq_zero, List.isEmpty_iff_length_eq_zero]
      simp [hlength]
    rw [SelectPlan.orderClause, hempty, List.zip, List.map_zipWith, List.zipWith_map_left,
      List.zipWith_map_right]
  unfold SelectPlan.sql
  rw [hprojection, hclause]

theorem tableId_of_compileSelect {q : Select} {plan : SelectPlan}
    (h : compileSelect table columns q = .ok plan) : plan.tableId = table := by
  obtain ⟨-, -, outputs, literals, order, more, -, -, rfl⟩ := compileSelect_ok h
  rfl

/-! ### Inserts -/

/-- The records of rows, each with the identifier of its position. -/
theorem compileRows_records {ids : List Uuid} {position : Nat} {rows : List (List Json)}
    {records : List NewRecord}
    (h : compileRows table ids now fresh position rows = .ok records) :
    records = (rows.zipIdx position).map fun x => ⟨fresh x.2, table, rowData ids x.1, now⟩ := by
  induction rows generalizing position records with
  | nil => exact (Except.ok.inj h).symm
  | cons row rest ih =>
    rw [compileRows] at h
    split at h
    case isTrue => cases h
    case isFalse =>
      obtain ⟨more, hmore, h⟩ := bind_ok h
      obtain rfl := Except.ok.inj h
      rw [ih hmore, List.zipIdx_cons, List.map_cons]

theorem compileInsert_records {q : Insert} {plan : InsertPlan}
    (h : compileInsert table columns now fresh q = .ok plan) :
    plan.records = (q.rows.zipIdx).map fun x => ⟨fresh x.2, table, rowData q.columns x.1, now⟩ := by
  obtain ⟨_, -, h⟩ := bind_ok h
  obtain ⟨records, hrecords, h⟩ := bind_ok h
  obtain rfl := Except.ok.inj h
  exact compileRows_records hrecords

/-- An insertion has five placeholders for each record. -/
theorem InsertPlan.length_params (p : InsertPlan) : p.params.length = 5 * p.records.length := by
  have hfive : (fun r => (recordParams r).length) = fun _ => 5 := rfl
  rw [params, List.length_flatMap, hfive, List.map_const', List.sum_replicate_nat, Nat.mul_comm]

section Compiled

variable {q : Insert} {plan : InsertPlan}

theorem length_records (h : compileInsert table columns now fresh q = .ok plan) :
    plan.records.length = q.rows.length := by
  rw [compileInsert_records h, List.length_map, List.length_zipIdx]

theorem recordIds_of_compileInsert (h : compileInsert table columns now fresh q = .ok plan) :
    plan.recordIds = (List.range q.rows.length).map fresh := by
  rw [InsertPlan.recordIds, compileInsert_records h, List.map_map, List.range_eq_range',
    ← List.zipIdx_map_snd 0 q.rows, List.map_map]
  rfl

theorem exists_compileRows {ids : List Uuid} (position : Nat) {rows : List (List Json)}
    (h : ∀ row ∈ rows, row.length = ids.length) :
    ∃ records, compileRows table ids now fresh position rows = .ok records := by
  induction rows generalizing position with
  | nil => exact ⟨[], rfl⟩
  | cons row rest ih =>
    obtain ⟨hrow, hrest⟩ := List.forall_mem_cons.mp h
    obtain ⟨more, hmore⟩ := ih (position + 1) hrest
    rw [compileRows, if_neg (not_not.mpr hrow), hmore]
    exact ⟨_, rfl⟩

theorem forM_requireColumn {ids : List Uuid} (h : ∀ id ∈ ids, id ∈ columns.map Column.id) :
    (ids.forM fun id => discard (requireColumn columns id)) = .ok () := by
  induction ids with
  | nil => rfl
  | cons id rest ih =>
    obtain ⟨hid, hrest⟩ := List.forall_mem_cons.mp h
    obtain ⟨type, htype⟩ := exists_requireColumn hid
    rw [List.forM, htype]
    exact ih hrest

/-- Rows that fit the columns they are given for are compiled. -/
theorem exists_compileInsert (hcolumns : ∀ id ∈ q.columns, id ∈ columns.map Column.id)
    (hrows : ∀ row ∈ q.rows, row.length = q.columns.length) :
    ∃ plan, compileInsert table columns now fresh q = .ok plan := by
  obtain ⟨records, hrecords⟩ : ∃ records,
      compileRows table q.columns now fresh 0 q.rows = .ok records := exists_compileRows 0 hrows
  rw [compileInsert, forM_requireColumn hcolumns]
  exact ⟨⟨records⟩, by rw [hrecords]; rfl⟩

end Compiled

/-! ### Queries -/

section Queries

variable {query : Query}

/-- Only inserts are compiled to insertions. -/
theorem compile_insert_ok {plan : InsertPlan}
    (h : compile table columns now fresh query = .ok (.insert plan)) :
    ∃ q, query = .insert q ∧ compileInsert table columns now fresh q = .ok plan := by
  cases query with
  | insert q =>
    obtain ⟨p, hp, heq⟩ := map_ok h
    exact ⟨q, rfl, Plan.insert.inj heq ▸ hp⟩
  | select q =>
    obtain ⟨p, -, heq⟩ := map_ok h
    cases heq
  | update => cases h
  | delete => cases h

/-- Only selects are compiled to selections. -/
theorem compile_select_ok {plan : SelectPlan}
    (h : compile table columns now fresh query = .ok (.select plan)) :
    ∃ q, query = .select q ∧ compileSelect table columns q = .ok plan := by
  cases query with
  | insert q =>
    obtain ⟨p, -, heq⟩ := map_ok h
    cases heq
  | select q =>
    obtain ⟨p, hp, heq⟩ := map_ok h
    exact ⟨q, rfl, Plan.select.inj heq ▸ hp⟩
  | update => cases h
  | delete => cases h

end Queries

/-! ### Sizes -/

/-- The select has more outputs, or more expressions to sort by, than the engine takes. -/
def Select.Exceeds (q : Select) : Prop :=
  Database.maxColumns < q.columns.length ∨ Database.maxSortTerms < q.orderBy.length

instance (q : Select) : Decidable q.Exceeds :=
  inferInstanceAs (Decidable (_ ∨ _))

/-- The query asks for more than the engine takes in one statement. Each row needs five
placeholders. -/
def Exceeds : Query → Prop
  | .insert q => Tables.maxPlaceholders < 5 * q.rows.length
  | .select q => q.Exceeds
  | .update | .delete => False

/-- A plan is as large as its query. -/
theorem oversized_iff {q : Select} {plan : SelectPlan}
    (h : compileSelect table columns q = .ok plan) : Oversized plan ↔ q.Exceeds := by
  obtain ⟨-, -, outputs, literals, order, more, houtputs, horder, rfl⟩ := compileSelect_ok h
  have hwidth : outputs.length = q.columns.length := (compileEach_ok houtputs).length_eq.symm
  have hterms : order.length = q.orderBy.length :=
    (compileEach_ok horder).length_eq.symm.trans (List.length_map _)
  simp [Oversized, SelectPlan.width, Select.Exceeds, hwidth, hterms]

end TableStore.Query
