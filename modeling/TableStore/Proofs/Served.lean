import TableStore.Proofs.Compilation

/-!
# Queries that are served

A store serves inserts that fit the columns of their table, and selects without a filter that take
metadata, values and columns of the table (`Query.Served`); no other query is compiled. All that a
query can be refused for stands in one list (`Query.faults`), in the order in which compilation
comes to it, and a query is refused for the first of them (`Query.compile_reportsFirst`), or
compiled if there is none (`Query.exists_plan_iff`).
-/

namespace TableStore

theorem filterMap_cons_eq_append {α β : Type} (f : α → Option β) (a : α) (rest : List α) :
    (a :: rest).filterMap f = (f a).toList ++ rest.filterMap f := by
  rw [List.filterMap_cons]
  cases f a <;> rfl

namespace Query

variable {table : Uuid} {columns : List Column} {now : Timestamp} {fresh : Nat → Uuid}

/-! ### Queries that are served -/

/-- An expression that a store can take from a record. -/
def Expr.Served (columns : List Column) : Expr → Prop
  | .metadata _ | .value _ => True
  | .column id => id ∈ columns.map Column.id
  | .func _ _ | .binary _ _ _ | .unary _ _ => False

/-- A query that a store carries out on a table with the given columns. -/
def Served (columns : List Column) : Query → Prop
  | .insert q =>
    (∀ id ∈ q.columns, id ∈ columns.map Column.id) ∧ ∀ row ∈ q.rows, row.length = q.columns.length
  | .select q =>
    q.filter = none ∧ (∀ e ∈ q.columns, e.Served columns) ∧
      (∀ s ∈ q.orderBy, s.expr.Served columns) ∧ q.offset ≤ maxOffset
  | .update | .delete => False

/-! ### All that is wrong with a query -/

/-- What a column is refused for. -/
def columnFault? (columns : List Column) (id : Uuid) : Option QueryError :=
  if id ∈ columns.map Column.id then none else some (.unknownColumn id)

/-- What an expression is refused for. Its operands and arguments do not matter. -/
def Expr.fault? (columns : List Column) : Expr → Option QueryError
  | .metadata _ | .value _ => none
  | .column id => columnFault? columns id
  | .func name _ => some (.unimplemented (.func name))
  | .binary op _ _ => some (.unimplemented (.binary op))
  | .unary op _ => some (.unimplemented (.unary op))

/-- What a row at a position is refused for. -/
def rowFault? (width : Nat) (row : List Json × Nat) : Option QueryError :=
  if row.1.length = width then none else some (.rowWidthMismatch row.2 width row.1.length)

/-- All that a query is refused for, the first fault first. -/
def faults (columns : List Column) : Query → List QueryError
  | .insert q =>
    q.columns.filterMap (columnFault? columns) ++
      q.rows.zipIdx.filterMap (rowFault? q.columns.length)
  | .select q =>
    (if q.filter.isSome then [.unimplemented .filter] else []) ++
      (q.columns.filterMap (Expr.fault? columns) ++
        ((q.orderBy.map SortExpr.expr).filterMap (Expr.fault? columns) ++
          if maxOffset < q.offset then [.offsetTooLarge q.offset maxOffset] else []))
  | .update => [.unimplemented (.kind .update)]
  | .delete => [.unimplemented (.kind .delete)]

theorem columnFault?_eq_none {id : Uuid} :
    columnFault? columns id = none ↔ id ∈ columns.map Column.id := by
  rw [columnFault?]
  split
  case isTrue h => exact ⟨fun _ => h, fun _ => rfl⟩
  case isFalse h => exact ⟨nofun, fun hmem => absurd hmem h⟩

theorem Expr.fault?_eq_none {e : Expr} : e.fault? columns = none ↔ e.Served columns := by
  cases e with
  | metadata field => exact ⟨fun _ => trivial, fun _ => rfl⟩
  | column id => exact columnFault?_eq_none
  | value literal => exact ⟨fun _ => trivial, fun _ => rfl⟩
  | func name args => exact ⟨nofun, False.elim⟩
  | binary op left right => exact ⟨nofun, False.elim⟩
  | unary op operand => exact ⟨nofun, False.elim⟩

theorem rowFault?_eq_none {width : Nat} {row : List Json × Nat} :
    rowFault? width row = none ↔ row.1.length = width := by
  rw [rowFault?]
  split
  case isTrue h => exact ⟨fun _ => h, fun _ => rfl⟩
  case isFalse h => exact ⟨nofun, fun hlength => absurd hlength h⟩

/-- **A query without faults is one that is served.** -/
theorem faults_eq_nil {q : Query} : q.faults columns = [] ↔ q.Served columns := by
  have hcolumns {ids : List Uuid} : ids.filterMap (columnFault? columns) = [] ↔
      ∀ id ∈ ids, id ∈ columns.map Column.id := by
    simp only [List.filterMap_eq_nil_iff, columnFault?_eq_none]
  have hexprs {es : List Expr} : es.filterMap (Expr.fault? columns) = [] ↔
      ∀ e ∈ es, e.Served columns := by
    simp only [List.filterMap_eq_nil_iff, Expr.fault?_eq_none]
  have hrows {width : Nat} {rows : List (List Json)} :
      rows.zipIdx.filterMap (rowFault? width) = [] ↔ ∀ row ∈ rows, row.length = width := by
    have hmem : (∀ row ∈ rows, row.length = width) ↔
        ∀ row ∈ rows.zipIdx.map Prod.fst, row.length = width := by
      rw [List.zipIdx_map_fst]
    simp only [List.filterMap_eq_nil_iff, rowFault?_eq_none, hmem, List.forall_mem_map]
  have hone {c : Prop} [Decidable c] {e : QueryError} :
      (if c then [e] else []) = [] ↔ ¬ c := by
    split
    case isTrue h => exact ⟨nofun, fun hc => absurd h hc⟩
    case isFalse h => exact ⟨fun _ => h, fun _ => rfl⟩
  cases q with
  | insert q => simp only [faults, Served, List.append_eq_nil_iff, hcolumns, hrows]
  | select q =>
    simp only [faults, Served, List.append_eq_nil_iff, hexprs, hone, List.forall_mem_map,
      Nat.not_lt, Bool.not_eq_true, Option.isSome_eq_false_iff, Option.isNone_iff_eq_none]
  | update => exact ⟨nofun, False.elim⟩
  | delete => exact ⟨nofun, False.elim⟩

/-! ### Compilation comes to the faults in their order -/

theorem requireColumn_reportsFirst (id : Uuid) :
    ReportsFirst (requireColumn columns id) (columnFault? columns id).toList := by
  rw [columnFault?]
  split
  case isTrue hmem => exact exists_requireColumn hmem
  case isFalse hmem =>
    show requireColumn columns id = .error (.unknownColumn id)
    cases h : columnType? columns id with
    | none => rw [requireColumn, h]
    | some type =>
      have hok : requireColumn columns id = .ok type := by rw [requireColumn, h]
      exact absurd (requireColumn_ok hok) hmem

theorem forM_requireColumn_reportsFirst (ids : List Uuid) :
    ReportsFirst (ids.forM fun id => discard (requireColumn columns id))
      (ids.filterMap (columnFault? columns)) := by
  induction ids with
  | nil => exact ⟨(), rfl⟩
  | cons id rest ih =>
    have hfirst : ReportsFirst (discard (requireColumn columns id))
        (columnFault? columns id).toList := (requireColumn_reportsFirst id).map
    rw [List.forM, filterMap_cons_eq_append]
    exact hfirst.bind fun _ _ => ih

theorem compileExpr_reportsFirst (next : Nat) (e : Expr) :
    ReportsFirst (compileExpr columns next e) (e.fault? columns).toList := by
  cases e with
  | metadata field => cases field <;> exact ⟨_, rfl⟩
  | column id => exact (requireColumn_reportsFirst id).map
  | value literal => exact ⟨_, rfl⟩
  | func name args => exact rfl
  | binary op left right => exact rfl
  | unary op operand => exact rfl

theorem compileOutput_reportsFirst (next : Nat) (e : Expr) :
    ReportsFirst (compileOutput columns next e) (e.fault? columns).toList := by
  by_cases he : e = .metadata .createdAt
  · subst he
    exact ⟨_, rfl⟩
  · rw [compileOutput_of_ne next he]
    exact compileExpr_reportsFirst next e

/-- The faults of a list of expressions are found from left to right. -/
theorem compileEach_reportsFirst
    {compile : Nat → Expr → Except QueryError (Term × List Json)}
    (hcompile : ∀ next e, ReportsFirst (compile next e) (e.fault? columns).toList) (next : Nat)
    (es : List Expr) :
    ReportsFirst (compileEach compile next es) (es.filterMap (Expr.fault? columns)) := by
  induction es generalizing next with
  | nil => exact ⟨_, rfl⟩
  | cons e rest ih =>
    rw [compileEach, filterMap_cons_eq_append]
    exact (hcompile next e).bind fun x _ => (ih (next + x.2.length)).map

theorem compileRows_reportsFirst (ids : List Uuid) (position : Nat) (rows : List (List Json)) :
    ReportsFirst (compileRows table ids now fresh position rows)
      ((rows.zipIdx position).filterMap (rowFault? ids.length)) := by
  induction rows generalizing position with
  | nil => exact ⟨[], rfl⟩
  | cons row rest ih =>
    rw [compileRows, List.zipIdx_cons, filterMap_cons_eq_append, rowFault?]
    by_cases hrow : row.length = ids.length
    · rw [if_neg (not_not.mpr hrow), if_pos hrow]
      exact (ih (position + 1)).map
    · rw [if_pos hrow, if_neg hrow]
      exact rfl

theorem compileSelect_reportsFirst (q : Select) :
    ReportsFirst (compileSelect table columns q) ((Query.select q).faults columns) := by
  rw [compileSelect_eq, faults]
  by_cases hfilter : q.filter.isSome = true
  · rw [if_pos hfilter, if_pos hfilter]
    exact rfl
  · rw [if_neg hfilter, if_neg hfilter]
    refine (compileEach_reportsFirst compileOutput_reportsFirst 2 q.columns).bind fun x _ => ?_
    refine (compileEach_reportsFirst compileExpr_reportsFirst _ _).bind fun y _ => ?_
    by_cases hoffset : maxOffset < q.offset
    · rw [if_pos hoffset, if_pos hoffset]
      exact rfl
    · rw [if_neg hoffset, if_neg hoffset]
      exact ⟨_, rfl⟩

/-- **A query is refused for the first of its faults, and compiled if it has none.** -/
theorem compile_reportsFirst (q : Query) :
    ReportsFirst (compile table columns now fresh q) (q.faults columns) := by
  cases q with
  | insert q =>
    refine ReportsFirst.map ?_
    exact (forM_requireColumn_reportsFirst q.columns).bind fun _ _ =>
      (compileRows_reportsFirst q.columns 0 q.rows).map
  | select q => exact (compileSelect_reportsFirst q).map
  | update => exact rfl
  | delete => exact rfl

/-- **Just the queries that are served are compiled.** -/
theorem exists_plan_iff {q : Query} :
    (∃ plan, compile table columns now fresh q = .ok plan) ↔ q.Served columns := by
  rw [(compile_reportsFirst q).ok_iff, faults_eq_nil]

end Query

end TableStore
