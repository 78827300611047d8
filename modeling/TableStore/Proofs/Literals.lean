import TableStore.Proofs.Compilation

/-!
# Literals reach parameters only

`Query.shape` is what is left of a query when every literal is blanked out, wherever it stands, and
`Plan.shape` is what is left of a plan without the values that come from literals. The text of the
statement, the message that is logged, the identifiers of the records and the kinds of the
parameters are all read off the shape of the plan, and the shape of the plan, or the error, is read
off the shape of the query (`compile_shape`).

Each parameter is made of at most one literal or one row of them (`Query.literalsAt`,
`params_congr`). **Literals reach parameters only** (`literals_reach_parameters_only`) puts this
together for two queries that differ in their literals.
-/

namespace TableStore.Query

/-! ### Queries without their literals -/

mutual

/-- The expression with all literals blanked out. -/
def Expr.shape : Expr → Expr
  | .metadata field => .metadata field
  | .column id => .column id
  | .value _ => .value .null
  | .func name args => .func name (Expr.shapes args)
  | .binary op left right => .binary op left.shape right.shape
  | .unary op operand => .unary op operand.shape

def Expr.shapes : List Expr → List Expr
  | [] => []
  | e :: rest => e.shape :: Expr.shapes rest

end

/-- Literals blanked out. -/
def blank (literals : List Json) : List Json :=
  literals.map fun _ => .null

def SortExpr.shape (s : SortExpr) : SortExpr :=
  { s with expr := s.expr.shape }

/-- The query with all literals blanked out: columns and lengths of rows stay. -/
def Insert.shape (q : Insert) : Insert :=
  { q with rows := q.rows.map blank }

/-- The query with all literals blanked out. -/
def Select.shape (q : Select) : Select :=
  { q with
    columns := q.columns.map Expr.shape
    filter := q.filter.map Expr.shape
    orderBy := q.orderBy.map SortExpr.shape }

def shape : Query → Query
  | .insert q => .insert q.shape
  | .select q => .select q.shape
  | .update => .update
  | .delete => .delete

/-! ### Plans without their literals -/

/-- The record without its document. -/
def NewRecord.shape (r : NewRecord) : NewRecord :=
  { r with data := [] }

def InsertPlan.shape (p : InsertPlan) : InsertPlan :=
  ⟨p.records.map NewRecord.shape⟩

def SelectPlan.shape (p : SelectPlan) : SelectPlan :=
  { p with literals := blank p.literals }

def Plan.shape : Plan → Plan
  | .insert p => .insert p.shape
  | .select p => .select p.shape

theorem InsertPlan.length_shape (p : InsertPlan) : p.shape.records.length = p.records.length :=
  List.length_map _

theorem InsertPlan.sql_shape (p : InsertPlan) : p.shape.sql = p.sql := by
  unfold InsertPlan.sql
  rw [p.length_shape]

theorem SelectPlan.sql_shape (d : Sql.Dialect) (p : SelectPlan) : p.shape.sql d = p.sql d := by
  unfold SelectPlan.sql
  rfl

/-- The kinds of values that are bound to placeholders. -/
inductive Param.Kind where
  | uuid
  | document
  | timestamp
  | literal
deriving DecidableEq, Repr

def Param.kind : Param → Param.Kind
  | .uuid _ => .uuid
  | .document _ => .document
  | .timestamp _ => .timestamp
  | .literal _ => .literal

namespace Plan

/-- The text of the statement in a dialect. -/
def sql (d : Sql.Dialect) : Plan → String
  | .insert p => p.sql
  | .select p => p.sql d

def params : Plan → List Param
  | .insert p => p.params
  | .select p => p.params

/-- The identifiers of new records, if there are any. -/
def recordIds : Plan → List Uuid
  | .insert p => p.recordIds
  | .select _ => []

variable (d : Sql.Dialect) (p : Plan)

theorem sql_shape : p.shape.sql d = p.sql d := by
  cases p with
  | insert p => exact p.sql_shape
  | select p => exact p.sql_shape d

theorem logMessage_shape : p.shape.logMessage d = p.logMessage d := by
  cases p with
  | insert p =>
    unfold shape logMessage
    simp only [p.sql_shape, p.length_shape]
  | select p =>
    unfold shape logMessage
    simp only [p.sql_shape d]

theorem recordIds_shape : p.shape.recordIds = p.recordIds := by
  cases p with
  | insert p =>
    simp only [shape, recordIds, InsertPlan.shape, InsertPlan.recordIds, List.map_map]
    rfl
  | select p => rfl

theorem kinds_shape : p.shape.params.map Param.kind = p.params.map Param.kind := by
  cases p with
  | insert p =>
    simp only [shape, params, InsertPlan.shape, InsertPlan.params, List.map_flatMap,
      List.flatMap_map]
    rfl
  | select p =>
    simp only [shape, params, SelectPlan.shape, SelectPlan.params, blank, List.map_cons,
      List.map_map]
    rfl

end Plan

/-! ### Compilation sees the shape -/

variable {table : Uuid} {columns : List Column} {now : Timestamp} {fresh : Nat → Uuid}

/-- A term with its literals blanked out. -/
def blankSecond {α : Type} (x : α × List Json) : α × List Json :=
  (x.1, blank x.2)

theorem compileExpr_shape (next : Nat) (e : Expr) :
    compileExpr columns next e.shape = (compileExpr columns next e).map blankSecond := by
  cases e with
  | metadata field => cases field <;> rfl
  | column id =>
    rw [Expr.shape, compileExpr]
    cases requireColumn columns id <;> rfl
  | value literal => rfl
  | func name args => rfl
  | binary op left right => rfl
  | unary op operand => rfl

theorem compileOutput_shape (next : Nat) (e : Expr) :
    compileOutput columns next e.shape = (compileOutput columns next e).map blankSecond := by
  cases e with
  | metadata field => cases field <;> rfl
  | column id => exact compileExpr_shape next (.column id)
  | value literal => rfl
  | func name args => rfl
  | binary op left right => rfl
  | unary op operand => rfl

theorem compileEach_shape {compile : Nat → Expr → Except QueryError (Term × List Json)}
    (h : ∀ next e, compile next e.shape = (compile next e).map blankSecond) (next : Nat)
    (es : List Expr) :
    compileEach compile next (es.map Expr.shape) =
      (compileEach compile next es).map blankSecond := by
  induction es generalizing next with
  | nil => rfl
  | cons e rest ih =>
    simp only [List.map_cons, compileEach, h]
    cases compile next e with
    | error err => rfl
    | ok x =>
      obtain ⟨term, literals⟩ := x
      have hlength : (blank literals).length = literals.length := List.length_map _
      simp only [Except.map, blankSecond, bind, Except.bind, hlength, ih]
      cases compileEach compile (next + literals.length) rest with
      | error err => rfl
      | ok y => simp only [pure, Except.pure, blank, List.map_append]

theorem compileSelect_shape (q : Select) :
    compileSelect table columns q.shape =
      (compileSelect table columns q).map SelectPlan.shape := by
  have hfilter : (q.filter.map Expr.shape).isSome = q.filter.isSome := Option.isSome_map
  have horder : (q.orderBy.map SortExpr.shape).map SortExpr.expr =
      (q.orderBy.map SortExpr.expr).map Expr.shape := by simp [SortExpr.shape]
  have hdirections : (q.orderBy.map SortExpr.shape).map SortExpr.direction =
      q.orderBy.map SortExpr.direction := by simp [SortExpr.shape]
  simp only [compileSelect_eq, Select.shape, hfilter, horder, hdirections,
    compileEach_shape compileOutput_shape, compileEach_shape compileExpr_shape]
  by_cases hsome : q.filter.isSome = true
  · rw [if_pos hsome, if_pos hsome]
    rfl
  rw [if_neg hsome, if_neg hsome]
  cases compileEach (compileOutput columns) 2 q.columns with
  | error e => rfl
  | ok x =>
    have hlength : (blank x.2).length = x.2.length := List.length_map _
    simp only [Except.map, blankSecond, bind, Except.bind, hlength]
    cases compileEach (compileExpr columns) (2 + x.2.length) (q.orderBy.map SortExpr.expr) with
    | error e => rfl
    | ok y =>
      by_cases hoffset : maxOffset < q.offset
      · simp only [if_pos hoffset]
      · simp only [if_neg hoffset, SelectPlan.shape, blank, List.map_append]

/-- Rows of the same lengths become records with the same identifiers, or fail alike. -/
theorem compileRows_shape (ids : List Uuid) (position : Nat) (rows : List (List Json)) :
    (compileRows table ids now fresh position (rows.map blank)).map (List.map NewRecord.shape) =
      (compileRows table ids now fresh position rows).map (List.map NewRecord.shape) := by
  induction rows generalizing position with
  | nil => rfl
  | cons row rest ih =>
    have hlength : (blank row).length = row.length := List.length_map _
    have hrest := ih (position + 1)
    rw [List.map_cons, compileRows, compileRows, hlength]
    split
    case isTrue => rfl
    case isFalse =>
      revert hrest
      cases compileRows table ids now fresh (position + 1) (rest.map blank) with
      | error e =>
        cases compileRows table ids now fresh (position + 1) rest with
        | error e' => exact fun h => congrArg Except.error (Except.error.inj h)
        | ok more =>
          intro h
          cases h
      | ok blanks =>
        cases compileRows table ids now fresh (position + 1) rest with
        | error e' =>
          intro h
          cases h
        | ok more =>
          intro h
          have hmore : blanks.map NewRecord.shape = more.map NewRecord.shape := Except.ok.inj h
          show Except.ok (_ :: blanks.map NewRecord.shape) = _
          rw [hmore]
          rfl

theorem compileInsert_shape (q : Insert) :
    (compileInsert table columns now fresh q.shape).map InsertPlan.shape =
      (compileInsert table columns now fresh q).map InsertPlan.shape := by
  have hplan : ∀ r : Except QueryError (List NewRecord),
      (r >>= fun records => pure (InsertPlan.mk records)).map InsertPlan.shape =
        (r.map (List.map NewRecord.shape)).map InsertPlan.mk := by
    intro r
    cases r <;> rfl
  simp only [compileInsert, Insert.shape]
  cases q.columns.forM fun id => discard (requireColumn columns id) with
  | error e => rfl
  | ok _ => exact (hplan _).trans ((congrArg _ (compileRows_shape _ _ _)).trans (hplan _).symm)

/-- **What is left of a plan without its literals depends on what is left of the query.** -/
theorem compile_shape {q q' : Query} (h : q.shape = q'.shape) :
    (compile table columns now fresh q).map Plan.shape =
      (compile table columns now fresh q').map Plan.shape := by
  have hshape : ∀ q : Query, (compile table columns now fresh q).map Plan.shape =
      (compile table columns now fresh q.shape).map Plan.shape := by
    intro q
    cases q with
    | insert q =>
      have hinsert : ∀ r : Except QueryError InsertPlan,
          (r.map Plan.insert).map Plan.shape = (r.map InsertPlan.shape).map Plan.insert := by
        intro r
        cases r <;> rfl
      exact (hinsert _).trans ((congrArg _ (compileInsert_shape q)).symm.trans (hinsert _).symm)
    | select q =>
      have hselect : ∀ r : Except QueryError SelectPlan,
          (r.map Plan.select).map Plan.shape =
            ((r.map SelectPlan.shape).map Plan.select).map Plan.shape := by
        intro r
        cases r with
        | error e => rfl
        | ok p => simp [Except.map, Plan.shape, SelectPlan.shape, blank]
      show (Except.map Plan.select _).map _ = (Except.map Plan.select _).map _
      rw [compileSelect_shape, hselect]
    | update => rfl
    | delete => rfl
  rw [hshape q, hshape q', h]

/-! ### Parameters -/

/-- The literals that the parameter at a position is made of: one for a placeholder of a select, and
the row for the document of a new record. -/
def literalsAt : Query → Nat → Option (List Json)
  | .insert q, i => if i % 5 = 2 then q.rows[i / 5]? else none
  | .select q, i + 1 => (q.literals[i]?).map fun literal => [literal]
  | _, _ => none

theorem getElem?_flatMap_of_length {α β : Type} {f : α → List β} {n : Nat}
    (h : ∀ a, (f a).length = n) (hn : 0 < n) (rows : List α) (i : Nat) :
    (rows.flatMap f)[i]? = rows[i / n]?.bind fun a => (f a)[i % n]? := by
  induction rows generalizing i with
  | nil => simp
  | cons a rest ih =>
    rw [List.flatMap_cons, List.getElem?_append, h a]
    by_cases hi : i < n
    · rw [if_pos hi, Nat.div_eq_of_lt hi, Nat.mod_eq_of_lt hi]
      rfl
    · have hle : n ≤ i := Nat.not_lt.mp hi
      rw [if_neg hi, ih, Nat.div_eq_sub_div hn hle, List.getElem?_cons_succ,
        ← Nat.mod_eq_sub_mod hle]

/-- The parameters of an insert, five for each row. -/
theorem insertParams_getElem? {q : Insert} {plan : InsertPlan}
    (h : compileInsert table columns now fresh q = .ok plan) (i : Nat) :
    plan.params[i]? = q.rows[i / 5]?.bind fun row =>
      (InsertPlan.recordParams ⟨fresh (i / 5), table, rowData q.columns row, now⟩)[i % 5]? := by
  have hfive : ∀ r : NewRecord, (InsertPlan.recordParams r).length = 5 := fun _ => rfl
  rw [InsertPlan.params, getElem?_flatMap_of_length hfive (by decide), compileInsert_records h,
    List.getElem?_map, List.getElem?_zipIdx]
  cases q.rows[i / 5]? with
  | none => rfl
  | some row => simp

/-- Of the parameters of a record only the third one is its document. -/
theorem recordParams_congr {r r' : NewRecord} (h : r.shape = r'.shape) {k : Nat} (hk : k ≠ 2) :
    (InsertPlan.recordParams r)[k]? = (InsertPlan.recordParams r')[k]? := by
  obtain ⟨id, tableId, data, createdAt⟩ := r
  obtain ⟨id', tableId', data', createdAt'⟩ := r'
  obtain ⟨rfl, rfl, -, rfl⟩ := NewRecord.mk.inj h
  match k, hk with
  | 0, _ | 1, _ | 3, _ | 4, _ => rfl
  | k + 5, _ => rfl

theorem insertParams_congr {q q' : Insert} {p p' : InsertPlan} (h : q.shape = q'.shape)
    (hp : compileInsert table columns now fresh q = .ok p)
    (hp' : compileInsert table columns now fresh q' = .ok p') {i : Nat}
    (hi : (Query.insert q).literalsAt i = (Query.insert q').literalsAt i) :
    p.params[i]? = p'.params[i]? := by
  obtain ⟨hcolumns, hrows⟩ := Insert.mk.inj h
  have hblank : q.rows[i / 5]?.map blank = q'.rows[i / 5]?.map blank := by
    rw [← List.getElem?_map, hrows, List.getElem?_map]
  rw [insertParams_getElem? hp, insertParams_getElem? hp', hcolumns]
  simp only [literalsAt] at hi
  by_cases hdocument : i % 5 = 2
  · rw [if_pos hdocument, if_pos hdocument] at hi
    rw [hi]
  · cases hrow : q.rows[i / 5]? with
    | none =>
      rw [hrow, Option.map_none, eq_comm, Option.map_eq_none_iff] at hblank
      rw [hblank]
    | some row =>
      rw [hrow, Option.map_some, eq_comm, Option.map_eq_some_iff] at hblank
      obtain ⟨row', hrow', -⟩ := hblank
      rw [hrow', Option.bind_some, Option.bind_some]
      have hshape : NewRecord.shape ⟨fresh (i / 5), table, rowData q'.columns row, now⟩ =
          NewRecord.shape ⟨fresh (i / 5), table, rowData q'.columns row', now⟩ := rfl
      exact recordParams_congr hshape hdocument

/-- **A parameter depends only on the literals that it is made of.** -/
theorem params_congr {q q' : Query} {p p' : Plan} (h : q.shape = q'.shape)
    (hp : compile table columns now fresh q = .ok p)
    (hp' : compile table columns now fresh q' = .ok p') {i : Nat}
    (hi : q.literalsAt i = q'.literalsAt i) : p.params[i]? = p'.params[i]? := by
  cases q with
  | insert q =>
    cases q' with
    | insert q' =>
      obtain ⟨plan, hplan, rfl⟩ := map_ok hp
      obtain ⟨plan', hplan', rfl⟩ := map_ok hp'
      exact insertParams_congr (Query.insert.inj h) hplan hplan' hi
    | _ => cases h
  | select q =>
    cases q' with
    | select q' =>
      obtain ⟨plan, hplan, rfl⟩ := map_ok hp
      obtain ⟨plan', hplan', rfl⟩ := map_ok hp'
      rw [Plan.params, Plan.params, compileSelect_params hplan, compileSelect_params hplan']
      cases i with
      | zero => rfl
      | succ i =>
        replace hi : (q.literals[i]?).map (fun literal => [literal]) =
          (q'.literals[i]?).map fun literal => [literal] := hi
        rw [List.getElem?_cons_succ, List.getElem?_cons_succ, List.getElem?_map, List.getElem?_map,
          Option.map_injective (fun _ _ h => List.singleton_inj.mp h) hi]
    | _ => cases h
  | update => cases hp
  | delete => cases hp

/-- **Literals reach parameters only.** Two queries that differ in their literals and in nothing
else are both refused with the same error, or are both compiled: to the same text in every dialect,
with the same message to the log, the same identifiers of records and parameters of the same kinds.
A parameter differs only where the literals differ that it is made of. -/
theorem literals_reach_parameters_only (table : Uuid) (columns : List Column) (now : Timestamp)
    (fresh : Nat → Uuid) {q q' : Query} (h : q.shape = q'.shape) :
    (∃ e, compile table columns now fresh q = .error e ∧
        compile table columns now fresh q' = .error e) ∨
      ∃ p p', compile table columns now fresh q = .ok p ∧
        compile table columns now fresh q' = .ok p' ∧
        (∀ d, p.sql d = p'.sql d ∧ p.logMessage d = p'.logMessage d) ∧
        p.recordIds = p'.recordIds ∧ p.params.map Param.kind = p'.params.map Param.kind ∧
        ∀ i, q.literalsAt i = q'.literalsAt i → p.params[i]? = p'.params[i]? := by
  have hshape : (compile table columns now fresh q).map Plan.shape =
      (compile table columns now fresh q').map Plan.shape := compile_shape h
  cases hp : compile table columns now fresh q with
  | error e =>
    cases hp' : compile table columns now fresh q' with
    | error e' =>
      rw [hp, hp'] at hshape
      obtain rfl := Except.error.inj hshape
      exact .inl ⟨e, rfl, rfl⟩
    | ok p' =>
      rw [hp, hp'] at hshape
      cases hshape
  | ok p =>
    cases hp' : compile table columns now fresh q' with
    | error e' =>
      rw [hp, hp'] at hshape
      cases hshape
    | ok p' =>
      rw [hp, hp'] at hshape
      have hsame : p.shape = p'.shape := Except.ok.inj hshape
      refine .inr ⟨p, p', rfl, rfl, fun d => ⟨?_, ?_⟩, ?_, ?_, fun i hi => params_congr h hp hp' hi⟩
      · rw [← p.sql_shape, hsame, p'.sql_shape]
      · rw [← p.logMessage_shape, hsame, p'.logMessage_shape]
      · rw [← p.recordIds_shape, hsame, p'.recordIds_shape]
      · rw [← p.kinds_shape, hsame, p'.kinds_shape]

/-- A literal that would end the statement, were it part of the text, among the outputs and in the
order of a select query, in place of a harmless one. -/
theorem quoted_literal_stays_a_parameter :
    let q (s : String) : Query :=
      .select ⟨[.metadata .id, .value (.str s)], none, [⟨.value (.str s), .desc⟩], 0, 10⟩
    let compiled (s : String) := compile ⟨7⟩ [] ⟨0⟩ (fun _ => ⟨0⟩) (q s)
    (q "x").shape = (q "'; DROP TABLE records; --").shape ∧
      ∃ p p', compiled "x" = .ok p ∧ compiled "'; DROP TABLE records; --" = .ok p' ∧
        (∀ d, p.sql d = p'.sql d) ∧ p.params[0]? = p'.params[0]? ∧
        p'.params[1]? = some (.literal (.str "'; DROP TABLE records; --")) := by
  intro q compiled
  refine ⟨rfl, ?_⟩
  obtain ⟨e, he, -⟩ | ⟨p, p', hp, hp', htext, -, -, hparams⟩ :=
    literals_reach_parameters_only ⟨7⟩ [] ⟨0⟩ (fun _ => ⟨0⟩)
      (show (q "x").shape = (q "'; DROP TABLE records; --").shape from rfl)
  · cases he
  · refine ⟨p, p', hp, hp', fun d => (htext d).1, hparams 0 rfl, ?_⟩
    cases hp'
    rfl

end TableStore.Query
