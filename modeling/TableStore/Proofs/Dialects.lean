import TableStore.Proofs.Literals
import TableStore.Proofs.Snippets

/-!
# One statement in two dialects

What the dialect of a statement decides. The outline of a query (`Query.outline`) is the text of its
statement with places left open for its expressions: it is made of the query alone. A statement in
a dialect is the outline with the text of each expression in its place
(`Query.SelectPlan.sql_eq_fill`), and the text that an engine has for an expression
(`Query.Snippet.text`) depends on nothing but the expression, whether it is an output, and the
number of the next placeholder.

**The dialect changes only the text of expressions** (`Query.dialects_agree`): in both dialects a
query is refused with the same error, or becomes the same outline filled in, with the same
parameters and the same answer. The clause that sorts a listing has an outline of the same kind.
-/

namespace TableStore

/-! ### Texts with places left open -/

/-- A part of a text: some characters, or the place of an expression. -/
inductive Piece (α : Type) where
  | text (t : String)
  | place (a : α)

namespace Piece

variable {α : Type} {write : α → String}

/-- The text with all places filled. -/
def fill (write : α → String) : List (Piece α) → String
  | [] => ""
  | .text t :: rest => t ++ fill write rest
  | .place a :: rest => write a ++ fill write rest

theorem fill_append (ps qs : List (Piece α)) :
    fill write (ps ++ qs) = fill write ps ++ fill write qs := by
  induction ps with
  | nil => rw [List.nil_append, fill, String.empty_append]
  | cons p ps ih => cases p <;> simp only [List.cons_append, fill, ih, String.append_assoc]

/-- Filled texts with a separator between them. -/
theorem fill_intercalate (sep : String) (pss : List (List (Piece α))) :
    fill write ([.text sep].intercalate pss) = sep.intercalate (pss.map (fill write)) := by
  induction pss with
  | nil => rfl
  | cons ps pss ih =>
    cases pss with
    | nil => simp
    | cons qs pss =>
      rw [List.intercalate_cons_cons, fill_append, fill_append, ih, fill, fill, String.append_empty]
      simp only [List.map_cons, String.intercalate_cons_cons]

end Piece

namespace Query

open Sql (Engine)

variable {table : Uuid} {columns : List Column} {now : Timestamp} {fresh : Nat → Uuid}
  {engine : Engine}

/-! ### Outlines -/

/-- An expression at its place in a statement: whether it is an output, and the number of the next
placeholder. -/
structure Snippet where
  isOutput : Bool
  expr : Expr
  next : Nat

/-- The text of an expression at its place. Expressions that are never compiled have none. -/
def Snippet.text (engine : Engine) (s : Snippet) : String :=
  match s.expr with
  | .metadata .id => engine.identifierText
  | .metadata .createdAt => if s.isOutput then engine.timeText else "records.created_at"
  | .column id => engine.cellText id.text
  | .value _ => placeholder s.next
  | _ => ""

/-- The places of expressions that follow each other. -/
def snippets (isOutput : Bool) : Nat → List Expr → List Snippet
  | _, [] => []
  | next, e :: rest =>
    ⟨isOutput, e, next⟩ :: snippets isOutput (next + e.literal?.toList.length) rest

/-- Outputs, each under its name. -/
def outputParts (outputs : List Snippet) : List (Piece Snippet) :=
  [.text ", "].intercalate
    (outputs.mapIdx fun position s => [.place s, .text (" AS " ++ outputName position)])

/-- Sort terms with their directions; there is no clause without terms. -/
def orderParts (keys : List SortExpr) (terms : List Snippet) : List (Piece Snippet) :=
  if keys.isEmpty then []
  else
    .text " ORDER BY " ::
      [.text ", "].intercalate
        (List.zipWith (fun s key => [.place s, .text (" " ++ key.direction.keyword)]) terms keys)

/-- The statement of a select with its outputs and its sort terms left open. -/
def Select.outline (q : Select) : List (Piece Snippet) :=
  let afterOutputs := 2 + (q.columns.filterMap Expr.literal?).length
  [.text "SELECT "] ++ outputParts (snippets true 2 q.columns) ++
    [.text " FROM records WHERE records.table_id = $1"] ++
    orderParts q.orderBy (snippets false afterOutputs (q.orderBy.map SortExpr.expr)) ++
    [.text (" LIMIT " ++ toString q.limit ++ " OFFSET " ++ toString q.offset)]

/-- The statement of an insertion, which has no expressions. -/
def Insert.outline (q : Insert) : List (Piece Snippet) :=
  [.text ("INSERT INTO records (id, table_id, data, created_at, updated_at) VALUES " ++
    ", ".intercalate ((List.range q.rows.length).map InsertPlan.tuple))]

/-- The statement of a query with its expressions left open. -/
def outline : Query → List (Piece Snippet)
  | .insert q => q.outline
  | .select q => q.outline
  | .update | .delete => []

/-! ### Statements of an engine -/

/-- What a statement is known to answer: rows of a width, or the identifiers of new records. -/
inductive Answer where
  | rows (width : Nat)
  | stored (ids : List Uuid)
deriving DecidableEq

def Plan.answer : Plan → Answer
  | .insert p => .stored p.recordIds
  | .select p => .rows p.width

/-- A statement as it is sent to an engine. -/
structure Statement where
  sql : String
  params : List Param
  answer : Answer
deriving DecidableEq

/-- The statement of a query in a dialect. -/
def statement (d : Sql.Dialect) (table : Uuid) (columns : List Column) (now : Timestamp)
    (fresh : Nat → Uuid) (q : Query) : Except QueryError Statement :=
  (compile table columns now fresh q).map fun p => ⟨p.sql d, p.params, p.answer⟩

/-! ### Texts of expressions -/

/-- The text of a term is that of its expression. -/
theorem sql_of_compileExpr {n : Nat} {e : Expr} {term : Term} {own : List Json}
    (h : compileExpr columns n e = .ok (term, own)) :
    term.sql engine.dialect = Snippet.text engine ⟨false, e, n⟩ := by
  cases e with
  | metadata field =>
    cases field with
    | id =>
      cases h
      exact Term.sql_recordId engine
    | createdAt =>
      cases h
      rfl
  | column id =>
    obtain ⟨type, -, heq⟩ := map_ok h
    cases heq
    exact Term.sql_cell engine id type
  | value literal =>
    cases h
    rfl
  | func name args => cases h
  | binary op left right => cases h
  | unary op operand => cases h

theorem sql_of_compileOutput {n : Nat} {e : Expr} {term : Term} {own : List Json}
    (h : compileOutput columns n e = .ok (term, own)) :
    term.sql engine.dialect = Snippet.text engine ⟨true, e, n⟩ := by
  by_cases he : e = .metadata .createdAt
  · subst he
    cases h
    exact Term.sql_createdAtText engine
  · rw [compileOutput_of_ne n he] at h
    rw [sql_of_compileExpr h]
    -- being an output matters for the time of creation only
    cases e with
    | metadata field =>
      cases field with
      | id => rfl
      | createdAt => exact absurd rfl he
    | _ => rfl

/-- The places of expressions are numbered as their literals are. -/
theorem sql_of_compileEach {compile : Nat → Expr → Except QueryError (Term × List Json)}
    {isOutput : Bool}
    (hsql : ∀ n e term own, compile n e = .ok (term, own) →
      term.sql engine.dialect = Snippet.text engine ⟨isOutput, e, n⟩)
    (hliteral : ∀ n e term own, compile n e = .ok (term, own) → own = e.literal?.toList)
    {next : Nat} {es : List Expr} {terms : List Term} {literals : List Json}
    (h : compileEach compile next es = .ok (terms, literals)) :
    terms.map (Term.sql engine.dialect) =
      (snippets isOutput next es).map (Snippet.text engine) := by
  induction es generalizing next terms literals with
  | nil =>
    cases h
    rfl
  | cons e rest ih =>
    rw [compileEach] at h
    obtain ⟨⟨term, own⟩, hfirst, h⟩ := bind_ok h
    obtain ⟨⟨others, more⟩, hrest, h⟩ := bind_ok h
    obtain ⟨rfl, rfl⟩ := Prod.mk.inj (Except.ok.inj h)
    obtain rfl := hliteral _ _ _ _ hfirst
    rw [snippets, List.map_cons, List.map_cons, hsql _ _ _ _ hfirst, ih hrest]

/-! ### Statements are outlines filled in -/

theorem fill_outputParts (write : Snippet → String) (ss : List Snippet) :
    Piece.fill write (outputParts ss) =
      ", ".intercalate ((ss.map write).mapIdx fun i text => text ++ " AS " ++ outputName i) := by
  have hparts : (ss.mapIdx fun i s => [Piece.place s, .text (" AS " ++ outputName i)]).map
      (Piece.fill write) = (ss.map write).mapIdx fun i text => text ++ " AS " ++ outputName i := by
    rw [List.mapIdx_eq_zipIdx_map, List.mapIdx_eq_zipIdx_map, List.zipIdx_map, List.map_map,
      List.map_map]
    refine List.map_congr_left fun p _ => ?_
    simp [Piece.fill, String.append_assoc]
  rw [outputParts, Piece.fill_intercalate, hparts]

theorem fill_orderParts (write : Snippet → String) (keys : List SortExpr) (ss : List Snippet) :
    Piece.fill write (orderParts keys ss) =
      if keys.isEmpty then ""
      else " ORDER BY " ++ ", ".intercalate
        (List.zipWith (fun text s => text ++ " " ++ s.direction.keyword) (ss.map write) keys) := by
  rw [orderParts]
  split
  · rfl
  · rw [Piece.fill, Piece.fill_intercalate, List.map_zipWith, List.zipWith_map_left]
    simp only [Piece.fill, String.append_empty, String.append_assoc]

/-- **A select is its outline filled in.** -/
theorem SelectPlan.sql_eq_fill {q : Select} {plan : SelectPlan}
    (h : compileSelect table columns q = .ok plan) :
    plan.sql engine.dialect = Piece.fill (Snippet.text engine) q.outline := by
  obtain ⟨-, -, outputs, literals, order, more, houtputs, horder, rfl⟩ := compileSelect_ok h
  have hlength : order.length = q.orderBy.length := by
    simpa using (compileEach_ok horder).length_eq.symm
  have hliterals : literals = q.columns.filterMap Expr.literal? :=
    compileEach_literals (fun _ _ _ _ => compileOutput_literal) houtputs
  have hempty : (order.map (Term.sql engine.dialect)).isEmpty = q.orderBy.isEmpty := by
    rw [Bool.eq_iff_iff, List.isEmpty_iff_length_eq_zero, List.isEmpty_iff_length_eq_zero,
      List.length_map, hlength]
  have houtputTexts : outputs.map (Term.sql engine.dialect) =
      (snippets true 2 q.columns).map (Snippet.text engine) :=
    sql_of_compileEach (fun _ _ _ _ => sql_of_compileOutput)
      (fun _ _ _ _ => compileOutput_literal) houtputs
  have htermTexts : order.map (Term.sql engine.dialect) =
      (snippets false (2 + literals.length) (q.orderBy.map SortExpr.expr)).map
        (Snippet.text engine) :=
    sql_of_compileEach (fun _ _ _ _ => sql_of_compileExpr)
      (fun _ _ _ _ => compileExpr_literal) horder
  rw [SelectPlan.sql_eq hlength, hempty, houtputTexts, htermTexts, hliterals, Select.outline]
  simp only [Piece.fill_append, fill_outputParts, fill_orderParts, Piece.fill, String.append_empty,
    String.append_assoc]

/-- **An insertion is its outline**, which leaves no places. -/
theorem InsertPlan.sql_eq_fill {q : Insert} {plan : InsertPlan}
    (h : compileInsert table columns now fresh q = .ok plan) (write : Snippet → String) :
    plan.sql = Piece.fill write q.outline := by
  unfold InsertPlan.sql
  rw [length_records h, Insert.outline, Piece.fill, Piece.fill, String.append_empty]

end Query

/-! ### Clauses that sort -/

namespace SortKey

/-- The clause that sorts by keys with their fields left open. -/
def outline (keys : List SortKey) : List (Piece SortField) :=
  .text "ORDER BY " ::
    [.text ", "].intercalate
      (keys.map fun k => [.place k.field, .text (" " ++ k.direction.keyword)])

theorem orderByClause_eq_fill (d : Sql.Dialect) (qualifier : String) (keys : List SortKey) :
    orderByClause d qualifier keys =
      Piece.fill (SortField.expression d qualifier) (outline (effectiveKeys keys)) := by
  rw [outline, Piece.fill, Piece.fill_intercalate, List.map_map, orderByClause]
  congr 3
  refine funext fun k => ?_
  simp [term, Piece.fill, String.append_assoc]

end SortKey

/-! ### Agreement -/

namespace Query

open Sql (Engine)

variable {table : Uuid} {columns : List Column} {now : Timestamp} {fresh : Nat → Uuid}

/-- The statement of a plan is the outline of its query, filled in. -/
theorem statement_of_compile {engine : Engine} {q : Query} {plan : Plan}
    (h : compile table columns now fresh q = .ok plan) :
    statement engine.dialect table columns now fresh q =
      .ok ⟨Piece.fill (Snippet.text engine) q.outline, plan.params, plan.answer⟩ := by
  have hsql : plan.sql engine.dialect = Piece.fill (Snippet.text engine) q.outline := by
    cases plan with
    | insert plan =>
      obtain ⟨q, rfl, hinsert⟩ := compile_insert_ok h
      exact InsertPlan.sql_eq_fill hinsert _
    | select plan =>
      obtain ⟨q, rfl, hselect⟩ := compile_select_ok h
      exact SelectPlan.sql_eq_fill hselect
  rw [statement, h, ← hsql]
  rfl

/-- A query is refused in both dialects, or becomes its outline with the expressions filled in. -/
theorem statements_agree (table : Uuid) (columns : List Column) (now : Timestamp)
    (fresh : Nat → Uuid) (q : Query) :
    (∃ e, ∀ engine : Engine,
        statement engine.dialect table columns now fresh q = .error e) ∨
      ∃ params answer, ∀ engine : Engine,
        statement engine.dialect table columns now fresh q =
          .ok ⟨Piece.fill (Snippet.text engine) q.outline, params, answer⟩ := by
  cases hplan : compile table columns now fresh q with
  | error e => exact .inl ⟨e, fun engine => by rw [statement, hplan]; rfl⟩
  | ok plan => exact .inr ⟨plan.params, plan.answer, fun engine => statement_of_compile hplan⟩

/-- There is nothing to fill in where records are inserted. -/
theorem statement_insert (engine engine' : Engine) (q : Insert) :
    statement engine.dialect table columns now fresh (.insert q) =
      statement engine'.dialect table columns now fresh (.insert q) := by
  rcases statements_agree table columns now fresh (.insert q) with ⟨e, he⟩ | ⟨params, answer, hok⟩
  · rw [he, he]
  · rw [hok, hok, outline, Insert.outline]
    simp only [Piece.fill]

/-- **The dialect changes only the text of expressions.** A query is refused with the same error in
both dialects, or its statements are one outline with the expressions filled in, which is made of
the query alone, with the same parameters and the same answer. An insertion is the same text.
Clauses that sort a listing are one outline too, with the same fields and directions. -/
theorem dialects_agree (table : Uuid) (columns : List Column) (now : Timestamp)
    (fresh : Nat → Uuid) (q : Query) :
    ((∃ e, ∀ engine : Engine,
          statement engine.dialect table columns now fresh q = .error e) ∨
        ∃ params answer, ∀ engine : Engine,
          statement engine.dialect table columns now fresh q =
            .ok ⟨Piece.fill (Snippet.text engine) q.outline, params, answer⟩) ∧
      (∀ i, q = .insert i → statement Engine.embedded.dialect table columns now fresh q =
        statement Engine.server.dialect table columns now fresh q) ∧
      ∀ (engine : Engine) (qualifier : String) (keys : List SortKey),
        SortKey.orderByClause engine.dialect qualifier keys =
          Piece.fill (SortField.expression engine.dialect qualifier)
            (SortKey.outline (SortKey.effectiveKeys keys)) := by
  refine ⟨statements_agree table columns now fresh q, ?_,
    fun engine => SortKey.orderByClause_eq_fill engine.dialect⟩
  rintro i rfl
  exact statement_insert .embedded .server i

end Query
end TableStore
