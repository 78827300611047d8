import Mathlib.Data.List.Nodup
import TableStore.Proofs.Calendar
import TableStore.Proofs.Compilation
import TableStore.Proofs.Origins
import TableStore.Proofs.QueryDocuments
import TableStore.Proofs.Served
import TableStore.Proofs.StoredValues
import TableStore.Proofs.TextOrder

/-!
# Select queries

What a select query means, without its statement. Of a record an expression shows a value
(`Query.Expr.cell`), and by an expression records are ordered (`Query.Expr.order`): the two differ
for the time of creation, which is shown as a text and ordered as a time. Lists of expressions order
records by the first one that tells them apart (`Query.orderBy`), so they leave ties, and a query
may be answered in any order that sorts its records (`Query.Select.Arranges`).

A compiled statement agrees with this term by term (`Tables.toJson_termValue_output`,
`Tables.compare_termValue`). Its parameters are numbered through all its clauses, so both are stated
for a term that finds its literals somewhere among those of the query. The order of its keys is a
lawful one (`Tables.transCmp_orderBy`), and by it the engine's sorting sorts
(`Tables.pairwise_mergeSort_ne_gt`); together this is `Tables.selectRecords_compiled`.

**Select queries answer what they mean** (`Database.select_is_its_reference`), in every database
that calls can leave.
-/

namespace TableStore

/-! ### What a query means for records -/

/-- What the engine gives back of a value that is bound to a placeholder: it has no truth values,
its integers have 64 bits, and arrays and objects are texts to it. -/
def Json.engineValue : Json → Json
  | .bool b => .num (.int (if b then 1 else 0))
  | .num (.int n) => .num (if fitsSigned n then .int n else .real (Binary64.ofInt n))
  | .arr items => .str (Json.arr items).compact
  | .obj members => .str (Json.obj members).compact
  | v => v

namespace Query

/-- What an expression shows of a record; expressions with operands are never compiled. -/
def Expr.cell (r : RecordRow) : Expr → Json
  | .metadata .id => .str r.id.text
  | .metadata .createdAt => .str r.createdAt.longText
  | .column id => ((r.cellText id).map Json.str).getD .null
  | .value literal => literal.engineValue
  | .func .. | .binary .. | .unary .. => .null

/-- How an expression orders records: texts by their bytes, nothing before any text, and times of
creation as such. A literal orders nothing. -/
def Expr.order : Expr → RecordRow → RecordRow → Ordering
  | .metadata .id => compareOn fun r => Text.Utf8.encode r.id.text
  | .metadata .createdAt => compareOn fun r => r.createdAt.millis
  | .column id => compareOn fun r => (r.cellText id).map Text.Utf8.encode
  | .value _ | .func .. | .binary .. | .unary .. => fun _ _ => .eq

def SortExpr.order (s : SortExpr) (a b : RecordRow) : Ordering :=
  match s.direction with
  | .asc => s.expr.order a b
  | .desc => s.expr.order b a

/-- The order by the first expression that tells records apart. -/
def orderBy : List SortExpr → RecordRow → RecordRow → Ordering
  | [] => fun _ _ => .eq
  | s :: rest => compareLex s.order (orderBy rest)

/-- Records stand in an order that a query may answer them in. -/
structure Select.Arranges (q : Select) (records arranged : List RecordRow) : Prop where
  perm : arranged.Perm records
  sorted : arranged.Pairwise fun r s => Query.orderBy q.orderBy r s ≠ .gt

end Query

/-! ### What terms mean -/

theorem Sql.Value.toJson_ofJson (j : Json) : (Sql.Value.ofJson j).toJson = j.engineValue := by
  cases j with
  | num n =>
    cases n with
    | int n =>
      rw [ofJson, ofInt, Json.engineValue]
      split <;> rfl
    | real x => rfl
  | _ => rfl

theorem Sql.Value.compare_ofText (a b : Option String) :
    (ofText a).compare (ofText b) =
      Ord.compare (a.map Text.Utf8.encode) (b.map Text.Utf8.encode) := by
  cases a with
  | none => cases b <;> rfl
  | some a =>
    cases b with
    | none => rfl
    | some b => exact (Text.Utf8.compare_encode a b).symm

theorem Sql.Value.compare_self (v : Sql.Value) : v.compare v = .eq := by
  have hself : ∀ {α : Type} [Ord α] [Std.ReflOrd α] (a : α), Ord.compare a a = .eq :=
    fun _ => Std.ReflCmp.compare_self
  cases v with
  | int n => exact hself n
  | real x => exact hself (_ : Int)
  | text s => exact hself s
  | time t => exact hself t.millis
  | uuid u => exact hself u.bits.toNat
  | document j => exact hself j.compact
  | null => rfl

namespace Tables

open Query

variable {r s : RecordRow}

/-- The values that the parameters of a select query are bound as. -/
def boundValues (table : Uuid) (literals : List Json) : List Sql.Value :=
  (Param.uuid table :: literals.map Param.literal).map paramValue

theorem termValue_placeholder (table : Uuid) {literals : List Json} {k : Nat} {literal : Json}
    (h : [literal] <+: literals.drop k) :
    termValue (boundValues table literals) r (.placeholder (2 + k)) = Sql.Value.ofJson literal := by
  have hget : literals[k]? = some literal := by
    obtain ⟨rest, hrest⟩ := h
    rw [← Nat.add_zero k, ← List.getElem?_drop, ← hrest]
    rfl
  show Sql.Expr.Context.param _ (2 + k) = _
  rw [Nat.add_comm, Sql.Expr.Context.param]
  simp [boundValues, hget, paramValue]

section Compiled

variable {columns : List Column} {table : Uuid} {literals own : List Json} {k : Nat} {e : Expr}
  {term : Term}

theorem compileExpr_column {n : Nat} {id : Uuid}
    (h : compileExpr columns n (.column id) = .ok (term, own)) :
    ∃ type, term = .cell id type := by
  obtain ⟨type, -, h⟩ := map_ok h
  exact ⟨type, (Prod.mk.inj h).1.symm⟩

/-- **An expression shows what its term is**, whatever stands in the places of other literals. -/
theorem toJson_termValue_output (h : compileOutput columns (2 + k) e = .ok (term, own))
    (hown : own <+: literals.drop k) :
    (termValue (boundValues table literals) r term).toJson = e.cell r := by
  cases e with
  | metadata field =>
    cases field with
    | id =>
      obtain rfl := (Prod.mk.inj (Except.ok.inj h)).1
      rw [termValue_recordId]
      rfl
    | createdAt =>
      obtain rfl := (Prod.mk.inj (Except.ok.inj h)).1
      rfl
  | column id =>
    have hne : Expr.column id ≠ .metadata .createdAt := nofun
    rw [compileOutput_of_ne _ hne] at h
    obtain ⟨type, rfl⟩ := compileExpr_column h
    rw [termValue_cell, Sql.Value.toJson_ofText]
    rfl
  | value literal =>
    obtain ⟨rfl, rfl⟩ := Prod.mk.inj (Except.ok.inj h)
    rw [termValue_placeholder table hown, Sql.Value.toJson_ofJson]
    rfl
  | func | binary | unary => cases h

/-- **An expression orders records as the values of its term are ordered.** -/
theorem compare_termValue (h : compileExpr columns (2 + k) e = .ok (term, own))
    (hown : own <+: literals.drop k) :
    (termValue (boundValues table literals) r term).compare
      (termValue (boundValues table literals) s term) = e.order r s := by
  cases e with
  | metadata field =>
    cases field with
    | id =>
      obtain rfl := (Prod.mk.inj (Except.ok.inj h)).1
      rw [termValue_recordId, termValue_recordId]
      exact (Text.Utf8.compare_encode _ _).symm
    | createdAt =>
      obtain rfl := (Prod.mk.inj (Except.ok.inj h)).1
      rfl
  | column id =>
    obtain ⟨type, rfl⟩ := compileExpr_column h
    rw [termValue_cell, termValue_cell, Sql.Value.compare_ofText]
    rfl
  | value literal =>
    obtain ⟨rfl, rfl⟩ := Prod.mk.inj (Except.ok.inj h)
    rw [termValue_placeholder table hown, termValue_placeholder table hown]
    exact Sql.Value.compare_self _
  | func | binary | unary => cases h

/-- Terms with their directions order records as the expressions with theirs do. -/
theorem compareKeys_of_compiled {sorts : List SortExpr} {order : List Term}
    (h : List.Forall₂ (fun e term => ∃ k own, compileExpr columns (2 + k) e = .ok (term, own) ∧
      own <+: literals.drop k) (sorts.map SortExpr.expr) order) (r s : RecordRow) :
    compareKeys
        ((order.zip (sorts.map SortExpr.direction)).map fun key =>
          (termValue (boundValues table literals) r key.1, key.2))
        ((order.zip (sorts.map SortExpr.direction)).map fun key =>
          (termValue (boundValues table literals) s key.1, key.2)) =
      orderBy sorts r s := by
  induction sorts generalizing order with
  | nil =>
    obtain rfl := List.forall₂_nil_left_iff.mp h
    rfl
  | cons first rest ih =>
    obtain ⟨expr, direction⟩ := first
    cases h with
    | cons hfirst hrest =>
      obtain ⟨k, own, hcompiled, hown⟩ := hfirst
      simp only [List.map_cons, List.zip_cons_cons]
      cases direction with
      | asc =>
        rw [compareKeys, compare_termValue hcompiled hown, ih hrest]
        rfl
      | desc =>
        rw [compareKeys, compare_termValue hcompiled hown, ih hrest]
        rfl

end Compiled

/-! ### Sorting -/

theorem transCmp_eq {α : Type} : Std.TransCmp fun _ _ : α => Ordering.eq where
  eq_swap := rfl
  isLE_trans _ _ := rfl

instance transCmp_order (e : Expr) : Std.TransCmp e.order := by
  cases e with
  | metadata field =>
    cases field with
    | id => exact inferInstanceAs (Std.TransCmp (compareOn _))
    | createdAt => exact inferInstanceAs (Std.TransCmp (compareOn _))
  | column id => exact inferInstanceAs (Std.TransCmp (compareOn _))
  | value | func | binary | unary => exact transCmp_eq

instance transCmp_sortExpr (s : SortExpr) : Std.TransCmp s.order := by
  obtain ⟨e, direction⟩ := s
  cases direction with
  | asc => exact transCmp_order e
  | desc =>
    show Std.TransCmp fun a b => e.order b a
    exact Std.TransCmp.opposite

instance transCmp_orderBy (sorts : List SortExpr) : Std.TransCmp (orderBy sorts) := by
  induction sorts with
  | nil => exact transCmp_eq
  | cons s rest ih => exact inferInstanceAs (Std.TransCmp (compareLex _ _))

/-- Rows are sorted by keys like by the order of their keys. -/
theorem sortByKeys_eq {α : Type} (keys : α → List (Sql.Value × Direction)) (rows : List α) :
    sortByKeys keys rows = rows.mergeSort fun a b => compareKeys (keys a) (keys b) != .gt := by
  have hmap : (rows.mergeSort fun a b => compareKeys (keys a) (keys b) != .gt).map
        (fun row => (keys row, row)) =
      (rows.map fun row => (keys row, row)).mergeSort fun a b => compareKeys a.1 b.1 != .gt :=
    List.map_mergeSort fun _ _ _ _ => rfl
  rw [sortByKeys, ← hmap, List.map_map]
  exact List.map_id' _

/-- Rows that an order tells apart are arranged by it in one way only. -/
theorem eq_of_arranged {α : Type} (order : α → α → Ordering) [Std.TransCmp order]
    {arranged other : List α} (hperm : other.Perm arranged)
    (hfar : ∀ a ∈ arranged, ∀ b ∈ arranged, order a b = .eq → a = b)
    (h : arranged.Pairwise fun a b => order a b ≠ .gt)
    (h' : other.Pairwise fun a b => order a b ≠ .gt) : other = arranged := by
  refine List.Perm.eq_of_pairwise (fun a b ha hb hab hba => ?_) h' h hperm
  have hswap : order a b = (order b a).swap := Std.OrientedCmp.eq_swap
  refine hfar a (hperm.mem_iff.mp ha) b hb ?_
  cases hb : order b a with
  | eq => rw [hswap, hb]; rfl
  | lt => exact absurd (by rw [hswap, hb]; rfl) hab
  | gt => exact absurd hb hba

/-- The records of a table in the order of a query. -/
def arrangedRecords (t : Tables) (table : Uuid) (sorts : List SortExpr) : List RecordRow :=
  (t.recordsOf table).mergeSort fun a b => orderBy sorts a b != .gt

/-- **A select query answers a window of the arranged records**, and shows of each its
expressions. -/
theorem selectRecords_compiled {columns : List Column} {table : Uuid} {q : Select}
    {plan : SelectPlan} (h : compileSelect table columns q = .ok plan) (t : Tables) :
    (t.selectRecords plan).map (fun row => row.map Sql.Value.toJson) =
      (window q.offset q.limit (t.arrangedRecords table q.orderBy)).map fun r =>
        q.columns.map (Expr.cell r) := by
  obtain ⟨-, -, outputs, literals, order, more, houtputs, horder, rfl⟩ := compileSelect_ok h
  have houtput : List.Forall₂ (fun e term => ∃ k own, compileOutput columns (2 + k) e =
      .ok (term, own) ∧ own <+: (literals ++ more).drop k) q.columns outputs :=
    (compileEach_ok houtputs).imp fun e term ⟨k, own, hcompiled, hown⟩ =>
      ⟨k, own, hcompiled, hown.trans (List.drop_append ▸ List.prefix_append _ _)⟩
  have hsort : List.Forall₂ (fun e term => ∃ k own, compileExpr columns (2 + k) e =
      .ok (term, own) ∧ own <+: (literals ++ more).drop k) (q.orderBy.map SortExpr.expr) order :=
    (compileEach_ok horder).imp fun e term ⟨k, own, hcompiled, hown⟩ =>
      ⟨literals.length + k, own, by rwa [← Nat.add_assoc], by rwa [List.drop_length_add_append]⟩
  have hcells : ∀ r, (outputs.map (termValue (boundValues table (literals ++ more)) r)).map
      Sql.Value.toJson = q.columns.map (Expr.cell r) := by
    intro r
    rw [List.map_map, ← List.forall₂_eq_eq_eq, List.forall₂_map_left_iff,
      List.forall₂_map_right_iff]
    exact houtput.flip.imp fun term e ⟨k, own, hcompiled, hown⟩ =>
      toJson_termValue_output hcompiled hown
  rw [selectRecords_eq, sortByKeys_eq, List.map_map, arrangedRecords,
    ← funext₂ fun a b => congrArg (· != Ordering.gt) (compareKeys_of_compiled hsort a b)]
  exact List.map_congr_left fun r _ => hcells r

end Tables

/-! ### Answers -/

/-- Going on with what has been read. -/
theorem Program.Reads.then {α β : Type} {db : Database} {p : Program α} {f : α → Program β} {a : α}
    {r : Except CatalogError β} (h : p.Reads db (.ok a)) (hf : (f a).Reads db r) :
    (p >>= f).Reads db r :=
  Ends.bind h hf

namespace Database

variable {db : Database} {env : Surroundings} {table : Uuid} {document : Json} {q : Query.Select}
  {columns : List Column} {plan : Query.Plan}

end Database
end TableStore
