import TableStore.Proofs.Complaints

/-!
# Well-formed parts

What the decoder wants of a part in a role, by the grammar of query documents
(`Query.Role.WellFormed`). The complaints about a part are collected without the grammar
(`Query.Role.complaints`); there are none exactly if the part is well-formed
(`Query.Role.complaints_eq_nil`), since the reader of the part reports the first of them and reads
exactly the forms of the grammar.
-/

namespace TableStore.Query

open Json (Address Step)

variable {limits : Limits} {address : Address} {role : Role} {j : Json} {α : Type}

/-- A part of a window: a number, or `null` for the default; it is not too large. -/
def WindowForm (default max : Nat) (j : Json) (n : Nat) : Prop :=
  (j = .null ∧ n = default ∨ NaturalForm j n) ∧ n ≤ max

/-- The part is a form of what the decoder wants in the role. What stands under the key of an
expression is wanted to be an expression together with the key; under a key of which no expression
is known, nothing is wanted. -/
def Role.WellFormed (limits : Limits) (j : Json) : Role → Prop
  | .document => ∃ q, QueryForm limits j q
  | .insert => ∃ q, ObjectForm InsertForm j q
  | .select => ∃ q, ObjectForm (SelectForm limits) j q
  | .bare => ∃ members, j = .obj members
  | .columnRefs => ∃ ids, ArrayForm ColumnForm j ids
  | .columnRef => ∃ id, ColumnForm j id
  | .rows => ∃ rows, ArrayForm (ArrayForm LiteralForm) j rows ∧ rows ≠ []
  | .row => ∃ row, ArrayForm LiteralForm j row
  | .cell => ∃ literal, LiteralForm j literal
  | .outputs => ∃ es, ArrayForm ExprForm j es ∧ es ≠ []
  | .filter => j = .null ∨ ∃ e, ExprForm j e
  | .sorts => j = .null ∨ ∃ order, ArrayForm (ObjectForm SortForm) j order
  | .sort => ∃ s, ObjectForm SortForm j s
  | .direction => j = .null ∨ ∃ d, DirectionForm j d
  | .offset => ∃ n, WindowForm 0 maxOffset j n
  | .limit => ∃ n, WindowForm limits.default limits.max j n
  | .expr => ∃ e, ExprForm j e
  | .metadata => ∃ e, ExprForm (.obj [("metadata", j)]) e
  | .column => ∃ e, ExprForm (.obj [("column", j)]) e
  | .literal => True
  | .func => ∃ e, ExprForm (.obj [("func", j)]) e
  | .name => ∃ text, j = .str text
  | .args => ∃ es, ArrayForm ExprForm j es
  | .operands => ∃ (op : BinaryOp) (e : Expr), ExprForm (.obj [(op.name, j)]) e
  | .unknown _ => False

/-! ### Complaints of single parts -/

/-- Where a reader reads exactly the forms, there are no complaints about forms, and about nothing
else. -/
theorem complaints_of_reader {read : Decoded α} {form : α → Prop} {E : QueryError → Prop}
    (hread : ReportsFirst read (role.errors limits address j)) (hmeets : Meets read form E)
    (hof : ∀ a, form a → read = .ok a) : role.complaints limits j = [] ↔ ∃ a, form a := by
  have herrors : role.errors limits address j = [] ↔ role.complaints limits j = [] :=
    List.map_eq_nil_iff
  rw [← herrors, ← hread.ok_iff]
  constructor
  · rintro ⟨a, rfl⟩
    exact ⟨a, hmeets⟩
  · rintro ⟨a, h⟩
    exact ⟨a, hof a h⟩

theorem complaints_expr : Role.expr.complaints limits j = [] ↔ ∃ e, ExprForm j e :=
  complaints_of_reader (decodeExpr_reportsFirst [] j) (meets_decodeExpr [] j)
    fun _ h => h.decodes []

/-- What stands under a key is without complaints if it is an expression together with the key. -/
theorem complaints_ofKey (key : String) :
    (Role.ofKey key).complaints limits j = [] ↔ ∃ e, ExprForm (.obj [(key, j)]) e := by
  have hexpr : Role.expr.complaints limits (.obj [(key, j)]) =
      ((Role.ofKey key).complaints limits j).map fun x => (.key key :: x.1, x.2) := by
    have hstep : (Json.obj [(key, j)]).step? (.key key) = some j := if_pos rfl
    have hvisits : Role.expr.visits limits (.obj [(key, j)]) =
        [.part (.key key) (.ofKey key)] := rfl
    rw [Role.complaints_eq, hvisits, List.flatMap_singleton, Visit.complaints, hstep]
    rfl
  have hpayload : Role.expr.complaints limits (.obj [(key, j)]) = [] ↔
      (Role.ofKey key).complaints limits j = [] := by
    rw [hexpr, List.map_eq_nil_iff]
  exact hpayload.symm.trans complaints_expr

theorem complaints_check {passed : Bool} {f : Fault} :
    (check passed f).flatMap (Visit.complaints limits j) = [] ↔ passed = true := by
  cases passed with
  | true => exact ⟨fun _ => rfl, fun _ => rfl⟩
  | false => exact ⟨fun h => (by cases h), fun h => (by cases h)⟩

theorem complaints_windowVisits {window : Window} {default max : Nat} :
    (windowVisits window default max j).flatMap (Visit.complaints limits j) = [] ↔
      ∃ n, WindowForm default max j n := by
  have hbound (n : Nat) : (if max < n then [Visit.complain (.tooLarge window n max)]
      else []).flatMap (Visit.complaints limits j) = [] ↔ n ≤ max := by
    split
    case isTrue h => exact ⟨fun h => (by cases h), fun hle => absurd h (Nat.not_lt.mpr hle)⟩
    case isFalse h => exact ⟨fun _ => Nat.not_lt.mp h, fun _ => rfl⟩
  have hform (n : Nat) : WindowForm default max j n ↔
      (if j.isNull then some default else j.natural?) = some n ∧ n ≤ max := by
    refine and_congr_left fun _ => ?_
    cases j with
    | null => simp [NaturalForm, Json.isNull, Json.ofNat, eq_comm]
    | num x =>
      rcases x with (k | k) | x
      · simp only [NaturalForm, Json.isNull, Json.ofNat, Json.natural?, Json.num.injEq,
          JsonNumber.int.injEq, Int.ofNat_eq_natCast, Int.natCast_inj, Option.some_inj,
          reduceCtorEq, false_and, false_or, Bool.false_eq_true, if_false]
      · simp [NaturalForm, Json.isNull, Json.ofNat, Json.natural?]
      · simp [NaturalForm, Json.isNull, Json.ofNat, Json.natural?]
    | _ => simp [NaturalForm, Json.isNull, Json.ofNat, Json.natural?]
  simp only [hform]
  rw [windowVisits]
  cases if j.isNull then some default else j.natural? with
  | none => exact ⟨fun h => (by cases h), by simp⟩
  | some n => simpa using hbound n

/-! ### Complaints of arrays -/

theorem forall_exists_iff_forall₂ {β : Type} {form : β → α → Prop} {items : List β} :
    (∀ item ∈ items, ∃ a, form item a) ↔ ∃ values, List.Forall₂ form items values := by
  induction items with
  | nil => exact ⟨fun _ => ⟨[], .nil⟩, fun _ => by simp⟩
  | cons item rest ih =>
    rw [List.forall_mem_cons, ih]
    constructor
    · rintro ⟨⟨a, ha⟩, values, hvalues⟩
      exact ⟨a :: values, .cons ha hvalues⟩
    · rintro ⟨_, h⟩
      obtain ⟨a, values, ha, hvalues, rfl⟩ := List.forall₂_cons_left_iff.mp h
      exact ⟨⟨a, ha⟩, values, hvalues⟩

/-- An array is without complaints if its items are. -/
theorem complaints_itemVisits {item : Role} {form : Json → α → Prop}
    (h : ∀ j, item.complaints limits j = [] ↔ ∃ a, form j a) :
    (itemVisits item j).flatMap (Visit.complaints limits j) = [] ↔
      ∃ values, ArrayForm form j values := by
  cases j with
  | arr items =>
    have hcount : (Json.arr items).count? = some items.length := rfl
    have hvisit (i : Nat) : Visit.complaints limits (.arr items) (.part (.index i) item) = [] ↔
        ∀ part, items[i]? = some part → ∃ a, form part a := by
      have hstep : (Json.arr items).step? (.index i) = items[i]? := rfl
      rw [Visit.complaints, hstep]
      cases items[i]? with
      | none => exact ⟨fun _ => by simp, fun _ => rfl⟩
      | some part => simp [h]
    have harray : (∃ values, ArrayForm form (.arr items) values) ↔
        ∃ values, List.Forall₂ form items values := by
      simp [ArrayForm]
    rw [harray, ← forall_exists_iff_forall₂, itemVisits, hcount]
    simp only [List.flatMap_map, List.flatMap_eq_nil_iff, hvisit, List.mem_range]
    constructor
    · intro hall part hmem
      obtain ⟨i, hi⟩ := List.getElem?_of_mem hmem
      exact hall i (List.getElem?_eq_some_iff.mp hi).1 part hi
    · intro hall i _ part hi
      exact hall part (List.mem_of_getElem? hi)
  | _ =>
    refine ⟨fun h => (by cases h), fun h => ?_⟩
    obtain ⟨_, _, hj, _⟩ := h
    cases hj

/-- The same of an array that has to have items. -/
theorem complaints_some_items {item : Role} {form : Json → α → Prop} {f : Fault}
    (h : ∀ j, item.complaints limits j = [] ↔ ∃ a, form j a) :
    (if j.count? = some 0 then [.complain (.fault f)] else itemVisits item j).flatMap
        (Visit.complaints limits j) = [] ↔
      ∃ values, ArrayForm form j values ∧ values ≠ [] := by
  have hempty {values : List α} (hvalues : ArrayForm form j values) :
      values = [] ↔ j.count? = some 0 := by
    obtain ⟨items, rfl, hitems⟩ := hvalues
    have hcount : (Json.arr items).count? = some items.length := rfl
    rw [hcount, Option.some_inj, hitems.length_eq, List.length_eq_zero_iff]
  split
  case isTrue hzero =>
    refine ⟨fun h => (by cases h), fun h => ?_⟩
    obtain ⟨values, hvalues, hne⟩ := h
    exact absurd ((hempty hvalues).mpr hzero) hne
  case isFalse hzero =>
    rw [complaints_itemVisits h]
    exact exists_congr fun values =>
      ⟨fun hvalues => ⟨hvalues, fun hnil => hzero ((hempty hvalues).mp hnil)⟩, And.left⟩

/-- A part that may be `null`. -/
theorem complaints_or_null {visits : List Visit} {form : Prop}
    (h : visits.flatMap (Visit.complaints limits j) = [] ↔ form) :
    (if j.isNull then [] else visits).flatMap (Visit.complaints limits j) = [] ↔
      j = .null ∨ form := by
  cases j with
  | null => exact ⟨fun _ => .inl rfl, fun _ => rfl⟩
  | _ => exact h.trans (by simp)

/-- **The decoder has no complaints about a part exactly if the part is well-formed.** -/
theorem Role.complaints_eq_nil : role.complaints limits j = [] ↔ role.WellFormed limits j := by
  -- what the items of arrays have to be
  have hcolumnRef (j : Json) : Role.columnRef.complaints limits j = [] ↔ ∃ id, ColumnForm j id :=
    complaints_of_reader (decodeColumnRef_reportsFirst [] j) (meets_decodeColumnRef [] j)
      (decodeColumnRef_of [] j)
  have hcell (j : Json) : Role.cell.complaints limits j = [] ↔ ∃ literal, LiteralForm j literal :=
    complaints_of_reader (decodeLiteral_reportsFirst [] j) (meets_decodeLiteral [] j)
      (decodeLiteral_of [] j)
  have hrow (j : Json) : Role.row.complaints limits j = [] ↔ ∃ row, ArrayForm LiteralForm j row :=
    complaints_of_reader (decodeRow_reportsFirst [] j) (meets_decodeRow [] j) (decodeRow_of [] j)
  have hsort (j : Json) : Role.sort.complaints limits j = [] ↔ ∃ s, ObjectForm SortForm j s :=
    complaints_of_reader (decodeSortExpr_reportsFirst [] j) (meets_decodeSortExpr [] j)
      (decodeSortExpr_of [] j)
  have hexpr (j : Json) : Role.expr.complaints limits j = [] ↔ ∃ e, ExprForm j e := complaints_expr
  cases role with
  | document =>
    have hread := (decode_reportsFirst limits j).ok_iff
    rw [List.map_eq_nil_iff] at hread
    exact hread.symm.trans (exists_congr fun q => decode_eq_ok)
  | insert =>
    refine complaints_of_reader (decodeInsert_reportsFirst j) (meets_decodeInsert j) fun q h => ?_
    obtain ⟨members, rfl, h⟩ := h
    exact decodeInsert_of h
  | select =>
    refine complaints_of_reader (decodeSelect_reportsFirst limits j) (meets_decodeSelect limits j)
      fun q h => ?_
    obtain ⟨members, rfl, h⟩ := h
    exact decodeSelect_of h
  | bare =>
    rw [complaints_eq]
    refine complaints_check.trans ?_
    cases j with
    | obj members => exact ⟨fun _ => ⟨members, rfl⟩, fun _ => rfl⟩
    | _ => simp [WellFormed, Json.keys?, Json.members?]
  | columnRefs => exact complaints_eq ▸ complaints_itemVisits hcolumnRef
  | columnRef => exact hcolumnRef j
  | rows => exact complaints_eq ▸ complaints_some_items hrow
  | row => exact hrow j
  | cell => exact hcell j
  | outputs => exact complaints_eq ▸ complaints_some_items hexpr
  | filter =>
    have hvisits : (exprVisits j).flatMap (Visit.complaints limits j) = [] ↔
        ∃ e, ExprForm j e := by
      rw [← hexpr j, complaints_eq]
      rfl
    exact complaints_eq ▸ complaints_or_null hvisits
  | sorts => exact complaints_eq ▸ complaints_or_null (complaints_itemVisits hsort)
  | sort => exact hsort j
  | direction =>
    rw [complaints_eq]
    refine complaints_check.trans ?_
    cases j with
    | null => exact ⟨fun _ => .inl rfl, fun _ => rfl⟩
    | str text =>
      simp [WellFormed, DirectionForm, Json.isNull, Json.text?, Option.isSome_iff_exists]
    | _ => simp [WellFormed, DirectionForm, Json.isNull, Json.text?]
  | offset => exact complaints_eq ▸ complaints_windowVisits
  | limit => exact complaints_eq ▸ complaints_windowVisits
  | expr => exact hexpr j
  | metadata => exact complaints_ofKey "metadata"
  | column => exact complaints_ofKey "column"
  | literal =>
    rw [complaints_eq]
    exact ⟨fun _ => trivial, fun _ => rfl⟩
  | func => exact complaints_ofKey "func"
  | name =>
    rw [complaints_eq]
    refine complaints_check.trans ?_
    cases j with
    | str text => exact ⟨fun _ => ⟨text, rfl⟩, fun _ => rfl⟩
    | _ => simp [WellFormed, Json.text?]
  | args => exact complaints_eq ▸ complaints_itemVisits hexpr
  | operands =>
    have hop (op : BinaryOp) : Role.ofKey op.name = .operands := by
      cases op <;> rfl
    constructor
    · intro h
      obtain ⟨e, he⟩ := (complaints_ofKey "eq").mp h
      exact ⟨.eq, e, he⟩
    · rintro ⟨op, e, he⟩
      exact hop op ▸ (complaints_ofKey op.name).mpr ⟨e, he⟩
  | unknown key =>
    rw [complaints_eq]
    exact ⟨fun h => (by cases h), False.elim⟩

end TableStore.Query
