import TableStore.Proofs.Grammar
import TableStore.Proofs.Programs

/-!
# The decoder of query documents

`Meets r form refusal` says of the result of a reader that it is a value of a form or a refusal of a
kind. Each reader has one lemma of this kind, put together by rules for the ways in which readers
are composed, and one that says that it reads every form of a value as this value. So the decoder
accepts exactly the grammar (`decode_eq_ok`), and what it refuses is malformed, unless it is a
select query whose window is too large and whose other parts are forms (`meets_decode`).
-/

namespace TableStore.Query

open Json (Address)

variable {α β : Type}

/-! ### Names -/

/-- Names that differ are read back. -/
theorem find?_name_eq_some {name : α → String} {all : List α} (hall : ∀ a, a ∈ all)
    (hnames : (all.map name).Nodup) {text : String} {a : α} :
    (all.find? fun a => name a == text) = some a ↔ name a = text := by
  have hfound {b : α} {text : String} (h : (all.find? fun a => name a == text) = some b) :
      name b = text := by
    simpa using List.find?_some h
  refine ⟨hfound, ?_⟩
  rintro rfl
  cases h : all.find? fun b => name b == name a with
  | none => exact absurd (beq_self_eq_true _) (List.find?_eq_none.mp h a (hall a))
  | some b => rw [List.inj_on_of_nodup_map hnames (hall b) (hall a) (hfound h)]

theorem Kind.read?_eq_some {text : String} {k : Kind} : Kind.read? text = some k ↔ k.name = text :=
  find?_name_eq_some (fun k => by cases k <;> decide) (by decide)

theorem Metadata.read?_eq_some {text : String} {m : Metadata} :
    Metadata.read? text = some m ↔ m.name = text :=
  find?_name_eq_some (fun m => by cases m <;> decide) (by decide)

theorem BinaryOp.read?_eq_some {text : String} {op : BinaryOp} :
    BinaryOp.read? text = some op ↔ op.name = text :=
  find?_name_eq_some (fun op => by cases op <;> decide) (by decide)

theorem UnaryOp.read?_eq_some {text : String} {op : UnaryOp} :
    UnaryOp.read? text = some op ↔ op.name = text :=
  find?_name_eq_some (fun op => by cases op <;> decide) (by decide)

/-- No operator is named like another kind of expression. -/
theorem BinaryOp.name_ne (op : BinaryOp) :
    op.name ≠ "metadata" ∧ op.name ≠ "column" ∧ op.name ≠ "value" ∧ op.name ≠ "func" := by
  cases op <;> decide

theorem UnaryOp.name_ne (op : UnaryOp) :
    op.name ≠ "metadata" ∧ op.name ≠ "column" ∧ op.name ≠ "value" ∧ op.name ≠ "func" := by
  cases op <;> decide

theorem UnaryOp.binary_read?_name (op : UnaryOp) : BinaryOp.read? op.name = none := by
  cases op <;> decide

/-! ### Results of readers -/

/-- The error says that a part has no form. -/
def IsMalformed (e : QueryError) : Prop :=
  ∃ address f, e = .malformed address f

/-- The result is a value of a form, or a refusal of a kind. -/
def Meets (r : Decoded α) (form : α → Prop) (refusal : QueryError → Prop) : Prop :=
  match r with
  | .ok a => form a
  | .error e => refusal e

section Meets

variable {r : Decoded α} {f : α → Decoded β} {P P' : α → Prop} {Q : β → Prop}
  {E E' : QueryError → Prop}

theorem meets_fault (address : Address) (f : Fault) : Meets (fault address f : Decoded α) P
    IsMalformed :=
  ⟨address, f, rfl⟩

theorem Meets.imp (h : Meets r P E) (hP : ∀ a, P a → P' a) : Meets r P' E := by
  cases r with
  | ok a => exact hP a h
  | error e => exact h

theorem Meets.weaken (h : Meets r P E) (hE : ∀ e, E e → E' e) : Meets r P E' := by
  cases r with
  | ok a => exact h
  | error e => exact hE e h

theorem Meets.bind (h : Meets r P E) (hf : ∀ a, P a → Meets (f a) Q E) : Meets (r >>= f) Q E := by
  cases r with
  | ok a => exact hf a h
  | error e => exact h

theorem Meets.map {g : α → β} (h : Meets r P E) (hg : ∀ a, P a → Q (g a)) :
    Meets (r.map g) Q E := by
  cases r with
  | ok a => exact hg a h
  | error e => exact h

theorem meets_asObject (address : Address) (j : Json) :
    Meets (asObject address j) (fun members => j = .obj members) IsMalformed := by
  unfold asObject
  split
  · rfl
  · exact meets_fault _ _

theorem meets_asArray (address : Address) (j : Json) :
    Meets (asArray address j) (fun items => j = .arr items) IsMalformed := by
  unfold asArray
  split
  · rfl
  · exact meets_fault _ _

theorem meets_asNatural (address : Address) (j : Json) :
    Meets (asNatural address j) (NaturalForm j) IsMalformed := by
  unfold asNatural
  split
  · next n h =>
    unfold Json.natural? at h
    split at h
    · exact congrArg (Json.ofNat ·) (Option.some.inj h)
    · cases h
  · exact meets_fault _ _

theorem meets_oneKey (address : Address) (j : Json) :
    Meets (oneKey address j) (fun m => j = .obj [m]) IsMalformed := by
  unfold oneKey
  split
  · rfl
  · exact meets_fault _ _
  · exact meets_fault _ _

theorem meets_allowOnly (address : Address) (allowed : List String) (members : Members Json) :
    Meets (allowOnly address allowed members) (fun _ => AllowsOnly allowed members)
      IsMalformed := by
  unfold allowOnly
  split
  · exact meets_fault _ _
  · next h =>
    intro key hkey
    simpa using List.find?_eq_none.mp h key hkey

theorem meets_required (address : Address) (key : String) (members : Members Json) :
    Meets (required address key members) (fun j => members.get? key = some j) IsMalformed := by
  unfold required
  split
  · assumption
  · exact meets_fault _ _

/-- A reader of each item reads forms of the values. -/
theorem meets_decodeEach {form : Json → α → Prop} {read : Address → Json → Decoded α}
    (h : ∀ address j, Meets (read address j) (form j) E) (address : Address) (items : List Json) :
    Meets (decodeEach address read items) (List.Forall₂ form items) E := by
  suffices hfrom : ∀ position, Meets ((items.zipIdx position).mapM fun item =>
      read (address ++ [.index item.2]) item.1) (List.Forall₂ form items) E from hfrom 0
  induction items with
  | nil => exact fun _ => .nil
  | cons item rest ih =>
    intro position
    rw [List.zipIdx_cons, List.mapM_cons]
    exact (h _ item).bind fun a ha => (ih _).bind fun more hmore => .cons ha hmore

end Meets

/-! ### Readers of expressions -/

theorem meets_decodeMetadata (address : Address) (payload : Json) :
    Meets (decodeMetadata address payload) (ExprForm (.obj [("metadata", payload)]))
      IsMalformed := by
  unfold decodeMetadata
  split
  · next field h =>
    cases payload with
    | str text =>
      obtain rfl := Metadata.read?_eq_some.mp h
      exact .metadata field
    | _ => cases h
  · exact meets_fault _ _

theorem meets_decodeColumn (address : Address) (payload : Json) :
    Meets (decodeColumn address payload) (ExprForm (.obj [("column", payload)])) IsMalformed := by
  unfold decodeColumn
  split
  · next id h =>
    cases payload with
    | str text => exact .column h
    | _ => cases h
  · exact meets_fault _ _

theorem meets_decodeName (address : Address) (members : Members Json) :
    Meets (decodeName address members) (fun name => members.get? "name" = some (.str name))
      IsMalformed := by
  refine (meets_required address "name" members).bind fun name hname => ?_
  cases name with
  | str name => exact hname
  | _ => exact meets_fault _ _

/-- The arguments of a function: there are none when they are left out. -/
def ArgsForm (members : Members Json) (args : List Expr) : Prop :=
  OrDefault (fun j args => ∃ items, j = .arr items ∧ ExprForms items args) []
    (members.get? "args") args

theorem ArgsForm.func {members : Members Json} {name : String} {args : List Expr}
    (h : ArgsForm members args) (hkeys : AllowsOnly ["name", "args"] members)
    (hname : members.get? "name" = some (.str name)) :
    ExprForm (.obj [("func", .obj members)]) (.func name args) := by
  unfold ArgsForm OrDefault at h
  split at h
  · next hargs =>
    obtain rfl := h
    exact .bare hkeys hname hargs
  · next hargs =>
    obtain ⟨items, rfl, hitems⟩ := h
    exact .func hkeys hname hargs hitems

theorem decodeExpr_func (address : Address) (members : Members Json) :
    decodeExpr address (.obj [("func", .obj members)]) = (do
      allowOnly (address ++ [.key "func"]) ["name", "args"] members
      let name ← decodeName (address ++ [.key "func"]) members
      let args ← decodeArgs (address ++ [.key "func"]) members
      return .func name args) := by
  rw [decodeExpr.eq_def]
  rfl

theorem decodeArgs_cons_of_ne (address : Address) {key : String} (h : key ≠ "args") (value : Json)
    (rest : Members Json) :
    decodeArgs address ((key, value) :: rest) = decodeArgs address rest := by
  rw [decodeArgs.eq_def]
  exact if_neg h

/-- What the readers of expressions accept, by the recursion that they share. -/
theorem meets_decode_expressions :
    (∀ address j, Meets (decodeExpr address j) (ExprForm j) IsMalformed) ∧
      (∀ address members, Meets (decodeArgs address members) (ArgsForm members) IsMalformed) ∧
      ∀ address position items,
        Meets (decodeExprs address position items) (ExprForms items) IsMalformed := by
  apply decodeExpr.mutual_induct
    (fun address j => Meets (decodeExpr address j) (ExprForm j) IsMalformed)
    (fun address members => Meets (decodeArgs address members) (ArgsForm members) IsMalformed)
    (fun address position items =>
      Meets (decodeExprs address position items) (ExprForms items) IsMalformed)
  -- heads that are not operators
  case case1 =>
    intro address payload
    rw [decodeExpr.eq_def]
    exact meets_decodeMetadata _ _
  case case2 =>
    intro address payload _
    rw [decodeExpr.eq_def]
    exact meets_decodeColumn _ _
  case case3 =>
    intro address payload _ _
    rw [decodeExpr.eq_def]
    exact .value payload
  case case4 =>
    intro address members inner _ _ _ hargs
    rw [decodeExpr_func]
    exact (meets_allowOnly _ _ _).bind fun _ hkeys =>
      (meets_decodeName _ _).bind fun name hname => hargs.bind fun args h => h.func hkeys hname
  case case5 =>
    intro address payload hpayload _ _ _
    rw [decodeExpr.eq_def]
    cases payload with
    | obj members => exact absurd rfl (hpayload members)
    | _ => exact meets_fault _ _
  -- operators, and keys that are none
  case case6 =>
    intro address key inner hmetadata hcolumn hvalue hfunc op hop l r hleft hright
    rw [decodeExpr.eq_def]
    simp only [hmetadata, hcolumn, hvalue, hfunc, hop, if_false]
    obtain rfl := BinaryOp.read?_eq_some.mp hop
    exact hleft.bind fun left hl => hright.bind fun right hr => .binary op hl hr
  case case7 =>
    intro address key hmetadata hcolumn hvalue hfunc op hop items hitems
    rw [decodeExpr.eq_def]
    simp only [hmetadata, hcolumn, hvalue, hfunc, hop, if_false]
    exact meets_fault _ _
  case case8 =>
    intro address key payload hmetadata hcolumn hvalue hfunc op hop hpair hitems
    rw [decodeExpr.eq_def]
    simp only [hmetadata, hcolumn, hvalue, hfunc, hop, if_false]
    exact meets_fault _ _
  case case9 =>
    intro address key payload inner hmetadata hcolumn hvalue hfunc op hop hbinary hoperand
    rw [decodeExpr.eq_def]
    simp only [hmetadata, hcolumn, hvalue, hfunc, hop, hbinary, if_false]
    obtain rfl := UnaryOp.read?_eq_some.mp hop
    exact hoperand.bind fun operand h => .unary op h
  case case10 =>
    intro address key payload hmetadata hcolumn hvalue hfunc hunary hbinary
    rw [decodeExpr.eq_def]
    simp only [hmetadata, hcolumn, hvalue, hfunc, hunary, hbinary, if_false]
    exact meets_fault _ _
  -- documents that are not objects with one key
  case case11 =>
    intro address members hmembers
    rw [decodeExpr.eq_3 _ _ hmembers]
    exact meets_fault _ _
  case case12 =>
    intro j address hone hobj
    cases j with
    | obj members => exact absurd rfl (hobj members)
    | _ =>
      rw [decodeExpr.eq_def]
      exact meets_fault _ _
  -- lists of expressions
  case case13 =>
    intro address position
    exact .nil
  case case14 =>
    intro address position item rest hitem hrest
    rw [decodeExprs]
    exact hitem.bind fun e he => hrest.bind fun more hmore => .cons he hmore
  -- the members of a function, up to its arguments
  case case15 =>
    intro address
    exact rfl
  case case16 =>
    intro address rest items hitems
    rw [decodeArgs.eq_def]
    exact hitems.imp fun args h => ⟨items, rfl, h⟩
  case case17 =>
    intro address value rest hvalue
    rw [decodeArgs.eq_def]
    cases value with
    | arr items => exact absurd rfl (hvalue items)
    | _ => exact meets_fault _ _
  case case18 =>
    intro address key value rest hkey hrest
    have hrest' : Members.get? "args" ((key, value) :: rest) = Members.get? "args" rest :=
      if_neg (Ne.symm hkey)
    rw [decodeArgs_cons_of_ne _ hkey]
    exact hrest.imp fun args h => by rwa [ArgsForm, hrest']

theorem decodeArgs_eq (address : Address) (members : Members Json) :
    decodeArgs address members =
      match members.get? "args" with
      | none => .ok []
      | some (.arr items) => decodeExprs (address ++ [.key "args"]) 0 items
      | some _ => fault (address ++ [.key "args"]) .notAnArray := by
  induction members with
  | nil => rfl
  | cons m rest ih =>
    obtain ⟨key, value⟩ := m
    by_cases hkey : key = "args"
    · subst hkey
      cases value <;> rfl
    · rw [decodeArgs_cons_of_ne _ hkey, ih, Members.get?, if_neg (Ne.symm hkey)]

theorem allowOnly_of (address : Address) {allowed : List String} {members : Members Json}
    (h : AllowsOnly allowed members) : allowOnly address allowed members = .ok () := by
  have hnone : (members.keys.find? fun key => !allowed.contains key) = none :=
    List.find?_eq_none.mpr fun key hkey => by simpa using h key hkey
  rw [allowOnly, hnone]

mutual

theorem ExprForm.decodes {j : Json} {e : Expr} (h : ExprForm j e) (address : Address) :
    decodeExpr address j = .ok e := by
  cases h with
  | metadata field =>
    rw [decodeExpr.eq_def]
    cases field <;> rfl
  | column hid =>
    rw [decodeExpr.eq_def]
    show decodeColumn _ _ = _
    simp only [decodeColumn, Json.text?, Option.bind_some, hid]
  | value literal =>
    rw [decodeExpr.eq_def]
    rfl
  | bare hkeys hname hargs =>
    rw [decodeExpr_func, allowOnly_of _ hkeys, decodeName, required, hname, decodeArgs_eq, hargs]
    rfl
  | func hkeys hname hargs hitems =>
    rw [decodeExpr_func, allowOnly_of _ hkeys, decodeName, required, hname, decodeArgs_eq, hargs]
    simp only [hitems.decodes]
    rfl
  | binary op hleft hright =>
    obtain ⟨hmetadata, hcolumn, hvalue, hfunc⟩ := op.name_ne
    rw [decodeExpr.eq_def]
    simp only [hmetadata, hcolumn, hvalue, hfunc, BinaryOp.read?_eq_some.mpr rfl, if_false,
      hleft.decodes, hright.decodes]
    rfl
  | unary op hoperand =>
    obtain ⟨hmetadata, hcolumn, hvalue, hfunc⟩ := op.name_ne
    rw [decodeExpr.eq_def]
    simp only [hmetadata, hcolumn, hvalue, hfunc, UnaryOp.read?_eq_some.mpr rfl,
      op.binary_read?_name, if_false, hoperand.decodes]
    rfl

theorem ExprForms.decodes {items : List Json} {es : List Expr} (h : ExprForms items es)
    (address : Address) (position : Nat) : decodeExprs address position items = .ok es := by
  cases h with
  | nil => rfl
  | cons hhead htail =>
    rw [decodeExprs, hhead.decodes, htail.decodes]
    rfl

end

/-! ### Readers of queries -/

section Readers

variable {members : Members Json}

theorem decodeEach_of {form : Json → α → Prop} {read : Address → Json → Decoded α}
    (h : ∀ address j a, form j a → read address j = .ok a) {items : List Json} {values : List α}
    (hitems : List.Forall₂ form items values) (address : Address) :
    decodeEach address read items = .ok values := by
  suffices hfrom : ∀ position, ((items.zipIdx position).mapM fun item =>
      read (address ++ [Json.Step.index item.2]) item.1) = .ok values from hfrom 0
  induction hitems with
  | nil => exact fun _ => rfl
  | cons hhead _ ih =>
    intro position
    have hfirst := h (address ++ [.index position]) _ _ hhead
    rw [List.zipIdx_cons, List.mapM_cons]
    simp only [hfirst, ih]
    rfl

theorem meets_orDefault {form : Json → α → Prop} {default : α} {read : Json → Decoded α}
    {E : QueryError → Prop} (h : ∀ j, Meets (read j) (form j) E) (o : Option Json) :
    Meets (match o with
      | none => .ok default
      | some j => read j) (OrDefault form default o) E := by
  cases o with
  | none => exact rfl
  | some j => exact h j

theorem orDefault_of {form : Json → α → Prop} {default a : α} {read : Json → Decoded α}
    (h : ∀ j, form j a → read j = .ok a) (o : Option Json) : OrDefault form default o a →
      (match o with
        | none => .ok default
        | some j => read j : Decoded α) = .ok a := by
  intro ho
  cases o with
  | none => exact congrArg _ (Eq.symm ho)
  | some j => exact h j ho

theorem meets_decodeDirection (address : Address) (members : Members Json) :
    Meets (decodeDirection address members)
      (OrDefault DirectionForm .asc (optional "direction" members)) IsMalformed := by
  refine meets_orDefault (fun j => ?_) _
  split
  · next d h =>
    cases j with
    | str text => exact ⟨text, rfl, h⟩
    | _ => cases h
  · exact meets_fault _ _

theorem decodeDirection_of {d : Direction}
    (h : OrDefault DirectionForm .asc (optional "direction" members) d) (address : Address) :
    decodeDirection address members = .ok d := by
  refine orDefault_of (fun j hj => ?_) _ h
  obtain ⟨text, rfl, hread⟩ := hj
  simp only [Json.text?, Option.bind_some, hread]

theorem meets_decodeExpr (address : Address) (j : Json) :
    Meets (decodeExpr address j) (ExprForm j) IsMalformed :=
  meets_decode_expressions.1 address j

theorem meets_decodeExprs (address : Address) (position : Nat) (items : List Json) :
    Meets (decodeExprs address position items) (List.Forall₂ ExprForm items) IsMalformed :=
  (meets_decode_expressions.2.2 address position items).imp fun _ => exprForms_iff.mp

theorem meets_decodeSortExpr (address : Address) (j : Json) :
    Meets (decodeSortExpr address j) (ObjectForm SortForm j) IsMalformed := by
  refine (meets_asObject address j).bind fun members hj => ?_
  refine (meets_allowOnly _ _ members).bind fun _ honly => ?_
  refine (meets_required _ "expr" members).bind fun inner hinner => ?_
  refine (meets_decodeExpr _ inner).bind fun e he => ?_
  exact (meets_decodeDirection _ members).bind fun d hd =>
    ⟨members, hj, honly, ⟨inner, hinner, he⟩, hd⟩

theorem decodeSortExpr_of (address : Address) (j : Json) (s : SortExpr)
    (h : ObjectForm SortForm j s) : decodeSortExpr address j = .ok s := by
  obtain ⟨members, rfl, honly, ⟨inner, hinner, he⟩, hd⟩ := h
  simp only [decodeSortExpr, asObject, required, hinner, bind, Except.bind,
    allowOnly_of _ honly, he.decodes, decodeDirection_of hd]
  rfl

theorem meets_decodeColumnRef (address : Address) (j : Json) :
    Meets (decodeColumnRef address j) (ColumnForm j) IsMalformed := by
  refine (meets_decodeExpr address j).bind fun e he => ?_
  cases e with
  | column id => exact he
  | _ => exact meets_fault _ _

theorem decodeColumnRef_of (address : Address) (j : Json) (id : Uuid) (h : ColumnForm j id) :
    decodeColumnRef address j = .ok id := by
  rw [decodeColumnRef, ExprForm.decodes h]
  rfl

theorem meets_decodeLiteral (address : Address) (j : Json) :
    Meets (decodeLiteral address j) (LiteralForm j) IsMalformed := by
  refine (meets_decodeExpr address j).bind fun e he => ?_
  cases e with
  | value literal => exact he
  | _ => exact meets_fault _ _

theorem decodeLiteral_of (address : Address) (j literal : Json) (h : LiteralForm j literal) :
    decodeLiteral address j = .ok literal := by
  rw [decodeLiteral, ExprForm.decodes h]
  rfl

theorem meets_decodeRow (address : Address) (j : Json) :
    Meets (decodeRow address j) (ArrayForm LiteralForm j) IsMalformed := by
  refine (meets_asArray address j).bind fun items hj => ?_
  exact (meets_decodeEach meets_decodeLiteral address items).imp fun row h => ⟨items, hj, h⟩

theorem decodeRow_of (address : Address) (j : Json) (row : List Json)
    (h : ArrayForm LiteralForm j row) : decodeRow address j = .ok row := by
  obtain ⟨items, rfl, hitems⟩ := h
  exact decodeEach_of decodeLiteral_of hitems address

theorem meets_decodeInsert (j : Json) :
    Meets (decodeInsert j) (ObjectForm InsertForm j) IsMalformed := by
  refine (meets_asObject [] j).bind fun members hj => ?_
  refine (meets_allowOnly _ _ members).bind fun _ honly => ?_
  refine (meets_required _ "columns" members).bind fun c hc => ?_
  refine (meets_asArray _ c).bind fun items hitems => ?_
  refine (meets_decodeEach meets_decodeColumnRef _ items).bind fun columns hcolumns => ?_
  refine (meets_required _ "values" members).bind fun v hv => ?_
  refine (meets_asArray _ v).bind fun rows hrows => ?_
  cases rows with
  | nil => exact meets_fault _ _
  | cons row rest =>
    refine (meets_decodeEach meets_decodeRow _ (row :: rest)).bind fun values hvalues => ?_
    refine ⟨members, hj, honly, ⟨c, hc, items, hitems, hcolumns⟩,
      ⟨v, hv, row :: rest, hrows, hvalues⟩, ?_⟩
    rintro (rfl : values = [])
    cases hvalues

theorem decodeInsert_of {q : Insert} (h : InsertForm members q) :
    decodeInsert (.obj members) = .ok q := by
  obtain ⟨honly, ⟨_, hc, items, rfl, hitems⟩, ⟨_, hv, rows, rfl, hrows⟩, hsome⟩ := h
  have hempty : rows.isEmpty = false := by
    cases rows with
    | nil => exact absurd (List.forall₂_nil_left_iff.mp hrows) hsome
    | cons _ _ => rfl
  simp only [decodeInsert, asObject, asArray, required, hc, hv, bind, Except.bind,
    allowOnly_of _ honly, decodeEach_of decodeColumnRef_of hitems, hempty,
    decodeEach_of decodeRow_of hrows]
  rfl

theorem meets_decodeFilter (members : Members Json) :
    Meets (decodeFilter members) (OrDefault FilterForm none (optional "where" members))
      IsMalformed :=
  meets_orDefault (fun j => (meets_decodeExpr _ j).map fun e he => ⟨e, rfl, he⟩) _

theorem decodeFilter_of {filter : Option Expr}
    (h : OrDefault FilterForm none (optional "where" members) filter) :
    decodeFilter members = .ok filter := by
  refine orDefault_of (fun j hj => ?_) _ h
  obtain ⟨e, rfl, he⟩ := hj
  rw [he.decodes]
  rfl

theorem meets_decodeOrderBy (members : Members Json) :
    Meets (decodeOrderBy members) (OrDefault (ArrayForm (ObjectForm SortForm)) SortExpr.default
      (optional "order_by" members)) IsMalformed := by
  refine meets_orDefault (fun j => ?_) _
  refine (meets_asArray _ j).bind fun items hj => ?_
  exact (meets_decodeEach meets_decodeSortExpr _ items).imp fun order h => ⟨items, hj, h⟩

theorem decodeOrderBy_of {orderBy : List SortExpr}
    (h : OrDefault (ArrayForm (ObjectForm SortForm)) SortExpr.default
      (optional "order_by" members) orderBy) : decodeOrderBy members = .ok orderBy := by
  refine orDefault_of (fun j hj => ?_) _ h
  obtain ⟨items, rfl, hitems⟩ := hj
  exact decodeEach_of decodeSortExpr_of hitems _

/-- A natural number that may be left out and has a greatest value. -/
def decodeBounded (key : String) (default max : Nat) (tooLarge : Nat → Nat → QueryError)
    (members : Members Json) : Decoded Nat :=
  (match optional key members with
    | none => .ok default
    | some j => asNatural [.key key] j) >>= fun n =>
      if max < n then .error (tooLarge n max) else .ok n

theorem decodeOffset_eq (members : Members Json) :
    decodeOffset members = decodeBounded "offset" 0 maxOffset .offsetTooLarge members := by
  unfold decodeOffset decodeBounded
  cases optional "offset" members <;> rfl

theorem decodeLimit_eq (limits : Limits) (members : Members Json) :
    decodeLimit limits members =
      decodeBounded "limit" limits.default limits.max .limitTooLarge members := by
  unfold decodeLimit decodeBounded
  cases optional "limit" members <;> rfl

section Bounded

variable {key : String} {default max : Nat} {tooLarge : Nat → Nat → QueryError}

theorem meets_decodeBounded (members : Members Json) :
    Meets (decodeBounded key default max tooLarge members)
      (fun n => OrDefault NaturalForm default (optional key members) n ∧ n ≤ max)
      fun e => IsMalformed e ∨ ∃ n, OrDefault NaturalForm default (optional key members) n ∧
        max < n ∧ e = tooLarge n max := by
  refine ((meets_orDefault (meets_asNatural _) _).weaken fun _ => .inl).bind fun n hn => ?_
  split
  · next hmax => exact .inr ⟨n, hn, hmax, rfl⟩
  · next hmax => exact ⟨hn, Nat.not_lt.mp hmax⟩

theorem decodeBounded_eq {n : Nat} (h : OrDefault NaturalForm default (optional key members) n) :
    decodeBounded key default max tooLarge members =
      if max < n then .error (tooLarge n max) else .ok n := by
  have hnatural : ∀ j, NaturalForm j n → asNatural [.key key] j = .ok n := by
    rintro _ rfl
    rfl
  rw [decodeBounded, orDefault_of hnatural _ h]
  rfl

end Bounded

/-- The document has the form of a select query as far as it is made of expressions. -/
def HasClauses (j : Json) : Prop :=
  ∃ members outputs filter orderBy, j = .obj members ∧ ClausesForm members outputs filter orderBy

/-- `WindowRefused limits body e`: the body is that of a select query but for its window, of which
the error says what is too large. -/
inductive WindowRefused (limits : Limits) : Json → QueryError → Prop where
  | offset {members : Members Json} {outputs : List Expr} {filter : Option Expr}
      {orderBy : List SortExpr} {offset : Nat}
      (clauses : ClausesForm members outputs filter orderBy)
      (ho : OrDefault NaturalForm 0 (optional "offset" members) offset) (h : maxOffset < offset) :
      WindowRefused limits (.obj members) (.offsetTooLarge offset maxOffset)
  | limit {members : Members Json} {outputs : List Expr} {filter : Option Expr}
      {orderBy : List SortExpr} {offset limit : Nat}
      (clauses : ClausesForm members outputs filter orderBy)
      (ho : OrDefault NaturalForm 0 (optional "offset" members) offset) (hle : offset ≤ maxOffset)
      (hl : OrDefault NaturalForm limits.default (optional "limit" members) limit)
      (h : limits.max < limit) :
      WindowRefused limits (.obj members) (.limitTooLarge limit limits.max)

theorem WindowRefused.hasClauses {limits : Limits} {j : Json} {e : QueryError}
    (h : WindowRefused limits j e) : HasClauses j := by
  cases h with
  | offset clauses => exact ⟨_, _, _, _, rfl, clauses⟩
  | limit clauses => exact ⟨_, _, _, _, rfl, clauses⟩

theorem meets_decodeSelect (limits : Limits) (j : Json) :
    Meets (decodeSelect limits j) (ObjectForm (SelectForm limits) j)
      fun e => IsMalformed e ∨ WindowRefused limits j e := by
  have hleft : ∀ e, IsMalformed e → IsMalformed e ∨ WindowRefused limits j e := fun _ => .inl
  refine ((meets_asObject [] j).weaken hleft).bind fun members hj => ?_
  refine ((meets_allowOnly _ _ members).weaken hleft).bind fun _ honly => ?_
  refine ((meets_required _ "columns" members).weaken hleft).bind fun c hc => ?_
  refine ((meets_asArray _ c).weaken hleft).bind fun items hitems => ?_
  refine ((meets_decodeExprs _ 0 items).weaken hleft).bind fun outputs houtputs => ?_
  by_cases hsome : outputs.isEmpty
  · rw [if_pos hsome]
    exact (meets_fault _ _).weaken hleft
  · rw [if_neg hsome]
    refine ((meets_decodeFilter members).weaken hleft).bind fun filter hfilter => ?_
    refine ((meets_decodeOrderBy members).weaken hleft).bind fun order horder => ?_
    have hclauses : ClausesForm members outputs filter order :=
      ⟨honly, ⟨c, hc, items, hitems, houtputs⟩, fun h => hsome (h ▸ rfl), hfilter, horder⟩
    obtain rfl := hj
    rw [decodeOffset_eq, decodeLimit_eq]
    refine ((meets_decodeBounded members).weaken fun e he => ?_).bind fun offset ho => ?_
    · refine he.imp_right fun ⟨n, hn, hmax, heq⟩ => ?_
      exact heq ▸ .offset hclauses hn hmax
    refine ((meets_decodeBounded members).weaken fun e he => ?_).bind fun limit hl =>
      ⟨members, rfl, hclauses, ho.1, hl.1, ho.2, hl.2⟩
    refine he.imp_right fun ⟨n, hn, hmax, heq⟩ => ?_
    exact heq ▸ .limit hclauses ho.1 ho.2 hn hmax

/-- With clauses that have forms only the window is left to be read. -/
theorem decodeSelect_eq (limits : Limits) {outputs : List Expr} {filter : Option Expr}
    {orderBy : List SortExpr} (h : ClausesForm members outputs filter orderBy) :
    decodeSelect limits (.obj members) =
      (decodeBounded "offset" 0 maxOffset .offsetTooLarge members >>= fun offset =>
        decodeBounded "limit" limits.default limits.max .limitTooLarge members >>= fun limit =>
          .ok ⟨outputs, filter, orderBy, offset, limit⟩) := by
  obtain ⟨honly, ⟨_, hc, items, rfl, hitems⟩, hsome, hfilter, horder⟩ := h
  have hempty : outputs.isEmpty = false := by
    simpa using hsome
  simp only [decodeSelect, asObject, asArray, required, hc, bind, Except.bind,
    allowOnly_of _ honly, (exprForms_iff.mpr hitems).decodes, hempty, decodeFilter_of hfilter,
    decodeOrderBy_of horder, decodeOffset_eq, decodeLimit_eq]
  rfl

theorem decodeSelect_of {limits : Limits} {q : Select} (h : SelectForm limits members q) :
    decodeSelect limits (.obj members) = .ok q := by
  rw [decodeSelect_eq limits h.clauses, decodeBounded_eq h.offset, decodeBounded_eq h.limit,
    if_neg (Nat.not_lt.mpr h.offset_le), if_neg (Nat.not_lt.mpr h.limit_le)]
  rfl

theorem WindowRefused.decodeSelect {limits : Limits} {j : Json} {e : QueryError}
    (h : WindowRefused limits j e) : decodeSelect limits j = .error e := by
  cases h with
  | offset clauses ho h =>
    rw [decodeSelect_eq limits clauses, decodeBounded_eq ho, if_pos h]
    rfl
  | limit clauses ho hle hl h =>
    rw [decodeSelect_eq limits clauses, decodeBounded_eq ho, decodeBounded_eq hl,
      if_neg (Nat.not_lt.mpr hle), if_pos h]
    rfl

/-- What the decoder reads is a query of which the document is a form. What it refuses is malformed,
unless it is a select query whose window is too large and whose other parts are forms. -/
theorem meets_decode (limits : Limits) (j : Json) :
    Meets (decode limits j) (QueryForm limits j)
      fun e => IsMalformed e ∨
        ∃ body, j = .obj [("select", body)] ∧ WindowRefused limits body e := by
  have hleft : ∀ e, IsMalformed e → IsMalformed e ∨
      ∃ body, j = .obj [("select", body)] ∧ WindowRefused limits body e := fun _ => .inl
  refine ((meets_oneKey [] j).weaken hleft).bind fun (key, body) hj => ?_
  obtain rfl := hj
  cases hkind : Kind.read? key with
  | none =>
    dsimp only
    rw [hkind]
    exact (meets_fault _ _).weaken hleft
  | some kind =>
    obtain rfl := Kind.read?_eq_some.mp hkind
    cases kind with
    | insert =>
      refine ((meets_decodeInsert body).weaken hleft).bind fun q hq => ?_
      obtain ⟨members, rfl, hq⟩ := hq
      exact .insert hq
    | select =>
      refine ((meets_decodeSelect limits body).weaken fun e he => ?_).bind fun q hq => ?_
      · exact he.imp_right fun h => ⟨body, rfl, h⟩
      · obtain ⟨members, rfl, hq⟩ := hq
        exact .select hq
    | update =>
      refine ((meets_asObject [] body).weaken hleft).bind fun members hbody => ?_
      obtain rfl := hbody
      exact .update members
    | delete =>
      refine ((meets_asObject [] body).weaken hleft).bind fun members hbody => ?_
      obtain rfl := hbody
      exact .delete members

/-- A window is refused exactly if it is all that is wrong with a select query. -/
theorem decode_eq_error {limits : Limits} {j : Json} {e : QueryError} (h : ¬ IsMalformed e) :
    decode limits j = .error e ↔
      ∃ body, j = .obj [("select", body)] ∧ WindowRefused limits body e := by
  constructor
  · intro herror
    have hmeets := meets_decode limits j
    rw [herror] at hmeets
    exact hmeets.resolve_left h
  · rintro ⟨body, rfl, hrefused⟩
    show (decodeSelect limits body >>= fun q => pure (Query.select q)) = _
    rw [hrefused.decodeSelect]
    rfl

/-- **The decoder accepts exactly the grammar**, and reads every document as the query that it is a
form of. -/
theorem decode_eq_ok {limits : Limits} {j : Json} {q : Query} :
    decode limits j = .ok q ↔ QueryForm limits j q := by
  constructor
  · intro h
    have hmeets := meets_decode limits j
    rwa [h] at hmeets
  · intro h
    cases h with
    | insert h =>
      show (decodeInsert _ >>= fun q => pure (Query.insert q)) = _
      rw [decodeInsert_of h]
      rfl
    | select h =>
      show (decodeSelect limits _ >>= fun q => pure (Query.select q)) = _
      rw [decodeSelect_of h]
      rfl
    | update => rfl
    | delete => rfl

end Readers

end TableStore.Query
