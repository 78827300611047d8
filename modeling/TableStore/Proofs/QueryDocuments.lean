import TableStore.Proofs.Decoding

/-!
# What the decoder reads and refuses

A document of a query has parts, each of which the decoder reads in one way (`Part`): the body of an
insert query, the expressions in it, the members of an object with a direction, and so on. `Direct`
says which parts stand directly in a part, `Contains` which parts a document has at any depth, and
`Broken` which parts the grammar does not have: with a key too many, with operands other than two,
or with another expression where a column or a literal has to be.

A part of a document that is read has a form itself (`Direct.hasForm`), and a broken part has none
(`Broken.not_hasForm`). So a document with a broken part anywhere is refused as malformed. **The
decoder accepts its grammar** (`decoder_accepts_its_grammar`): together with this, every query that
may be accepted is read back from the document that is written for it, and nothing else is ever
read.
-/

namespace TableStore.Query

/-- How the decoder reads a part of a query's document. -/
inductive Part where
  | query
  | insert
  | select
  | sortKey
  | expr
  | func
  /-- An expression that has to be a column. -/
  | columnRef
  /-- An expression that has to be a literal. -/
  | literal
deriving DecidableEq, Repr

/-- The keys that an object may have, where they are not the only thing it has. -/
def Part.keys? : Part → Option (List String)
  | .insert => some ["columns", "values"]
  | .select => some ["columns", "where", "order_by", "offset", "limit"]
  | .sortKey => some ["expr", "direction"]
  | .func => some ["name", "args"]
  | .query | .expr | .columnRef | .literal => none

/-- `Direct p j p' j'`: the document `j`, read as a `p`, has the part `j'`, read as a `p'`. -/
inductive Direct : Part → Json → Part → Json → Prop where
  | insert {members : Members Json} {body : Json} (h : members.get? "insert" = some body) :
    Direct .query (.obj members) .insert body
  | select {members : Members Json} {body : Json} (h : members.get? "select" = some body) :
    Direct .query (.obj members) .select body
  | column {members : Members Json} {items : List Json} {item : Json}
    (h : members.get? "columns" = some (.arr items)) (hitem : item ∈ items) :
    Direct .insert (.obj members) .columnRef item
  | cell {members : Members Json} {rows row : List Json} {item : Json}
    (h : members.get? "values" = some (.arr rows)) (hrow : .arr row ∈ rows) (hitem : item ∈ row) :
    Direct .insert (.obj members) .literal item
  | output {members : Members Json} {items : List Json} {item : Json}
    (h : members.get? "columns" = some (.arr items)) (hitem : item ∈ items) :
    Direct .select (.obj members) .expr item
  | filter {members : Members Json} {j : Json} (h : members.get? "where" = some j)
    (hnull : j ≠ .null) : Direct .select (.obj members) .expr j
  | sortKey {members : Members Json} {items : List Json} {item : Json}
    (h : members.get? "order_by" = some (.arr items)) (hitem : item ∈ items) :
    Direct .select (.obj members) .sortKey item
  | sorted {members : Members Json} {j : Json} (h : members.get? "expr" = some j) :
    Direct .sortKey (.obj members) .expr j
  | func {members : Members Json} {body : Json} (h : members.get? "func" = some body) :
    Direct .expr (.obj members) .func body
  | argument {members : Members Json} {items : List Json} {item : Json}
    (h : members.get? "args" = some (.arr items)) (hitem : item ∈ items) :
    Direct .func (.obj members) .expr item
  | operand (op : BinaryOp) {members : Members Json} {items : List Json} {item : Json}
    (h : members.get? op.name = some (.arr items)) (hitem : item ∈ items) :
    Direct .expr (.obj members) .expr item
  | soleOperand (op : UnaryOp) {members : Members Json} {j : Json}
    (h : members.get? op.name = some j) : Direct .expr (.obj members) .expr j
  | columnRef (j : Json) : Direct .columnRef j .expr j
  | literal (j : Json) : Direct .literal j .expr j

/-- `Contains p j p' j'`: the document `j`, read as a `p`, has the part `j'` at some depth, read as
a `p'`. -/
inductive Contains : Part → Json → Part → Json → Prop where
  | self (p : Part) (j : Json) : Contains p j p j
  | within {p p' p'' : Part} {j j' j'' : Json} (hdirect : Direct p j p' j')
    (hrest : Contains p' j' p'' j'') : Contains p j p'' j''

/-- A part that the grammar does not have. -/
inductive Broken : Part → Json → Prop where
  | unknownKey {p : Part} {allowed : List String} {members : Members Json} {key : String}
    (hp : p.keys? = some allowed) (hkey : key ∈ members.keys) (hnot : key ∉ allowed) :
    Broken p (.obj members)
  | secondKey {p : Part} {members : Members Json} (hp : p = .query ∨ p = .expr)
    (hmany : 1 < members.length) : Broken p (.obj members)
  | operands (op : BinaryOp) {members : Members Json} {payload : Json}
    (h : members.get? op.name = some payload)
    (hcount : ∀ left right, payload ≠ .arr [left, right]) : Broken .expr (.obj members)
  | notColumn {j : Json} (h : ∀ payload, j ≠ .obj [("column", payload)]) : Broken .columnRef j
  | notLiteral {j : Json} (h : ∀ payload, j ≠ .obj [("value", payload)]) : Broken .literal j

/-- The document has a form, read as a part. Of a query only the parts count, not its window. -/
def Part.HasForm : Part → Json → Prop
  | .query, j => ∃ key body, j = .obj [(key, body)] ∧
    (key = "insert" → ∃ q, ObjectForm InsertForm body q) ∧ (key = "select" → HasClauses body)
  | .insert, j => ∃ q, ObjectForm InsertForm j q
  | .select, j => HasClauses j
  | .sortKey, j => ∃ s, ObjectForm SortForm j s
  | .expr, j => ∃ e, ExprForm j e
  | .func, j => ∃ e, ExprForm (.obj [("func", j)]) e
  | .columnRef, j => ∃ id, ColumnForm j id
  | .literal, j => ∃ v, LiteralForm j v

/-! ### Parts of what is read -/

theorem exists_of_mem_forall₂ {α β : Type} {r : α → β → Prop} {as : List α} {bs : List β}
    (h : List.Forall₂ r as bs) {a : α} (ha : a ∈ as) : ∃ b, r a b := by
  induction h with
  | nil => cases ha
  | cons hhead _ ih =>
    rcases List.mem_cons.mp ha with rfl | ha
    · exact ⟨_, hhead⟩
    · exact ih ha

/-- What a key holds, if the members have a form. -/
theorem Field.exists_form {α : Type} {key : String} {form : Json → α → Prop}
    {members : Members Json} {a : α} {j : Json} (h : Field key form members a)
    (hj : members.get? key = some j) : form j a := by
  obtain ⟨j', hj', hform⟩ := h
  obtain rfl := Option.some.inj (hj.symm.trans hj')
  exact hform

theorem ArrayForm.exists_of_mem {α : Type} {form : Json → α → Prop} {items : List Json}
    {item : Json} {values : List α} (h : ArrayForm form (.arr items) values)
    (hitem : item ∈ items) : ∃ a, form item a := by
  obtain ⟨items', hitems, h⟩ := h
  obtain rfl := Json.arr.inj hitems
  exact exists_of_mem_forall₂ h hitem

theorem optional_of_get? {key : String} {members : Members Json} {j : Json}
    (h : members.get? key = some j) (hnull : j ≠ .null) : optional key members = some j := by
  unfold optional
  rw [h]
  cases j with
  | null => exact absurd rfl hnull
  | _ => rfl

theorem eq_of_get?_singleton {key k : String} {payload j : Json}
    (h : Members.get? key [(k, payload)] = some j) : k = key ∧ payload = j := by
  rw [Members.get?] at h
  split at h
  · next hk => exact ⟨hk.symm, Option.some.inj h⟩
  · cases h

/-! An expression has one key, and the key alone decides which rule gave it its form. -/

theorem ExprForm.exists_key {j : Json} {e : Expr} (h : ExprForm j e) :
    ∃ key payload, j = .obj [(key, payload)] := by
  cases h <;> exact ⟨_, _, rfl⟩

theorem ExprForm.eq_singleton {members : Members Json} {e : Expr} {key : String} {payload : Json}
    (h : ExprForm (.obj members) e) (hkey : members.get? key = some payload) :
    members = [(key, payload)] := by
  obtain ⟨k, j, hj⟩ := h.exists_key
  obtain rfl := Json.obj.inj hj
  obtain ⟨rfl, rfl⟩ := eq_of_get?_singleton hkey
  rfl

theorem ExprForm.of_func {body : Json} {e : Expr} (h : ExprForm (.obj [("func", body)]) e) :
    ∃ members args, body = .obj members ∧ AllowsOnly ["name", "args"] members ∧
      ArgsForm members args := by
  generalize hj : Json.obj [("func", body)] = j at h
  cases h with
  | metadata | column | value => simp at hj
  | @bare members _ hkeys _ hargs =>
    obtain rfl : body = .obj members := by simpa using hj
    refine ⟨members, [], rfl, hkeys, ?_⟩
    rw [ArgsForm, hargs]
    rfl
  | @func members _ items args hkeys _ hargs hitems =>
    obtain rfl : body = .obj members := by simpa using hj
    refine ⟨members, args, rfl, hkeys, ?_⟩
    rw [ArgsForm, hargs]
    exact ⟨items, rfl, hitems⟩
  | binary op =>
    have hname : "func" = op.name := by simp_all
    exact absurd hname.symm op.name_ne.2.2.2
  | unary op =>
    have hname : "func" = op.name := by simp_all
    exact absurd hname.symm op.name_ne.2.2.2

theorem ExprForm.of_binary {op : BinaryOp} {payload : Json} {e : Expr}
    (h : ExprForm (.obj [(op.name, payload)]) e) :
    ∃ l r left right, payload = .arr [l, r] ∧ ExprForm l left ∧ ExprForm r right := by
  obtain ⟨hmetadata, hcolumn, hvalue, hfunc⟩ := op.name_ne
  generalize hj : Json.obj [(op.name, payload)] = j at h
  cases h with
  | metadata | column | value | bare | func => simp_all
  | @binary op' l r left right hleft hright =>
    obtain ⟨-, rfl⟩ : op.name = op'.name ∧ payload = .arr [l, r] := by simpa using hj
    exact ⟨l, r, left, right, rfl, hleft, hright⟩
  | unary op' =>
    have hname : op.name = op'.name := by simp_all
    exact absurd (BinaryOp.read?_eq_some.mpr hname) (by simp [op'.binary_read?_name])

theorem ExprForm.of_unary {op : UnaryOp} {payload : Json} {e : Expr}
    (h : ExprForm (.obj [(op.name, payload)]) e) : ∃ operand, ExprForm payload operand := by
  obtain ⟨hmetadata, hcolumn, hvalue, hfunc⟩ := op.name_ne
  generalize hj : Json.obj [(op.name, payload)] = j at h
  cases h with
  | metadata | column | value | bare | func => simp_all
  | binary op' =>
    have hname : op'.name = op.name := by simp_all
    exact absurd (BinaryOp.read?_eq_some.mpr hname) (by simp [op.binary_read?_name])
  | @unary op' j operand hoperand =>
    obtain ⟨-, rfl⟩ : op.name = op'.name ∧ payload = j := by simpa using hj
    exact ⟨operand, hoperand⟩

/-- **A part of what has a form has a form itself.** -/
theorem Direct.hasForm {p p' : Part} {j j' : Json} (hdirect : Direct p j p' j') (h : p.HasForm j) :
    p'.HasForm j' := by
  cases hdirect with
  | insert hbody =>
    obtain ⟨key, body, hj, hinsert, -⟩ := h
    obtain rfl := Json.obj.inj hj
    obtain ⟨rfl, rfl⟩ := eq_of_get?_singleton hbody
    exact hinsert rfl
  | select hbody =>
    obtain ⟨key, body, hj, -, hselect⟩ := h
    obtain rfl := Json.obj.inj hj
    obtain ⟨rfl, rfl⟩ := eq_of_get?_singleton hbody
    exact hselect rfl
  | column hcolumns hitem =>
    obtain ⟨q, _, hj, hq⟩ := h
    obtain rfl := Json.obj.inj hj
    exact (hq.columns.exists_form hcolumns).exists_of_mem hitem
  | cell hvalues hrow hitem =>
    obtain ⟨q, _, hj, hq⟩ := h
    obtain rfl := Json.obj.inj hj
    obtain ⟨row, hrow⟩ := (hq.rows.exists_form hvalues).exists_of_mem hrow
    exact hrow.exists_of_mem hitem
  | output hcolumns hitem =>
    obtain ⟨_, outputs, filter, orderBy, hj, hq⟩ := h
    obtain rfl := Json.obj.inj hj
    exact (hq.columns.exists_form hcolumns).exists_of_mem hitem
  | filter hfilter hnull =>
    obtain ⟨_, outputs, filter, orderBy, hj, hq⟩ := h
    obtain rfl := Json.obj.inj hj
    have hform := hq.filter
    rw [optional_of_get? hfilter hnull] at hform
    obtain ⟨e, -, he⟩ := hform
    exact ⟨e, he⟩
  | sortKey horder hitem =>
    obtain ⟨_, outputs, filter, orderBy, hj, hq⟩ := h
    obtain rfl := Json.obj.inj hj
    have hform := hq.orderBy
    rw [optional_of_get? horder (by simp)] at hform
    exact ArrayForm.exists_of_mem hform hitem
  | sorted hexpr =>
    obtain ⟨s, _, hj, hs⟩ := h
    obtain rfl := Json.obj.inj hj
    exact ⟨s.expr, hs.expr.exists_form hexpr⟩
  | func hbody =>
    obtain ⟨e, he⟩ := h
    exact ⟨e, he.eq_singleton hbody ▸ he⟩
  | argument hargs hitem =>
    obtain ⟨e, he⟩ := h
    obtain ⟨_, args, hj, -, hform⟩ := he.of_func
    obtain rfl := Json.obj.inj hj
    rw [ArgsForm, hargs] at hform
    obtain ⟨items, hitems, hforms⟩ := hform
    exact ArrayForm.exists_of_mem ⟨items, hitems, exprForms_iff.mp hforms⟩ hitem
  | operand op hpayload hitem =>
    obtain ⟨e, he⟩ := h
    rw [he.eq_singleton hpayload] at he
    obtain ⟨l, r, left, right, hitems, hleft, hright⟩ := he.of_binary
    exact ArrayForm.exists_of_mem ⟨_, hitems, .cons hleft (.cons hright .nil)⟩ hitem
  | soleOperand op hpayload =>
    obtain ⟨e, he⟩ := h
    rw [he.eq_singleton hpayload] at he
    exact he.of_unary
  | columnRef =>
    obtain ⟨id, hid⟩ := h
    exact ⟨.column id, hid⟩
  | literal =>
    obtain ⟨v, hv⟩ := h
    exact ⟨.value v, hv⟩

/-- Parts at any depth have forms. -/
theorem Contains.hasForm {p p' : Part} {j j' : Json} (hcontains : Contains p j p' j')
    (h : p.HasForm j) : p'.HasForm j' := by
  induction hcontains with
  | self => exact h
  | within hdirect _ ih => exact ih (hdirect.hasForm h)

/-! ### Broken parts -/

/-- Where the keys are given, what has a form has no others. -/
theorem Part.HasForm.allowsOnly {p : Part} {allowed : List String} {members : Members Json}
    (h : p.HasForm (.obj members)) (hp : p.keys? = some allowed) : AllowsOnly allowed members := by
  cases p with
  | insert =>
    obtain ⟨q, _, hj, hq⟩ := h
    obtain rfl := Json.obj.inj hj
    obtain rfl := Option.some.inj hp
    exact hq.only
  | select =>
    obtain ⟨_, _, _, _, hj, hq⟩ := h
    obtain rfl := Json.obj.inj hj
    obtain rfl := Option.some.inj hp
    exact hq.only
  | sortKey =>
    obtain ⟨s, _, hj, hs⟩ := h
    obtain rfl := Json.obj.inj hj
    obtain rfl := Option.some.inj hp
    exact hs.only
  | func =>
    obtain ⟨e, he⟩ := h
    obtain ⟨_, _, hj, honly, -⟩ := he.of_func
    obtain rfl := Json.obj.inj hj
    obtain rfl := Option.some.inj hp
    exact honly
  | query | expr | columnRef | literal => cases hp

/-- **A broken part has no form.** -/
theorem Broken.not_hasForm {p : Part} {j : Json} (hbroken : Broken p j) : ¬p.HasForm j := by
  intro h
  cases hbroken with
  | unknownKey hp hkey hnot => exact hnot (h.allowsOnly hp _ hkey)
  | secondKey hp hmany =>
    rcases hp with rfl | rfl
    · obtain ⟨key, body, hj, -⟩ := h
      obtain rfl := Json.obj.inj hj
      exact absurd hmany (by simp)
    · obtain ⟨e, he⟩ := h
      obtain ⟨key, payload, hj⟩ := he.exists_key
      obtain rfl := Json.obj.inj hj
      exact absurd hmany (by simp)
  | operands op hpayload hcount =>
    obtain ⟨e, he⟩ := h
    rw [he.eq_singleton hpayload] at he
    obtain ⟨l, r, -, -, hpair, -⟩ := he.of_binary
    exact hcount l r hpair
  | notColumn hcolumn =>
    obtain ⟨id, hid⟩ := h
    cases hid
    exact hcolumn _ rfl
  | notLiteral hliteral =>
    obtain ⟨v, hv⟩ := h
    cases hv
    exact hliteral _ rfl

/-- The parts of a form of a query have forms. -/
theorem QueryForm.hasForm {limits : Limits} {document : Json} {q : Query}
    (h : QueryForm limits document q) : Part.query.HasForm document := by
  cases h with
  | @insert members q h => exact ⟨_, _, rfl, fun _ => ⟨q, members, rfl, h⟩, nofun⟩
  | @select members q h => exact ⟨_, _, rfl, nofun, fun _ => ⟨members, _, _, _, rfl, h.clauses⟩⟩
  | update members => exact ⟨_, _, rfl, nofun, nofun⟩
  | delete members => exact ⟨_, _, rfl, nofun, nofun⟩

/-- What the decoder does not refuse as malformed has a form. -/
theorem hasForm_or_malformed (limits : Limits) (document : Json) :
    Part.query.HasForm document ∨
      ∃ address f, decode limits document = .error (.malformed address f) := by
  have hmeets := meets_decode limits document
  cases hdecode : decode limits document with
  | ok q => exact .inl (decode_eq_ok.mp hdecode).hasForm
  | error e =>
    rw [hdecode] at hmeets
    rcases hmeets with ⟨address, f, rfl⟩ | ⟨body, rfl, hrefused⟩
    · exact .inr ⟨address, f, rfl⟩
    · exact .inl ⟨_, _, rfl, nofun, fun _ => hrefused.hasClauses⟩

/-! ### The grammar of the decoder -/

/-- **The decoder accepts its grammar.** For any limits: every query that may be accepted is read
back from the document that is written for it; every query that is read from any document may be
accepted, so that it too is read back; and a document that has a broken part at any depth is refused
as malformed. -/
theorem decoder_accepts_its_grammar (limits : Limits) :
    (∀ q : Query, q.Admissible limits → decode limits (encode q) = .ok q) ∧
      (∀ document q, decode limits document = .ok q →
        q.Admissible limits ∧ decode limits (encode q) = .ok q) ∧
      ∀ document part j, Contains .query document part j → Broken part j →
        ∃ address f, decode limits document = .error (.malformed address f) := by
  have hwritten : ∀ q : Query, q.Admissible limits → decode limits (encode q) = .ok q :=
    fun q hq => decode_eq_ok.mpr (queryForm_encode hq)
  refine ⟨hwritten, fun document q h => ?_, fun document part j hcontains hbroken => ?_⟩
  · have hq : q.Admissible limits := (decode_eq_ok.mp h).admissible
    exact ⟨hq, hwritten q hq⟩
  · refine (hasForm_or_malformed limits document).resolve_left fun h => ?_
    exact hbroken.not_hasForm (hcontains.hasForm h)

end TableStore.Query
