import TableStore.Proofs.Members
import TableStore.Proofs.Visits

/-!
# The first complaint is reported

Each reader of a part reports the first of the errors of its role (`Query.Role.errors`), and reads
the part if there are none. What is read one after the other has its errors one after the other, so
the lemma of a reader is put together like the reader, and like the visits of its role: fields that
have to be there, fields that may be absent, items of arrays. For whole documents this is
`Query.decode_reportsFirst`.
-/

namespace TableStore.Query

open Json (Address Step)

variable {limits : Limits} {address : Address} {role : Role} {j : Json} {members : Members Json}
  {α β : Type}

/-! ### Errors of roles -/

theorem errors_check (passed : Bool) (f : Fault) :
    (check passed f).flatMap (Visit.errors limits address j) =
      if passed then [] else [.malformed address f] := by
  cases passed <;> rfl

/-- The errors of a field: those of its value, if it is there. -/
def Slot.errors (limits : Limits) (address : Address) (members : Members Json) (s : Slot) :
    List QueryError :=
  match members.get? s.key with
  | some part => s.role.errors limits (address ++ [.key s.key]) part
  | none => s.absent.flatMap (Visit.errors limits address (.obj members))

theorem Slot.errors_visits (s : Slot) :
    (s.visits members.keys).flatMap (Visit.errors limits address (.obj members)) =
      s.errors limits address members := by
  rw [errors]
  cases h : members.get? s.key with
  | none =>
    have hmem : s.key ∉ members.keys := fun hmem => by
      obtain ⟨part, hpart⟩ := Members.mem_keys_iff.mp hmem
      cases h.symm.trans hpart
    rw [visits, if_neg hmem]
  | some part =>
    have hstep : (Json.obj members).step? (.key s.key) = some part := h
    rw [visits, if_pos (Members.mem_keys_iff.mpr ⟨part, h⟩), List.flatMap_singleton, Visit.errors,
      hstep]
    rfl

/-- The errors of an object: a field that is unknown, then those of its fields in their order. -/
theorem errors_objectVisits (slots : List Slot) :
    (objectVisits slots (.obj members)).flatMap (Visit.errors limits address (.obj members)) =
      (unknownField (slots.map Slot.key) members.keys).flatMap
          (Visit.errors limits address (.obj members)) ++
        slots.flatMap (Slot.errors limits address members) := by
  have hkeys : (Json.obj members).keys? = some members.keys := rfl
  rw [objectVisits, hkeys]
  dsimp only
  rw [List.flatMap_append, List.flatMap_assoc]
  exact congrArg _ (List.flatMap_congr fun s _ => s.errors_visits)

/-- The errors of the items of an array, from a position on. -/
def itemErrors (limits : Limits) (address : Address) (item : Role) (position : Nat)
    (items : List Json) : List QueryError :=
  (items.zipIdx position).flatMap fun x => item.errors limits (address ++ [.index x.2]) x.1

theorem errors_itemVisits (item : Role) (items : List Json) :
    (itemVisits item (.arr items)).flatMap (Visit.errors limits address (.arr items)) =
      itemErrors limits address item 0 items := by
  have hcount : (Json.arr items).count? = some items.length := rfl
  rw [itemVisits, hcount, List.flatMap_map, itemErrors, List.flatMap, List.flatMap]
  congr 1
  refine List.ext_getElem? fun i => ?_
  rw [List.getElem?_map, List.getElem?_map, List.getElem?_zipIdx]
  by_cases hi : i < items.length
  · have hstep : (Json.arr items).step? (.index i) = some items[i] := List.getElem?_eq_getElem hi
    rw [List.getElem?_range hi, List.getElem?_eq_getElem hi]
    simp only [Option.map_some, Visit.errors, hstep, Option.getD_some, Nat.zero_add]
  · rw [List.getElem?_eq_none (by simpa using hi), List.getElem?_eq_none (by simpa using hi)]
    rfl

theorem errors_expr (key : String) (payload : Json) :
    Role.expr.errors limits address (.obj [(key, payload)]) =
      (Role.ofKey key).errors limits (address ++ [.key key]) payload := by
  have hstep : (Json.obj [(key, payload)]).step? (.key key) = some payload := if_pos rfl
  have hvisits : Role.expr.visits limits (.obj [(key, payload)]) =
      [.part (.key key) (.ofKey key)] := rfl
  rw [Role.errors_eq, hvisits, List.flatMap_singleton, Visit.errors, hstep]
  rfl

theorem errors_func (members : Members Json) :
    Role.func.errors limits address (.obj members) =
      (unknownField ["name", "args"] members.keys).flatMap
          (Visit.errors limits address (.obj members)) ++
        ((Slot.required "name" .name).errors limits address members ++
          (Slot.optional "args" .args).errors limits address members) := by
  refine Role.errors_eq.trans ((errors_objectVisits _).trans ?_)
  simp only [Role.slots, List.flatMap_cons, List.flatMap_nil, List.append_nil]
  rfl

/-! ### Readers of expressions -/

/-- Where the only visit is a complaint. -/
theorem reportsFirst_fault {f : Fault} (h : role.visits limits j = [.complain (.fault f)]) :
    ReportsFirst (fault address f : Decoded α) (role.errors limits address j) := by
  rw [Role.errors_eq, h]
  exact rfl

/-- Where a check decides between a value and a fault. -/
theorem reportsFirst_check {passed : Bool} {f : Fault} {r : Decoded α}
    (hok : passed = true → ∃ a, r = .ok a)
    (hfault : passed = false → r = .error (.malformed address f)) :
    ReportsFirst r ((check passed f).flatMap (Visit.errors limits address j)) := by
  rw [errors_check]
  cases passed with
  | true => exact hok rfl
  | false => exact hfault rfl

/-- Where something that is looked for decides. -/
theorem reportsFirst_isSome {found : Option β} {f : Fault} {r : Decoded α}
    (hsome : ∀ b, found = some b → ∃ a, r = .ok a)
    (hnone : found = none → r = .error (.malformed address f)) :
    ReportsFirst r ((check found.isSome f).flatMap (Visit.errors limits address j)) := by
  cases found with
  | none => exact hnone rfl
  | some b => exact hsome b rfl

theorem allowOnly_reportsFirst (allowed : List String) :
    ReportsFirst (allowOnly address allowed members)
      ((unknownField allowed members.keys).flatMap
        (Visit.errors limits address (.obj members))) := by
  rw [allowOnly, unknownField]
  cases members.keys.find? fun key => !allowed.contains key with
  | none => exact ⟨(), rfl⟩
  | some key => exact rfl

/-- Reading a field that has to be there, and going on. -/
theorem required_reportsFirst {key : String} {read : Json → Decoded α} {later : List QueryError}
    (h : ∀ part,
      ReportsFirst (read part) (role.errors limits (address ++ [.key key]) part ++ later)) :
    ReportsFirst (required address key members >>= read)
      ((Slot.required key role).errors limits address members ++ later) := by
  have hkey : (Slot.required key role).key = key := rfl
  rw [required, Slot.errors, hkey]
  cases members.get? key with
  | none => exact rfl
  | some part => exact h part

theorem decodeMetadata_reportsFirst (payload : Json) :
    ReportsFirst (decodeMetadata address payload)
      (Role.metadata.errors limits address payload) := by
  rw [Role.errors_eq]
  refine reportsFirst_isSome (fun field h => ?_) fun h => ?_
  · exact ⟨_, by rw [decodeMetadata, h]⟩
  · rw [decodeMetadata, h]
    rfl

theorem decodeColumn_reportsFirst (payload : Json) :
    ReportsFirst (decodeColumn address payload) (Role.column.errors limits address payload) := by
  rw [Role.errors_eq]
  refine reportsFirst_isSome (fun id h => ?_) fun h => ?_
  · exact ⟨_, by rw [decodeColumn, h]⟩
  · rw [decodeColumn, h]
    rfl

theorem decodeName_reportsFirst :
    ReportsFirst (decodeName address members)
      ((Slot.required "name" .name).errors limits address members) := by
  rw [← List.append_nil (Slot.errors _ _ _ _)]
  refine required_reportsFirst fun name => ?_
  rw [Role.errors_eq]
  cases name with
  | str text => exact ⟨text, rfl⟩
  | _ => exact rfl

/-- Readers of expressions report the first error, by the recursion that they share. -/
theorem decode_expressions_reportsFirst (limits : Limits) :
    (∀ address j, ReportsFirst (decodeExpr address j) (Role.expr.errors limits address j)) ∧
      (∀ address members, ReportsFirst (decodeArgs address members)
        ((Slot.optional "args" .args).errors limits address members)) ∧
      ∀ address position items, ReportsFirst (decodeExprs address position items)
        (itemErrors limits address .expr position items) := by
  apply decodeExpr.mutual_induct
    (fun address j => ReportsFirst (decodeExpr address j) (Role.expr.errors limits address j))
    (fun address members => ReportsFirst (decodeArgs address members)
      ((Slot.optional "args" .args).errors limits address members))
    (fun address position items => ReportsFirst (decodeExprs address position items)
      (itemErrors limits address .expr position items))
  -- heads that are not operators
  case case1 =>
    intro address payload
    rw [decodeExpr.eq_def, errors_expr]
    exact decodeMetadata_reportsFirst payload
  case case2 =>
    intro address payload _
    rw [decodeExpr.eq_def, errors_expr]
    exact decodeColumn_reportsFirst payload
  case case3 =>
    intro address payload _ _
    rw [decodeExpr.eq_def, errors_expr, Role.errors_eq]
    exact ⟨_, rfl⟩
  case case4 =>
    intro address members inner _ _ _ hargs
    rw [decodeExpr_func, errors_expr]
    show ReportsFirst _ (Role.func.errors limits inner (.obj members))
    rw [errors_func]
    exact (allowOnly_reportsFirst _).bind fun _ _ =>
      decodeName_reportsFirst.bind fun name _ => hargs.map
  case case5 =>
    intro address payload hpayload _ _ _
    rw [decodeExpr.eq_def, errors_expr]
    cases payload with
    | obj members => exact absurd rfl (hpayload members)
    | _ => exact reportsFirst_fault rfl
  -- operators, and keys that are none
  case case6 =>
    intro address key inner hmetadata hcolumn hvalue hfunc op hop l r hleft hright
    have hrole : Role.ofKey key = .operands := by
      simp only [Role.ofKey, hmetadata, hcolumn, hvalue, hfunc, hop, if_false]
    have herrors : Role.operands.errors limits inner (.arr [l, r]) =
        Role.expr.errors limits (inner ++ [.index 0]) l ++
          Role.expr.errors limits (inner ++ [.index 1]) r := by
      refine Role.errors_eq.trans ((errors_itemVisits _ _).trans ?_)
      simp [itemErrors]
    rw [decodeExpr.eq_def, errors_expr, hrole, herrors]
    simp only [hmetadata, hcolumn, hvalue, hfunc, hop, if_false]
    exact hleft.bind fun left _ => hright.map
  case case7 =>
    intro address key hmetadata hcolumn hvalue hfunc op hop items hitems
    have hrole : Role.ofKey key = .operands := by
      simp only [Role.ofKey, hmetadata, hcolumn, hvalue, hfunc, hop, if_false]
    have hvisits : Role.operands.visits limits (.arr items) =
        [.complain (.fault (.operandCount items.length))] := by
      have hcount : (Json.arr items).count? = some items.length := rfl
      rw [Role.visits, hcount]
      split
      · next h =>
        obtain ⟨l, r, rfl⟩ := List.length_eq_two.mp (Option.some.inj h)
        exact absurd rfl (hitems l r)
      · next h =>
        obtain rfl := Option.some.inj h
        rfl
      · next h => cases h
    rw [decodeExpr.eq_def, errors_expr, hrole]
    simp only [hmetadata, hcolumn, hvalue, hfunc, hop, if_false]
    exact reportsFirst_fault hvisits
  case case8 =>
    intro address key payload hmetadata hcolumn hvalue hfunc op hop hpair hitems
    have hrole : Role.ofKey key = .operands := by
      simp only [Role.ofKey, hmetadata, hcolumn, hvalue, hfunc, hop, if_false]
    rw [decodeExpr.eq_def, errors_expr, hrole]
    simp only [hmetadata, hcolumn, hvalue, hfunc, hop, if_false]
    cases payload with
    | arr items => exact absurd rfl (hitems items)
    | _ => exact reportsFirst_fault rfl
  case case9 =>
    intro address key payload inner hmetadata hcolumn hvalue hfunc op hop hbinary hoperand
    have hrole : Role.ofKey key = .expr := by
      simp only [Role.ofKey, hmetadata, hcolumn, hvalue, hfunc, hop, hbinary, if_false]
    rw [decodeExpr.eq_def, errors_expr, hrole]
    simp only [hmetadata, hcolumn, hvalue, hfunc, hop, hbinary, if_false]
    exact hoperand.map
  case case10 =>
    intro address key payload hmetadata hcolumn hvalue hfunc hunary hbinary
    have hrole : Role.ofKey key = .unknown key := by
      simp only [Role.ofKey, hmetadata, hcolumn, hvalue, hfunc, hunary, hbinary, if_false]
    rw [decodeExpr.eq_def, errors_expr, hrole]
    simp only [hmetadata, hcolumn, hvalue, hfunc, hunary, hbinary, if_false]
    exact reportsFirst_fault rfl
  -- documents that are not objects with one key
  case case11 =>
    intro address members hmembers
    have hvisits : Role.expr.visits limits (.obj members) = [.complain (.fault .notOneKey)] := by
      rcases members with _ | ⟨m, _ | ⟨m', rest⟩⟩
      · rfl
      · exact absurd rfl (hmembers m.1 m.2)
      · rfl
    rw [decodeExpr.eq_3 _ _ hmembers]
    exact reportsFirst_fault hvisits
  case case12 =>
    intro j address hone hobj
    cases j with
    | obj members => exact absurd rfl (hobj members)
    | _ =>
      rw [decodeExpr.eq_def]
      exact reportsFirst_fault rfl
  -- lists of expressions
  case case13 =>
    intro address position
    exact ⟨[], rfl⟩
  case case14 =>
    intro address position item rest hitem hrest
    rw [decodeExprs, itemErrors, List.zipIdx_cons, List.flatMap_cons]
    exact hitem.bind fun e _ => hrest.map
  -- the members of a function, up to its arguments
  case case15 =>
    intro address
    exact ⟨[], rfl⟩
  case case16 =>
    intro address rest items hitems
    have herrors :
        (Slot.optional "args" .args).errors limits address (("args", .arr items) :: rest) =
          itemErrors limits (address ++ [.key "args"]) .expr 0 items :=
      Role.errors_eq.trans (errors_itemVisits _ _)
    rw [decodeArgs.eq_def, herrors]
    exact hitems
  case case17 =>
    intro address value rest hvalue
    rw [decodeArgs.eq_def]
    cases value with
    | arr items => exact absurd rfl (hvalue items)
    | _ =>
      show ReportsFirst _ (Role.args.errors limits (address ++ [.key "args"]) _)
      exact reportsFirst_fault rfl
  case case18 =>
    intro address key value rest hkey hrest
    have herrors : (Slot.optional "args" .args).errors limits address ((key, value) :: rest) =
        (Slot.optional "args" .args).errors limits address rest := by
      have hget : Members.get? "args" ((key, value) :: rest) = Members.get? "args" rest :=
        if_neg (Ne.symm hkey)
      simp only [Slot.errors, Slot.optional, hget, List.flatMap_nil]
    rw [decodeArgs_cons_of_ne _ hkey, herrors]
    exact hrest

/-! ### Readers of queries -/

theorem decodeExpr_reportsFirst (address : Address) (j : Json) :
    ReportsFirst (decodeExpr address j) (Role.expr.errors limits address j) :=
  (decode_expressions_reportsFirst limits).1 address j

/-- Reading each item of an array. -/
theorem decodeEach_reportsFirst {read : Address → Json → Decoded α} {item : Role}
    (h : ∀ address j, ReportsFirst (read address j) (item.errors limits address j))
    (address : Address) (items : List Json) :
    ReportsFirst (decodeEach address read items) (itemErrors limits address item 0 items) := by
  suffices hfrom : ∀ position, ReportsFirst ((items.zipIdx position).mapM fun item =>
      read (address ++ [.index item.2]) item.1) (itemErrors limits address item position items) from
    hfrom 0
  induction items with
  | nil => exact fun _ => ⟨[], rfl⟩
  | cons first rest ih =>
    intro position
    rw [List.zipIdx_cons, List.mapM_cons, itemErrors, List.zipIdx_cons, List.flatMap_cons]
    exact (h _ first).bind fun a _ => (ih _).map

/-- Reading each item of an array, and going on. -/
theorem items_reportsFirst {read : List Json → Decoded α} {item : Role} {later : List QueryError}
    (h : ∀ items, ReportsFirst (read items) (itemErrors limits address item 0 items ++ later)) :
    ReportsFirst (asArray address j >>= read)
      ((itemVisits item j).flatMap (Visit.errors limits address j) ++ later) := by
  cases j with
  | arr items =>
    rw [errors_itemVisits]
    exact h items
  | _ => exact rfl

/-- The same where the array has to have items. -/
theorem some_items_reportsFirst {read : List Json → Decoded α} {item : Role} {f : Fault}
    {later : List QueryError} (hempty : read [] = fault address f)
    (h : ∀ i rest, ReportsFirst (read (i :: rest))
      (itemErrors limits address item 0 (i :: rest) ++ later)) :
    ReportsFirst (asArray address j >>= read)
      ((if j.count? = some 0 then [.complain (.fault f)] else itemVisits item j).flatMap
        (Visit.errors limits address j) ++ later) := by
  cases j with
  | arr items =>
    cases items with
    | nil => exact hempty
    | cons i rest =>
      have hcount : (Json.arr (i :: rest)).count? ≠ some 0 := fun h => by cases h
      rw [if_neg hcount, errors_itemVisits]
      exact h i rest
  | _ => exact rfl

/-- Reading an expression that has to be of a kind, which its key tells. -/
theorem kind_reportsFirst {key : String} {f : Fault} {pick : Expr → Decoded α}
    (hpick : ∀ e, ExprForm j e → if j.keys? = some [key] then ∃ a, pick e = .ok a
      else pick e = fault address f) :
    ReportsFirst (decodeExpr address j >>= pick)
      ((exprVisits j ++ check (j.keys? == some [key]) f).flatMap
        (Visit.errors limits address j)) := by
  have hexpr : ReportsFirst (decodeExpr address j)
      ((exprVisits j).flatMap (Visit.errors limits address j)) := by
    have herrors : Role.expr.errors limits address j =
        (exprVisits j).flatMap (Visit.errors limits address j) := Role.errors_eq
    exact herrors ▸ decodeExpr_reportsFirst address j
  rw [List.flatMap_append]
  refine hexpr.bind fun e he => ?_
  have hmeets := meets_decodeExpr address j
  rw [he] at hmeets
  have he := hpick e hmeets
  refine reportsFirst_check (fun h => ?_) fun h => ?_
  · rwa [if_pos (by simpa using h)] at he
  · rwa [if_neg (by simpa using h)] at he

theorem decodeColumnRef_reportsFirst (address : Address) (j : Json) :
    ReportsFirst (decodeColumnRef address j) (Role.columnRef.errors limits address j) := by
  rw [Role.errors_eq]
  refine kind_reportsFirst fun e he => ?_
  cases he with
  | column hid => exact ⟨_, rfl⟩
  | binary op _ _ => cases op <;> rfl
  | unary op _ => cases op <;> rfl
  | _ => rfl

theorem decodeLiteral_reportsFirst (address : Address) (j : Json) :
    ReportsFirst (decodeLiteral address j) (Role.cell.errors limits address j) := by
  rw [Role.errors_eq]
  refine kind_reportsFirst fun e he => ?_
  cases he with
  | value literal => exact ⟨_, rfl⟩
  | binary op _ _ => cases op <;> rfl
  | unary op _ => cases op <;> rfl
  | _ => rfl

theorem decodeRow_reportsFirst (address : Address) (j : Json) :
    ReportsFirst (decodeRow address j) (Role.row.errors limits address j) := by
  rw [Role.errors_eq, ← List.append_nil (List.flatMap _ _)]
  refine items_reportsFirst fun items => ?_
  rw [List.append_nil]
  exact decodeEach_reportsFirst decodeLiteral_reportsFirst address items

/-- Reading an object with the given fields. -/
theorem object_reportsFirst (slots : List Slot) {read : Members Json → Decoded α}
    (h : ∀ members, ReportsFirst (read members)
      (slots.flatMap (Slot.errors limits address members))) :
    ReportsFirst (do
        let members ← asObject address j
        allowOnly address (slots.map Slot.key) members
        read members)
      ((objectVisits slots j).flatMap (Visit.errors limits address j)) := by
  cases j with
  | obj members =>
    rw [errors_objectVisits]
    exact (allowOnly_reportsFirst _).bind fun _ _ => h members
  | _ => exact rfl

/-- Reading a field that may be absent or `null`. -/
theorem optional_reportsFirst {s : Slot} {read : Json → Decoded α} {r : Decoded α}
    (hnull : ReportsFirst r (s.role.errors limits (address ++ [.key s.key]) .null))
    (habsent : ReportsFirst r (s.absent.flatMap (Visit.errors limits address (.obj members))))
    (h : ∀ part, part ≠ .null →
      ReportsFirst (read part) (s.role.errors limits (address ++ [.key s.key]) part)) :
    ReportsFirst (match optional s.key members with
        | none => r
        | some part => read part) (s.errors limits address members) := by
  rw [optional, Slot.errors]
  cases members.get? s.key with
  | none => exact habsent
  | some part =>
    cases part with
    | null => exact hnull
    | _ => exact h _ (by simp)

theorem decodeDirection_reportsFirst :
    ReportsFirst (decodeDirection address members)
      ((Slot.optional "direction" .direction).errors limits address members) := by
  refine optional_reportsFirst (s := .optional "direction" .direction) ?_ ⟨_, rfl⟩ fun d hd => ?_
  · rw [Role.errors_eq]
    exact ⟨_, rfl⟩
  · have hvisits : (Slot.optional "direction" .direction).role.visits limits d =
        check (d.text?.bind Direction.read?).isSome .notDirection := by
      cases d with
      | null => exact absurd rfl hd
      | _ => rfl
    rw [Role.errors_eq, hvisits]
    refine reportsFirst_isSome (fun direction h => ?_) fun h => ?_
    · exact ⟨direction, by rw [h]⟩
    · rw [h]
      rfl

theorem decodeSortExpr_reportsFirst (address : Address) (j : Json) :
    ReportsFirst (decodeSortExpr address j) (Role.sort.errors limits address j) := by
  rw [Role.errors_eq]
  refine object_reportsFirst (Role.sort.slots limits) fun members => ?_
  simp only [Role.slots, List.flatMap_cons, List.flatMap_nil, List.append_nil]
  exact required_reportsFirst fun inner => (decodeExpr_reportsFirst _ inner).bind fun e _ =>
    decodeDirection_reportsFirst.map

theorem decodeInsert_reportsFirst (j : Json) :
    ReportsFirst (decodeInsert j) (Role.insert.errors limits [] j) := by
  rw [Role.errors_eq]
  refine object_reportsFirst (Role.insert.slots limits) fun members => ?_
  refine required_reportsFirst fun columns => ?_
  rw [Role.errors_eq]
  refine items_reportsFirst fun items => ?_
  refine (decodeEach_reportsFirst decodeColumnRef_reportsFirst _ items).bind fun ids _ => ?_
  refine required_reportsFirst fun values => ?_
  rw [Role.errors_eq]
  refine some_items_reportsFirst rfl fun row rest => ?_
  exact (decodeEach_reportsFirst decodeRow_reportsFirst _ (row :: rest)).bind fun rows _ =>
    ⟨⟨ids, rows⟩, rfl⟩

theorem decodeFilter_reportsFirst :
    ReportsFirst (decodeFilter members)
      ((Slot.optional "where" .filter).errors limits [] members) := by
  refine optional_reportsFirst (s := .optional "where" .filter) ?_ ⟨_, rfl⟩ fun j hj => ?_
  · rw [Role.errors_eq]
    exact ⟨_, rfl⟩
  · have hvisits : (Slot.optional "where" .filter).role.visits limits j =
        Role.expr.visits limits j := by
      cases j with
      | null => exact absurd rfl hj
      | _ => rfl
    rw [Role.errors_eq, hvisits, ← Role.errors_eq]
    exact (decodeExpr_reportsFirst _ j).map

theorem decodeOrderBy_reportsFirst :
    ReportsFirst (decodeOrderBy members)
      ((Slot.optional "order_by" .sorts).errors limits [] members) := by
  refine optional_reportsFirst (s := .optional "order_by" .sorts) ?_ ⟨_, rfl⟩ fun j hj => ?_
  · rw [Role.errors_eq]
    exact ⟨_, rfl⟩
  · have hvisits : (Slot.optional "order_by" .sorts).role.visits limits j = itemVisits .sort j := by
      cases j with
      | null => exact absurd rfl hj
      | _ => rfl
    rw [Role.errors_eq, hvisits, ← List.append_nil (List.flatMap _ _)]
    refine items_reportsFirst fun items => ?_
    rw [List.append_nil]
    exact decodeEach_reportsFirst decodeSortExpr_reportsFirst _ items

/-- Reading a part of a window, and comparing it with the greatest value. -/
theorem decodeBounded_reportsFirst (window : Window) {key : String} {default max : Nat}
    (hvisits : ∀ j, role.visits limits j = windowVisits window default max j) :
    ReportsFirst (decodeBounded key default max window.tooLarge members)
      (Slot.errors limits [] members ⟨key, role, windowVisits window default max .null⟩) := by
  have hbound (n : Nat) (address : Address) (j : Json) :
      ReportsFirst (if max < n then .error (window.tooLarge n max) else .ok n : Decoded Nat)
        ((if max < n then [.complain (.tooLarge window n max)] else []).flatMap
          (Visit.errors limits address j)) := by
    split
    case isTrue => exact rfl
    case isFalse => exact ⟨n, rfl⟩
  have hread (j : Json) (hnull : j.isNull = false) :
      ReportsFirst (asNatural [.key key] j >>= fun n =>
          if max < n then .error (window.tooLarge n max) else .ok n)
        (role.errors limits [.key key] j) := by
    rw [Role.errors_eq, hvisits]
    simp only [windowVisits, hnull, Bool.false_eq_true, if_false]
    rw [asNatural]
    cases j.natural? with
    | none => exact rfl
    | some n => exact hbound n _ j
  unfold decodeBounded
  rw [optional, Slot.errors]
  cases members.get? key with
  | none => exact hbound default [] _
  | some j =>
    cases j with
    | null =>
      dsimp only
      rw [Role.errors_eq, hvisits]
      exact hbound default _ .null
    | _ => exact hread _ rfl

theorem decodeSelect_reportsFirst (limits : Limits) (j : Json) :
    ReportsFirst (decodeSelect limits j) (Role.select.errors limits [] j) := by
  rw [Role.errors_eq]
  refine object_reportsFirst (Role.select.slots limits) fun members => ?_
  refine required_reportsFirst fun columns => ?_
  rw [Role.errors_eq]
  refine some_items_reportsFirst rfl fun item rest => ?_
  refine ((decode_expressions_reportsFirst limits).2.2 _ 0 (item :: rest)).bind fun es hes => ?_
  have hsome : es.isEmpty = false := by
    have hmeets := meets_decodeExprs [.key "columns"] 0 (item :: rest)
    rw [hes] at hmeets
    obtain ⟨e, more, -, -, rfl⟩ := List.forall₂_cons_left_iff.mp hmeets
    rfl
  rw [hsome]
  have hoffset : ReportsFirst (decodeOffset members)
      (Slot.errors limits [] members ⟨"offset", .offset, offsetVisits .null⟩) :=
    decodeOffset_eq members ▸ decodeBounded_reportsFirst .offset fun _ => rfl
  have hlimit : ReportsFirst (decodeLimit limits members)
      (Slot.errors limits [] members ⟨"limit", .limit, limitVisits limits .null⟩) :=
    decodeLimit_eq limits members ▸ decodeBounded_reportsFirst .limit fun _ => rfl
  exact decodeFilter_reportsFirst.bind fun filter _ =>
    decodeOrderBy_reportsFirst.bind fun orderBy _ => hoffset.bind fun offset _ =>
      hlimit.bind fun limit _ => ⟨⟨es, filter, orderBy, offset, limit⟩, rfl⟩

/-- Reading the body of a query that says nothing. -/
theorem asObject_reportsFirst (j : Json) {q : Query} :
    ReportsFirst (asObject [] j >>= fun _ => .ok q) (Role.bare.errors limits [] j) := by
  rw [Role.errors_eq]
  cases j with
  | obj members => exact ⟨q, rfl⟩
  | _ => exact rfl

theorem decode_body_reportsFirst (limits : Limits) (kind : Kind) (body : Json) :
    ReportsFirst (decode limits (.obj [(kind.name, body)]))
      ((Role.ofKind kind).errors limits [] body) := by
  cases kind with
  | insert => exact (decodeInsert_reportsFirst body).map
  | select => exact (decodeSelect_reportsFirst limits body).map
  | update => exact asObject_reportsFirst body
  | delete => exact asObject_reportsFirst body

/-- **The decoder reports the first complaint.** Addresses in its errors start in the body of the
query, those of complaints at the key of its kind. -/
theorem decode_reportsFirst (limits : Limits) (j : Json) :
    ReportsFirst (decode limits j)
      ((Role.document.complaints limits j).map fun (a, c) => c.error a.tail) := by
  cases j with
  | obj members =>
    rcases members with _ | ⟨⟨key, body⟩, _ | ⟨m, rest⟩⟩
    · rw [Role.complaints_eq]
      exact rfl
    · have hvisits : Role.document.visits limits (.obj [(key, body)]) = [kindVisit key] := rfl
      rw [Role.complaints_eq, hvisits, List.flatMap_singleton, kindVisit]
      cases hkind : Kind.read? key with
      | none =>
        simp only [decode, oneKey, bind, Except.bind, hkind]
        exact rfl
      | some kind =>
        obtain rfl := Kind.read?_eq_some.mp hkind
        have hstep : (Json.obj [(kind.name, body)]).step? (.key kind.name) = some body := if_pos rfl
        have herrors := decode_body_reportsFirst limits kind body
        rw [Role.errors] at herrors
        rw [Visit.complaints, hstep, Option.map_some, Option.getD_some, List.map_map]
        exact herrors
    · rw [Role.complaints_eq]
      exact rfl
  | _ =>
    rw [Role.complaints_eq]
    exact rfl

end TableStore.Query
