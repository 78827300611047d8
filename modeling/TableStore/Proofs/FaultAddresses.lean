import TableStore.Proofs.Stops

/-!
# The address in an error

A document that has no form is refused with a fault and an address. The part where the decoder stops
has this fault (`Query.trueOf_of_visits`); where it is the payload of an expression, the expression
is the part around it (`Query.Stops.payload`). So the address in an error is that of the fault:
`Query.decode_error_points_at_fault`.
-/

namespace TableStore.Query

open Json (Address Step)

variable {limits : Limits} {role : Role} {j : Json} {stop : Stop}

/-! ### What the fault is -/

/-- The fields that an object in a role has to have. -/
def Role.needs : Role → List String
  | .insert => ["columns", "values"]
  | .select => ["columns"]
  | .sort => ["expr"]
  | .func => ["name"]
  | _ => []

/-- The part has the fault. -/
def Fault.TrueOf (role : Role) (node : Json) : Fault → Prop
  | .notAnObject => ∀ members, node ≠ .obj members
  | .notAnArray => ∀ items, node ≠ .arr items
  | .notNatural => node ≠ .null ∧ ∀ n, ¬ NaturalForm node n
  | .notText => ∀ text, node ≠ .str text
  | .notOneKey => ∃ members, node = .obj members ∧ members.length ≠ 1
  | .unknownField key =>
    ∃ members : Members Json, node = .obj members ∧ key ∈ members.keys ∧ key ∉ role.fields
  | .missingField key =>
    ∃ members : Members Json, node = .obj members ∧ key ∉ members.keys ∧ key ∈ role.needs
  | .unknownKind key => ∃ body, node = .obj [(key, body)] ∧ ∀ kind : Kind, kind.name ≠ key
  | .unknownExpression key => ∀ payload e, ¬ ExprForm (.obj [(key, payload)]) e
  | .notMetadata => ∀ field : Metadata, node ≠ .str field.name
  | .notColumnId => ∀ text id, node = .str text → Uuid.read? text ≠ some id
  | .notDirection => node ≠ .null ∧ ∀ d, ¬ DirectionForm node d
  | .notColumn => ∀ id, ¬ ColumnForm node id
  | .notValue => ∀ literal, ¬ LiteralForm node literal
  | .operandCount count => ∃ items, node = .arr items ∧ items.length = count ∧ count ≠ 2
  | .noRows => node = .arr []
  | .noColumns => node = .arr []

theorem mem_check {passed : Bool} {f : Fault} {c : Complaint} :
    .complain c ∈ check passed f ↔ passed = false ∧ c = .fault f := by
  cases passed <;> simp [check]

section Complains

variable {f f' : Fault}

theorem eq_of_mem_singleton (h : .complain (.fault f) ∈ [Visit.complain (.fault f')]) : f = f' :=
  Complaint.fault.inj (Visit.complain.inj (List.mem_singleton.mp h))

theorem trueOf_of_items {item : Role} (h : .complain (.fault f) ∈ itemVisits item j) :
    f.TrueOf role j := by
  rw [itemVisits] at h
  cases hcount : j.count? with
  | none =>
    rw [hcount] at h
    obtain rfl := eq_of_mem_singleton h
    exact Json.count?_eq_none.mp hcount
  | some n =>
    rw [hcount] at h
    simp at h

theorem trueOf_of_payload {visit : String → Visit}
    (hvisit : ∀ key payload, j = .obj [(key, payload)] → visit key = .complain (.fault f) →
      f.TrueOf role j)
    (h : .complain (.fault f) ∈ payloadVisits visit j) : f.TrueOf role j := by
  cases j with
  | obj members =>
    rcases members with _ | ⟨⟨key, payload⟩, _ | ⟨m, rest⟩⟩
    · obtain rfl := eq_of_mem_singleton h
      exact ⟨[], rfl, by simp⟩
    · exact hvisit key payload rfl (List.mem_singleton.mp h).symm
    · obtain rfl := eq_of_mem_singleton h
      exact ⟨_, rfl, by simp⟩
  | _ =>
    obtain rfl := eq_of_mem_singleton h
    exact fun _ h => by cases h

theorem trueOf_of_expr (h : .complain (.fault f) ∈ exprVisits j) : f.TrueOf role j :=
  trueOf_of_payload (fun _ _ _ h => by cases h) h

theorem mem_windowVisits {window : Window} {default max : Nat}
    (h : .complain (.fault f) ∈ windowVisits window default max j) :
    f = .notNatural ∧ j.isNull = false ∧ j.natural? = none := by
  rw [windowVisits] at h
  cases hnumber : if j.isNull then some default else j.natural? with
  | none =>
    rw [hnumber] at h
    split at hnumber
    case isTrue => cases hnumber
    case isFalse hnull =>
      exact ⟨eq_of_mem_singleton h, by simpa using hnull, hnumber⟩
  | some n =>
    rw [hnumber] at h
    dsimp only at h
    split at h
    · cases Visit.complain.inj (List.mem_singleton.mp h)
    · cases h

theorem trueOf_of_window {window : Window} {default max : Nat}
    (h : .complain (.fault f) ∈ windowVisits window default max j) : f.TrueOf role j := by
  obtain ⟨rfl, hnull, hnatural⟩ := mem_windowVisits h
  refine ⟨?_, ?_⟩
  · rintro rfl
    cases hnull
  · rintro n rfl
    cases hnatural

/-- What is said of a field that is absent. -/
theorem mem_absent {s : Slot} (hslot : s ∈ role.slots limits)
    (h : .complain (.fault f) ∈ s.absent) : f = .missingField s.key ∧ s.key ∈ role.needs := by
  have hrequired {key : String} {r : Role}
      (h : .complain (.fault f) ∈ (Slot.required key r).absent) : f = .missingField key :=
    eq_of_mem_singleton h
  have hoptional {key : String} {r : Role} :
      .complain (.fault f) ∉ (Slot.optional key r).absent := List.not_mem_nil
  have hoffset : .complain (.fault f) ∉ offsetVisits .null := fun h => by
    cases (mem_windowVisits h).2.1
  have hlimit : .complain (.fault f) ∉ limitVisits limits .null := fun h => by
    cases (mem_windowVisits h).2.1
  cases role with
  | insert =>
    rcases List.mem_cons.mp hslot with rfl | hslot
    · exact ⟨hrequired h, by decide⟩
    · obtain rfl := List.mem_singleton.mp hslot
      exact ⟨hrequired h, by decide⟩
  | select =>
    simp only [Role.slots, List.mem_cons, List.not_mem_nil, or_false] at hslot
    rcases hslot with rfl | rfl | rfl | rfl | rfl
    · exact ⟨hrequired h, by decide⟩
    · exact absurd h hoptional
    · exact absurd h hoptional
    · exact absurd h hoffset
    · exact absurd h hlimit
  | sort =>
    rcases List.mem_cons.mp hslot with rfl | hslot
    · exact ⟨hrequired h, by decide⟩
    · obtain rfl := List.mem_singleton.mp hslot
      exact absurd h hoptional
  | func =>
    rcases List.mem_cons.mp hslot with rfl | hslot
    · exact ⟨hrequired h, by decide⟩
    · obtain rfl := List.mem_singleton.mp hslot
      exact absurd h hoptional
  | _ => cases hslot

theorem trueOf_of_object (h : .complain (.fault f) ∈ objectVisits (role.slots limits) j) :
    f.TrueOf role j := by
  rw [objectVisits] at h
  cases hkeys : j.keys? with
  | none =>
    rw [hkeys] at h
    obtain rfl := eq_of_mem_singleton h
    exact Json.keys?_eq_none.mp hkeys
  | some keys =>
    obtain ⟨members, rfl, rfl⟩ := Json.keys?_eq_some.mp hkeys
    rw [hkeys] at h
    rcases List.mem_append.mp h with h | h
    · rw [unknownField, Role.map_key_slots] at h
      cases hfind : (Members.keys members).find? fun key => !role.fields.contains key with
      | none =>
        rw [hfind] at h
        cases h
      | some key =>
        rw [hfind] at h
        obtain rfl := eq_of_mem_singleton h
        exact ⟨members, rfl, List.mem_of_find?_eq_some hfind, by simpa using List.find?_some hfind⟩
    · obtain ⟨slot, hslot, hmem⟩ := List.mem_flatMap.mp h
      rw [Slot.visits] at hmem
      split at hmem
      case isTrue => cases List.mem_singleton.mp hmem
      case isFalse hnot =>
        obtain ⟨rfl, hneeds⟩ := mem_absent hslot hmem
        exact ⟨members, rfl, hnot, hneeds⟩

theorem trueOf_of_some_items {item : Role}
    (h : .complain (.fault f) ∈
      if j.count? = some 0 then [.complain (.fault f')] else itemVisits item j)
    (hempty : j = .arr [] → f'.TrueOf role j) : f.TrueOf role j := by
  split at h
  case isTrue hzero =>
    obtain rfl := eq_of_mem_singleton h
    obtain ⟨items, rfl, hlength⟩ := Json.count?_eq_some.mp hzero
    exact hempty (by rw [List.length_eq_zero_iff.mp hlength])
  case isFalse => exact trueOf_of_items h

/-- A part has the faults that the decoder complains of. -/
theorem trueOf_of_visits (hrole : ∀ key, role = .unknown key → Role.ofKey key = .unknown key)
    (h : .complain (.fault f) ∈ role.visits limits j) : f.TrueOf role j := by
  have hcheck {passed : Bool} {f' : Fault} (h : .complain (.fault f) ∈ check passed f') :
      passed = false ∧ f = f' := by
    obtain ⟨hpassed, hf⟩ := mem_check.mp h
    exact ⟨hpassed, Complaint.fault.inj hf⟩
  cases role with
  | document =>
    refine trueOf_of_payload (fun key payload hj h => ?_) h
    rw [kindVisit] at h
    cases hkind : Kind.read? key with
    | some kind =>
      rw [hkind] at h
      cases h
    | none =>
      rw [hkind] at h
      obtain rfl := Complaint.fault.inj (Visit.complain.inj h)
      refine ⟨payload, hj, fun kind hname => ?_⟩
      cases hkind.symm.trans (Kind.read?_eq_some.mpr hname)
  | insert => exact trueOf_of_object h
  | select => exact trueOf_of_object h
  | sort => exact trueOf_of_object h
  | func => exact trueOf_of_object h
  | bare =>
    obtain ⟨hpassed, rfl⟩ := hcheck h
    exact Json.keys?_eq_none.mp (by simpa using hpassed)
  | columnRef =>
    rcases List.mem_append.mp h with h | h
    · exact trueOf_of_expr h
    · obtain ⟨hpassed, rfl⟩ := hcheck h
      intro id hid
      cases hid
      simp [Json.keys?, Json.members?, Members.keys] at hpassed
  | cell =>
    rcases List.mem_append.mp h with h | h
    · exact trueOf_of_expr h
    · obtain ⟨hpassed, rfl⟩ := hcheck h
      intro id hid
      cases hid
      simp [Json.keys?, Json.members?, Members.keys] at hpassed
  | rows => exact trueOf_of_some_items h id
  | outputs => exact trueOf_of_some_items h id
  | columnRefs => exact trueOf_of_items h
  | row => exact trueOf_of_items h
  | args => exact trueOf_of_items h
  | filter =>
    rw [Role.visits] at h
    split at h
    · cases h
    · exact trueOf_of_expr h
  | sorts =>
    rw [Role.visits] at h
    split at h
    · cases h
    · exact trueOf_of_items h
  | direction =>
    obtain ⟨hpassed, rfl⟩ := hcheck h
    refine ⟨?_, ?_⟩
    · rintro rfl
      cases hpassed
    · rintro d ⟨text, rfl, hread⟩
      simp [Json.isNull, Json.text?, hread] at hpassed
  | offset => exact trueOf_of_window h
  | limit => exact trueOf_of_window h
  | expr => exact trueOf_of_expr h
  | metadata =>
    obtain ⟨hpassed, rfl⟩ := hcheck h
    rintro field rfl
    simp [Json.text?, Metadata.read?_eq_some.mpr rfl] at hpassed
  | column =>
    obtain ⟨hpassed, rfl⟩ := hcheck h
    rintro text id rfl hread
    simp [Json.text?, hread] at hpassed
  | literal => cases h
  | name =>
    obtain ⟨hpassed, rfl⟩ := hcheck h
    rintro text rfl
    cases hpassed
  | operands =>
    rw [Role.visits] at h
    split at h
    · exact trueOf_of_items h
    · next count hne hcount =>
      obtain rfl := eq_of_mem_singleton h
      obtain ⟨items, rfl, hlength⟩ := Json.count?_eq_some.mp hcount
      exact ⟨items, rfl, hlength, fun htwo => hne htwo⟩
    · next hcount =>
      obtain rfl := eq_of_mem_singleton h
      exact Json.count?_eq_none.mp hcount
  | unknown key =>
    obtain rfl := eq_of_mem_singleton h
    intro payload e he
    have hnil : (Role.ofKey key).complaints limits payload = [] :=
      (complaints_ofKey key).mpr ⟨e, he⟩
    rw [hrole key rfl, Role.complaints_eq] at hnil
    cases hnil

end Complains

/-! ### Payloads of expressions -/

/-- What stands under the key of an expression, but for the operand of an operator with one operand,
which is an expression itself. -/
def Role.IsPayload : Role → Prop
  | .metadata | .column | .literal | .func | .operands | .unknown _ => True
  | _ => False

/-- No field of an object is a payload. -/
theorem Role.not_isPayload_of_mem_slots {slot : Slot} (h : slot ∈ role.slots limits) :
    ¬ slot.role.IsPayload := by
  cases role with
  | insert =>
    simp only [slots, List.mem_cons, List.not_mem_nil, or_false] at h
    rcases h with rfl | rfl <;> exact id
  | select =>
    simp only [slots, List.mem_cons, List.not_mem_nil, or_false] at h
    rcases h with rfl | rfl | rfl | rfl | rfl <;> exact id
  | sort =>
    simp only [slots, List.mem_cons, List.not_mem_nil, or_false] at h
    rcases h with rfl | rfl <;> exact id
  | func =>
    simp only [slots, List.mem_cons, List.not_mem_nil, or_false] at h
    rcases h with rfl | rfl <;> exact id
  | _ => cases h

theorem exists_key_of_mem {visit : String → Visit} {s : Step} {r : Role}
    (h : .part s r ∈ payloadVisits visit j) :
    ∃ key payload, j = .obj [(key, payload)] ∧ visit key = .part s r := by
  cases j with
  | obj members =>
    rcases members with _ | ⟨⟨key, payload⟩, _ | ⟨m, rest⟩⟩
    · cases List.mem_singleton.mp h
    · exact ⟨key, payload, rfl, (List.mem_singleton.mp h).symm⟩
    · cases List.mem_singleton.mp h
  | _ => cases List.mem_singleton.mp h

/-- From a document its body is gone to. -/
theorem exists_kind_of_mem {s : Step} {r : Role} (h : .part s r ∈ payloadVisits kindVisit j) :
    ∃ (kind : Kind) (body : Json),
      j = .obj [(kind.name, body)] ∧ s = .key kind.name ∧ r = .ofKind kind := by
  obtain ⟨key, body, rfl, hvisit⟩ := exists_key_of_mem h
  rw [kindVisit] at hvisit
  split at hvisit
  · next kind hkind =>
    obtain rfl := Kind.read?_eq_some.mp hkind
    obtain ⟨rfl, rfl⟩ := Visit.part.inj hvisit
    exact ⟨kind, body, rfl, rfl, rfl⟩
  · cases hvisit

/-- A payload is gone to from an expression, by the key that tells its role. -/
theorem exists_key_of_isPayload {s : Step} {r : Role} (h : .part s r ∈ role.visits limits j)
    (hpayload : r.IsPayload) :
    ∃ key payload, s = .key key ∧ r = .ofKey key ∧ j = .obj [(key, payload)] := by
  have hexpr (h : .part s r ∈ exprVisits j) :
      ∃ key payload, s = .key key ∧ r = .ofKey key ∧ j = .obj [(key, payload)] := by
    obtain ⟨key, payload, hj, hvisit⟩ := exists_key_of_mem h
    obtain ⟨rfl, rfl⟩ := Visit.part.inj hvisit
    exact ⟨key, payload, rfl, rfl, hj⟩
  have hnone {visits : List Visit} (hparts : parts visits = []) : .part s r ∉ visits := fun h => by
    rw [← mem_parts, hparts] at h
    cases h
  have hite {c : Prop} [Decidable c] {visits visits' : List Visit} (hparts : parts visits = [])
      (h : .part s r ∈ if c then visits else visits') : .part s r ∈ visits' := by
    split at h
    case isTrue => exact absurd h (hnone hparts)
    case isFalse => exact h
  have hitems {item : Role} (hitem : ¬ item.IsPayload) : .part s r ∉ itemVisits item j := by
    intro h
    cases j with
    | arr items =>
      obtain ⟨i, -, heq⟩ := List.mem_map.mp h
      exact hitem ((Visit.part.inj heq).2 ▸ hpayload)
    | _ => cases List.mem_singleton.mp h
  have hobject : .part s r ∉ objectVisits (role.slots limits) j := fun h => by
    cases j with
    | obj members =>
      rw [← mem_parts, parts_objectVisits Role.parts_absent] at h
      obtain ⟨slot, hslot, heq⟩ := List.mem_map.mp h
      obtain ⟨-, rfl⟩ := Prod.mk.inj heq
      exact Role.not_isPayload_of_mem_slots (List.mem_filter.mp hslot).1 hpayload
    | _ => cases List.mem_singleton.mp h
  cases role with
  | document =>
    obtain ⟨kind, body, -, -, rfl⟩ := exists_kind_of_mem h
    cases kind <;> exact hpayload.elim
  | insert => exact absurd h hobject
  | select => exact absurd h hobject
  | sort => exact absurd h hobject
  | func => exact absurd h hobject
  | columnRef =>
    rcases List.mem_append.mp h with h | h
    · exact hexpr h
    · exact absurd h (hnone (parts_check _ _))
  | cell =>
    rcases List.mem_append.mp h with h | h
    · exact hexpr h
    · exact absurd h (hnone (parts_check _ _))
  | expr => exact hexpr h
  | filter => exact hexpr (hite rfl h)
  | columnRefs => exact absurd h (hitems id)
  | row => exact absurd h (hitems id)
  | args => exact absurd h (hitems id)
  | rows => exact absurd (hite rfl h) (hitems id)
  | outputs => exact absurd (hite rfl h) (hitems id)
  | sorts => exact absurd (hite rfl h) (hitems id)
  | operands =>
    rw [Role.visits] at h
    split at h
    · exact absurd h (hitems id)
    · cases List.mem_singleton.mp h
    · cases List.mem_singleton.mp h
  | offset => exact absurd h (hnone parts_windowVisits)
  | limit => exact absurd h (hnone parts_windowVisits)
  | literal => cases h
  | unknown key => cases List.mem_singleton.mp h
  | _ => exact absurd h (hnone (parts_check _ _))

/-- A payload stands under a key, which tells its role. -/
theorem Stops.payload (h : Stops limits role j stop) (hpayload : stop.role.IsPayload) {node : Json}
    (hnode : j.at? stop.address = some node) :
    stop.address = [] ∧ stop.role = role ∨
      ∃ front key, stop.address = front ++ [.key key] ∧ stop.role = .ofKey key ∧
        j.at? front = some (.obj [(key, node)]) := by
  induction h with
  | here _ _ => exact .inl ⟨rfl, rfl⟩
  | @inside role r j part earlier later s stop hvisits _ hpart _ ih =>
    obtain ⟨part', hpart', hinner⟩ := Option.bind_eq_some_iff.mp hnode
    obtain rfl := Option.some.inj (hpart.symm.trans hpart')
    right
    rcases ih hpayload hinner with ⟨haddress, hrole⟩ | ⟨front, key, haddress, hrole, hfront⟩
    · have hvisit : .part s r ∈ role.visits limits j :=
        hvisits ▸ List.mem_append_right _ List.mem_cons_self
      obtain ⟨key, payload, rfl, hkey, rfl⟩ :=
        exists_key_of_isPayload hvisit (hrole ▸ hpayload)
      obtain rfl : payload = part := Option.some.inj ((if_pos rfl).symm.trans hpart)
      obtain rfl : payload = node := by
        rw [haddress] at hinner
        exact Option.some.inj hinner
      refine ⟨[], key, ?_, hrole.trans hkey, rfl⟩
      show Step.key key :: stop.address = _
      rw [haddress]
      rfl
    · refine ⟨s :: front, key, ?_, hrole, Option.bind_eq_some_iff.mpr ⟨_, hpart, hfront⟩⟩
      show s :: stop.address = _
      rw [haddress]
      rfl

theorem Role.ofKey_eq_unknown {key key' : String} (h : Role.ofKey key = .unknown key') :
    key = key' := by
  rw [ofKey] at h
  split_ifs at h
  split at h
  · cases h
  · cases h
  · exact Role.unknown.inj h

/-! ### The address in an error -/

/-- An address in a document is that of the document, or leads on from its body. -/
theorem Stops.address_cases (h : Stops limits .document j stop) :
    stop.address = [] ∨ ∃ (kind : Kind) (body : Json),
      j = .obj [(kind.name, body)] ∧ stop.address = .key kind.name :: stop.address.tail := by
  cases h with
  | here _ _ => exact .inl rfl
  | inside hvisits _ _ _ =>
    have hvisit := hvisits ▸ List.mem_append_right _ List.mem_cons_self
    obtain ⟨kind, body, hj, rfl, -⟩ := exists_kind_of_mem hvisit
    exact .inr ⟨kind, body, hj, rfl⟩

/-- **The address in an error is that of the fault.** The decoder stops at a part with this fault,
which has the address in the body of the query; an error without an address is about the document or
its body. What the decoder has read by then is well-formed, such as what comes before the way to the
part. What it would read later does not matter, such as what comes after the way to the part. -/
theorem decode_error_points_at_fault {document : Json} {address : Address} {f : Fault}
    (h : decode limits document = .error (.malformed address f)) :
    ∃ stop node,
      -- the node has the fault
      Stops limits .document document stop ∧ stop.complaint = .fault f ∧
      document.at? stop.address = some node ∧ f.TrueOf stop.role node ∧
      ¬ stop.role.WellFormed limits node ∧
      -- its address in the body is that in the error
      (stop.address = [] ∧ address.text = "." ∨
        ∃ kind body, document = .obj [(kind, body)] ∧ stop.address = .key kind :: address ∧
          body.at? address = some node) ∧
      (stop.role.IsPayload → ∃ front key, stop.address = front ++ [.key key] ∧
        stop.role = .ofKey key ∧ document.at? front = some (.obj [(key, node)])) ∧
      -- what comes earlier is well-formed, and what comes later does not matter
      (∀ p ∈ stop.passed, ∃ part,
        document.at? p.1 = some part ∧ p.2.WellFormed limits part) ∧
      (∀ front s rest t, stop.address = front ++ s :: rest →
        (Before t s → ∀ part, document.at? (front ++ [t]) = some part →
          ∃ r, (front ++ [t], r) ∈ stop.passed) ∧
        (Before s t → ∀ more, stop.Later (front ++ t :: more))) ∧
      ∀ edits : List (Address × Json), (∀ edit ∈ edits, stop.Later edit.1) →
        decode limits (document.putAll edits) = .error (.malformed address f) := by
  obtain ⟨stop, hstop, herror⟩ := decode_eq_error_iff.mp h
  obtain ⟨hcomplaint, haddress⟩ : stop.complaint = .fault f ∧ stop.address.tail = address := by
    cases hc : stop.complaint with
    | fault f' =>
      rw [hc] at herror
      obtain ⟨rfl, rfl⟩ := QueryError.malformed.inj herror
      exact ⟨rfl, rfl⟩
    | tooLarge window n max =>
      rw [hc] at herror
      cases window <;> cases herror
  obtain ⟨node, hnode, hmem⟩ := hstop.exists_node
  have hkey (hpayload : stop.role.IsPayload) : ∃ front key, stop.address = front ++ [.key key] ∧
        stop.role = .ofKey key ∧ document.at? front = some (.obj [(key, node)]) := by
    rcases hstop.payload hpayload hnode with ⟨-, hrole⟩ | hkey
    · rw [hrole] at hpayload
      exact hpayload.elim
    · exact hkey
  refine ⟨stop, node, hstop, hcomplaint, hnode, ?_, ?_, ?_, hkey, hstop.passed_wellFormed,
    fun front s rest t => hstop.passed_or_later, fun edits hlater => ?_⟩
  · rw [hcomplaint] at hmem
    refine trueOf_of_visits (fun key hrole => ?_) hmem
    obtain ⟨_, key', -, hofKey, -⟩ := hkey (by rw [hrole]; trivial)
    rw [hrole] at hofKey
    obtain rfl := Role.ofKey_eq_unknown hofKey.symm
    exact hofKey.symm
  · rw [← Role.complaints_eq_nil, Role.complaints_eq, List.flatMap_eq_nil_iff]
    intro hnil
    cases hnil _ hmem
  · rcases hstop.address_cases with hnil | ⟨kind, body, rfl, hcons⟩
    · left
      rw [hnil] at haddress
      exact ⟨hnil, haddress ▸ rfl⟩
    · right
      rw [haddress] at hcons
      rw [hcons] at hnode
      obtain ⟨body', hbody, hnode⟩ := Option.bind_eq_some_iff.mp hnode
      obtain rfl : body = body' := Option.some.inj ((if_pos rfl).symm.trans hbody)
      exact ⟨kind.name, body, rfl, hcons, hnode⟩
  · exact decode_eq_error_iff.mpr ⟨stop, hstop.putAll hlater, herror⟩

/-- A query for three columns. The second one has no operands. -/
def threeColumns : Json :=
  .obj [("select", .obj [("columns", .arr
    [.obj [("value", .null)], .obj [("eq", .arr [])], .obj [("metadata", .str "id")]])])]

/-- That operands are missing is told of the second column, also if the third one is wrong too. -/
theorem second_column_is_blamed :
    decode .standard threeColumns =
        .error (.malformed [.key "columns", .index 1, .key "eq"] (.operandCount 0)) ∧
      decode .standard (threeColumns.putAll
          [([.key "select", .key "columns", .index 2], .obj [("none", .null)])]) =
        .error (.malformed [.key "columns", .index 1, .key "eq"] (.operandCount 0)) := by
  have h : decode .standard threeColumns =
      .error (.malformed [.key "columns", .index 1, .key "eq"] (.operandCount 0)) := rfl
  refine ⟨h, ?_⟩
  obtain ⟨stop, node, -, -, -, -, -, haddress, -, -, hbeside, hlater⟩ :=
    decode_error_points_at_fault h
  rcases haddress with ⟨-, htext⟩ | ⟨kind, body, hdocument, haddress, -⟩
  · exact absurd htext (by decide)
  · obtain ⟨rfl, -⟩ : "select" = kind ∧ _ := by simpa [threeColumns] using hdocument
    have hthird := (hbeside [.key "select", .key "columns"] (.index 1) [.key "eq"] (.index 2)
      haddress).2 (by decide) []
    exact hlater _ (List.forall_mem_singleton.mpr hthird)

end TableStore.Query
