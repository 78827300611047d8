import TableStore.Http.Route
import TableStore.Proofs.PropertyHistory

/-!
# How deep documents nest

A reader of documents does not go into containers that stand `Source.nestingBound` deep, so what is
stored is read back only if it nests less deep (`Json.readBack?_eq_reread_iff`). What requests bring
does: the properties that a request gives to an entry or a column stand inside its body, which such
a reader has read (`Http.Endpoint.fits_giving`). By induction on the calls, **all stored properties
are read back** after any requests (`Database.properties_are_read_back`).
-/

namespace TableStore

namespace Json

/-! ### Documents that readers give -/

mutual

/-- What a reader can give that has gone into so many containers: containers nest below the bound,
and the keys of objects ascend. -/
def Fits (depth : Nat) : Json → Prop
  | .arr items => depth + 1 < Source.nestingBound ∧ ItemsFit (depth + 1) items
  | .obj members =>
    depth + 1 < Source.nestingBound ∧ Members.Ascending members ∧ MembersFit (depth + 1) members
  | .null | .bool _ | .num _ | .str _ => True

def ItemsFit (depth : Nat) : List Json → Prop
  | [] => True
  | item :: rest => item.Fits depth ∧ ItemsFit depth rest

def MembersFit (depth : Nat) : List (String × Json) → Prop
  | [] => True
  | (_, value) :: rest => value.Fits depth ∧ MembersFit depth rest

end

theorem membersFit_iff {depth : Nat} {members : List (String × Json)} :
    MembersFit depth members ↔ ∀ m ∈ members, m.2.Fits depth := by
  induction members with
  | nil => simp [MembersFit]
  | cons m rest ih => rw [MembersFit, ih, List.forall_mem_cons]

mutual

/-- What fits inside containers fits outside them. -/
theorem Fits.mono {depth inner : Nat} (hle : depth ≤ inner) :
    ∀ {j : Json}, j.Fits inner → j.Fits depth
  | .null, _ | .bool _, _ | .num _, _ | .str _, _ => trivial
  | .arr _, h => ⟨by have := h.1; omega, ItemsFit.mono (Nat.succ_le_succ hle) h.2⟩
  | .obj _, h => ⟨by have := h.1; omega, h.2.1, MembersFit.mono (Nat.succ_le_succ hle) h.2.2⟩

theorem ItemsFit.mono {depth inner : Nat} (hle : depth ≤ inner) :
    ∀ {items : List Json}, ItemsFit inner items → ItemsFit depth items
  | [], _ => trivial
  | _ :: _, h => ⟨h.1.mono hle, ItemsFit.mono hle h.2⟩

theorem MembersFit.mono {depth inner : Nat} (hle : depth ≤ inner) :
    ∀ {members : List (String × Json)}, MembersFit inner members → MembersFit depth members
  | [], _ => trivial
  | _ :: _, h => ⟨h.1.mono hle, MembersFit.mono hle h.2⟩

end

mutual

/-- Reading again changes neither the nesting nor the keys. -/
theorem fits_reread : ∀ {depth : Nat} (j : Json), j.reread.Fits depth ↔ j.Fits depth
  | _, .null | _, .bool _ | _, .num (.int _) | _, .num (.real _) | _, .str _ => by
    simp [reread, Fits]
  | _, .arr items => by rw [reread, Fits, Fits, itemsFit_rereadList items]
  | _, .obj members => by
    rw [reread, Fits, Fits, Members.Ascending, keys_rereadMembers, Members.Ascending,
      membersFit_rereadMembers members]

theorem itemsFit_rereadList :
    ∀ {depth : Nat} (items : List Json), ItemsFit depth (rereadList items) ↔ ItemsFit depth items
  | _, [] => Iff.rfl
  | _, item :: rest => by
    rw [rereadList, ItemsFit, ItemsFit, fits_reread item, itemsFit_rereadList rest]

theorem membersFit_rereadMembers : ∀ {depth : Nat} (members : List (String × Json)),
    MembersFit depth (rereadMembers members) ↔ MembersFit depth members
  | _, [] => Iff.rfl
  | _, (_, value) :: rest => by
    rw [rereadMembers, MembersFit, MembersFit, fits_reread value, membersFit_rereadMembers rest]

end

end Json

/-! ### Readers -/

namespace Source

mutual

/-- **A reader gives what fits** at the depth it has gone to. -/
theorem fits_of_valueAt? : ∀ {depth : Nat} (s : Source) {j : Json},
    s.valueAt? depth = some j → j.Fits depth
  | _, .null, _, h => by cases h; trivial
  | _, .bool _, _, h => by cases h; trivial
  | _, .num _, _, h => by obtain ⟨_, -, rfl⟩ := Option.map_eq_some_iff.mp h; trivial
  | _, .str _, _, h => by obtain ⟨_, -, rfl⟩ := Option.map_eq_some_iff.mp h; trivial
  | depth, .arr items, _, h => by
    rw [valueAt?] at h
    split at h
    case isTrue => cases h
    case isFalse hdepth =>
      obtain ⟨values, hvalues, rfl⟩ := Option.map_eq_some_iff.mp h
      exact ⟨not_le.mp hdepth, itemsFit_of_valuesAt? items hvalues⟩
  | depth, .obj members, _, h => by
    rw [valueAt?] at h
    split at h
    case isTrue => cases h
    case isFalse hdepth =>
      obtain ⟨pairs, hpairs, rfl⟩ := Option.map_eq_some_iff.mp h
      have hfit := Json.membersFit_iff.mp (membersFit_of_membersAt? members hpairs)
      exact ⟨not_le.mp hdepth, Members.ascending_ofList pairs,
        Json.membersFit_iff.mpr fun m hm => hfit m (Members.mem_of_mem_ofList hm)⟩

theorem itemsFit_of_valuesAt? : ∀ {depth : Nat} (items : List Source) {values : List Json},
    valuesAt? depth items = some values → Json.ItemsFit depth values
  | _, [], _, h => by cases h; trivial
  | _, item :: rest, _, h => by
    obtain ⟨value, hvalue, h⟩ := Option.bind_eq_some_iff.mp h
    obtain ⟨values, hvalues, h⟩ := Option.bind_eq_some_iff.mp h
    cases h
    exact ⟨fits_of_valueAt? item hvalue, itemsFit_of_valuesAt? rest hvalues⟩

theorem membersFit_of_membersAt? :
    ∀ {depth : Nat} (members : List (Option String × Source)) {pairs : List (String × Json)},
      membersAt? depth members = some pairs → Json.MembersFit depth pairs
  | _, [], _, h => by cases h; trivial
  | _, (_, value) :: rest, _, h => by
    obtain ⟨key, -, h⟩ := Option.bind_eq_some_iff.mp h
    obtain ⟨value', hvalue, h⟩ := Option.bind_eq_some_iff.mp h
    obtain ⟨pairs, hpairs, h⟩ := Option.bind_eq_some_iff.mp h
    cases h
    exact ⟨fits_of_valueAt? value hvalue, membersFit_of_membersAt? rest hpairs⟩

end

mutual

/-- **What fits is read from its own text** as it is read again. -/
theorem valueAt?_ofJson : ∀ {depth : Nat} (j : Json), j.Fits depth →
    (ofJson j).valueAt? depth = some j.reread
  | _, .null, _ | _, .bool _, _ | _, .num (.int _), _ | _, .num (.real _), _ | _, .str _, _ => by
    simp [ofJson, valueAt?, Json.reread]
  | depth, .arr items, h => by
    rw [ofJson, valueAt?, if_neg (not_le.mpr h.1), valuesAt?_ofItems items h.2, Json.reread]
    rfl
  | depth, .obj members, h => by
    have hascending : Members.Ascending (Json.rereadMembers members) := by
      rw [Members.Ascending, Json.keys_rereadMembers]
      exact h.2.1
    rw [ofJson, valueAt?, if_neg (not_le.mpr h.1), membersAt?_ofMembers members h.2.2,
      Option.map_some, hascending.ofList_eq, Json.reread]

theorem valuesAt?_ofItems : ∀ {depth : Nat} (items : List Json), Json.ItemsFit depth items →
    valuesAt? depth (ofItems items) = some (Json.rereadList items)
  | _, [], _ => rfl
  | _, item :: rest, h => by
    rw [ofItems, valuesAt?, valueAt?_ofJson item h.1, valuesAt?_ofItems rest h.2]
    rfl

theorem membersAt?_ofMembers : ∀ {depth : Nat} (members : List (String × Json)),
    Json.MembersFit depth members →
      membersAt? depth (ofMembers members) = some (Json.rereadMembers members)
  | _, [], _ => rfl
  | _, (key, value) :: rest, h => by
    rw [ofMembers, membersAt?, valueAt?_ofJson value h.1, membersAt?_ofMembers rest h.2]
    rfl

end

end Source

namespace Properties

variable {p q : Properties} {members : Members Json} {key : String} {v : Json}

/-- Whether a map can be read back. -/
def Fits (p : Properties) : Prop :=
  p.toJson.Fits 0

theorem fits_empty : empty.Fits :=
  ⟨by decide, Members.Ascending.nil, trivial⟩

theorem Fits.set (h : p.Fits) (hv : v.Fits 1) : (p.set key v).Fits := by
  obtain ⟨hdepth, hascending, hfit⟩ := h
  rw [Json.membersFit_iff] at hfit
  rw [Properties.set]
  split
  · exact ⟨hdepth, hascending.erase,
      Json.membersFit_iff.mpr fun m hm => hfit m (Members.mem_of_mem_erase hm)⟩
  · refine ⟨hdepth, hascending.insert, Json.membersFit_iff.mpr fun m hm => ?_⟩
    rcases Members.mem_of_mem_insert hm with rfl | hm
    · exact hv
    · exact hfit m hm

theorem Fits.reread (h : p.Fits) : p.reread.Fits :=
  (Json.fits_reread p.toJson).mpr h

theorem Fits.merge (h : p.Fits) (hmembers : (Json.obj members).Fits 0)
    (hmerge : p.merge members = .ok q) : q.Fits := by
  obtain ⟨update, hupdate, hq⟩ := bind_ok hmerge
  obtain ⟨_, -, hupdate⟩ := bind_ok hupdate
  obtain rfl := Except.ok.inj hupdate
  obtain rfl := Except.ok.inj hq
  have hvalues := Json.membersFit_iff.mp hmembers.2.2
  -- the members are set one after the other
  exact List.foldlRecOn members _ h fun p hp m hm => hp.set (hvalues m hm)

end Properties

/-- Whether what is given to an entity can be read back. -/
def Giving.Fits : Giving → Prop
  | .nothing => True
  | .creates members | .updates members => (Json.obj members).Fits 0

theorem Giving.fits_ite {c : Prop} [Decidable c] {giving : Giving} (h : giving.Fits) :
    (if c then giving else .nothing).Fits := by
  split
  · exact h
  · trivial

theorem Properties.Becomes.fits {giving : Giving} {before : Option Properties} {p : Properties}
    (h : Becomes giving before p) (hgiving : giving.Fits)
    (hbefore : ∀ q, before = some q → q.Fits) : p.Fits := by
  cases h with
  | same => exact hbefore p rfl
  | created h => exact fits_empty.merge hgiving h
  | updated h => exact (hbefore _ rfl).reread.merge hgiving h

/-! ### Requests -/

namespace Http

section Fields

variable {α : Type} {f : Fields} {name : String} {read : Source → Option α} {a : α}

theorem Fields.required_spec (h : f.required name read = some a) : ∃ s, read s = some a := by
  obtain ⟨s, -, hs⟩ := Option.bind_eq_some_iff.mp h
  exact ⟨s, hs⟩

theorem Fields.defaulted_spec {default : α} (h : f.defaulted name default read = some a) :
    a = default ∨ ∃ s, read s = some a := by
  rw [defaulted] at h
  split at h
  · exact .inr ⟨_, h⟩
  · exact .inl (Option.some_inj.mp h).symm

theorem Fields.optional_spec (h : f.optional name read = some (some a)) :
    ∃ s, read s = some a := by
  rw [optional] at h
  split at h
  · cases h
  · obtain ⟨b, hb, hab⟩ := Option.map_eq_some_iff.mp h
    exact ⟨_, Option.some_inj.mp hab ▸ hb⟩
  · split at h <;> cases h

end Fields

namespace Body

theorem fits_nil : (Json.obj []).Fits 0 :=
  Properties.fits_empty

theorem fits_members {depth : Nat} {s : Source} {m : Members Json}
    (h : members depth s = some m) : (Json.obj m).Fits 0 := by
  cases s with
  | obj parts =>
    obtain ⟨j, hj, hm⟩ := Option.bind_eq_some_iff.mp h
    obtain rfl : j = .obj m := by
      cases j <;> first | (cases hm; rfl) | cases hm
    exact (Source.fits_of_valueAt? _ hj).mono (Nat.zero_le _)
  | _ => cases h

theorem fits_defaulted {f : Fields} {name : String} {depth : Nat} {m : Members Json}
    (h : f.defaulted name [] (members depth) = some m) : (Json.obj m).Fits 0 := by
  rcases Fields.defaulted_spec h with rfl | ⟨s, hs⟩
  · exact fits_nil
  · exact fits_members hs

theorem items_spec {α : Type} {read : Source → Option α} {s : Source} {values : List α}
    (h : items read s = some values) : ∀ a ∈ values, ∃ part, read part = some a := by
  cases s with
  | arr parts =>
    replace h : parts.mapM read = some values := h
    induction parts generalizing values with
    | nil =>
      cases h
      exact nofun
    | cons part rest ih =>
      rw [List.mapM_cons] at h
      obtain ⟨a, ha, h⟩ := Option.bind_eq_some_iff.mp h
      obtain ⟨others, hothers, h⟩ := Option.bind_eq_some_iff.mp h
      cases h
      exact List.forall_mem_cons.mpr ⟨⟨part, ha⟩, ih hothers⟩
  | _ => cases h

theorem fits_definition {depth : Nat} {s : Source} {d : ColumnDefinition}
    (h : definition depth s = some d) : (Json.obj d.properties).Fits 0 := by
  obtain ⟨f, -, h⟩ := Option.bind_eq_some_iff.mp h
  obtain ⟨name, -, h⟩ := Option.bind_eq_some_iff.mp h
  obtain ⟨type, -, h⟩ := Option.bind_eq_some_iff.mp h
  obtain ⟨properties, hproperties, h⟩ := Option.bind_eq_some_iff.mp h
  cases h
  exact fits_defaulted hproperties

theorem fits_newEntry {s : Source} {parent : Option Uuid} {m : Members Json}
    {definitions : List ColumnDefinition} (h : newEntry s = some (parent, m, definitions)) :
    (Json.obj m).Fits 0 ∧ ∀ d ∈ definitions, (Json.obj d.properties).Fits 0 := by
  obtain ⟨f, -, h⟩ := Option.bind_eq_some_iff.mp h
  obtain ⟨parent, -, h⟩ := Option.bind_eq_some_iff.mp h
  obtain ⟨m, hm, h⟩ := Option.bind_eq_some_iff.mp h
  obtain ⟨definitions, hdefinitions, h⟩ := Option.bind_eq_some_iff.mp h
  cases h
  refine ⟨fits_defaulted hm, fun d hd => ?_⟩
  rcases Fields.defaulted_spec hdefinitions with rfl | ⟨s, hs⟩
  · cases hd
  · obtain ⟨part, hpart⟩ := items_spec hs d hd
    exact fits_definition hpart

theorem fits_properties {s : Source} {m : Members Json} (h : properties s = some m) :
    (Json.obj m).Fits 0 := by
  obtain ⟨f, -, h⟩ := Option.bind_eq_some_iff.mp h
  obtain ⟨s, hs⟩ := Fields.required_spec h
  exact fits_members hs

theorem fits_newColumn {s : Source} {d : ColumnDefinition} {index : Option Int}
    (h : newColumn s = some (d, index)) : (Json.obj d.properties).Fits 0 := by
  cases s with
  | obj parts =>
    obtain ⟨f, -, h⟩ := Option.bind_eq_some_iff.mp h
    obtain ⟨_, -, h⟩ := Option.bind_eq_some_iff.mp h
    obtain ⟨name, -, h⟩ := Option.bind_eq_some_iff.mp h
    obtain ⟨type, -, h⟩ := Option.bind_eq_some_iff.mp h
    obtain ⟨properties, hproperties, h⟩ := Option.bind_eq_some_iff.mp h
    obtain ⟨index, -, h⟩ := Option.bind_eq_some_iff.mp h
    cases h
    exact fits_defaulted hproperties
  | _ => cases h

theorem fits_changes {s : Source} {c : ColumnChanges} (h : changes s = some c) :
    (Json.obj (c.properties.getD [])).Fits 0 := by
  obtain ⟨f, -, h⟩ := Option.bind_eq_some_iff.mp h
  obtain ⟨name, -, h⟩ := Option.bind_eq_some_iff.mp h
  obtain ⟨type, -, h⟩ := Option.bind_eq_some_iff.mp h
  obtain ⟨properties, hproperties, h⟩ := Option.bind_eq_some_iff.mp h
  obtain ⟨index, -, h⟩ := Option.bind_eq_some_iff.mp h
  cases h
  cases properties with
  | none => exact fits_nil
  | some m =>
    obtain ⟨s, hs⟩ := Fields.optional_spec hproperties
    exact fits_members hs

end Body

theorem Endpoint.fromBody_ok {α : Type} {r : Request} {read : Source → Option α} {a : α}
    (h : fromBody r read = .ok a) : ∃ s, read s = some a := by
  dsimp only [fromBody] at h
  cases hanswer : (Source.read r.body).bind read with
  | some answer =>
    rw [hanswer] at h
    split_ifs at h
    obtain rfl := Except.ok.inj h
    obtain ⟨s, -, hs⟩ := Option.bind_eq_some_iff.mp hanswer
    exact ⟨s, hs⟩
  | none =>
    rw [hanswer] at h
    split_ifs at h

/-- **What a request gives can be read back.** -/
theorem Endpoint.fits_giving {r : Request} {op : Operation} (h : operationOf r = .ok op)
    (env : Surroundings) (entity : Entity) : (op.giving env entity).Fits := by
  obtain ⟨endpoint, -, h⟩ := bind_ok h
  cases endpoint with
  | createEntry organization type =>
    obtain ⟨⟨parent, members, definitions⟩, hbody, h⟩ := bind_ok h
    obtain rfl := Except.ok.inj h
    obtain ⟨s, hs⟩ := fromBody_ok hbody
    obtain ⟨hmembers, hdefinitions⟩ := Body.fits_newEntry hs
    cases entity with
    | entry id => exact Giving.fits_ite hmembers
    | column id =>
      dsimp only [Operation.giving]
      split
      case h_1 d hd =>
        exact hdefinitions d.1 (List.fst_mem_of_mem_zipIdx (List.mem_of_find?_eq_some hd))
      case h_2 => trivial
  | updateEntry id =>
    obtain ⟨members, hbody, h⟩ := bind_ok h
    obtain rfl := Except.ok.inj h
    obtain ⟨s, hs⟩ := fromBody_ok hbody
    cases entity with
    | entry other => exact Giving.fits_ite (Body.fits_properties hs)
    | column other => trivial
  | createColumn table =>
    obtain ⟨⟨definition, index⟩, hbody, h⟩ := bind_ok h
    obtain rfl := Except.ok.inj h
    obtain ⟨s, hs⟩ := fromBody_ok hbody
    cases entity with
    | entry other => trivial
    | column other => exact Giving.fits_ite (Body.fits_newColumn hs)
  | updateColumn table column =>
    obtain ⟨changes, hbody, h⟩ := bind_ok h
    obtain rfl := Except.ok.inj h
    obtain ⟨s, hs⟩ := fromBody_ok hbody
    cases entity with
    | entry other => trivial
    | column other => exact Giving.fits_ite (Body.fits_changes hs)
  -- all other endpoints lead to operations that give nothing
  | createOrganization | renameOrganization | listChildren | getEntry | moveEntry
  | reorderColumns | query =>
    obtain ⟨_, -, h⟩ := bind_ok h
    obtain rfl := Except.ok.inj h
    cases entity <;> trivial
  | listOrganizations | getOrganization | deleteOrganization | deleteEntry | listColumns
  | deleteColumn =>
    obtain rfl := Except.ok.inj h
    cases entity <;> trivial

end Http

/-! ### Many calls -/

/-- A call of what a request asks for. -/
def Call.IsRequested (call : Call) : Prop :=
  ∃ r, Http.Endpoint.operationOf r = .ok call.operation

namespace Database

variable {db : Database} {call : Call} {entity : Entity}

/-- All stored properties can be read back. -/
def Readable (db : Database) : Prop :=
  ∀ entity p, db.tables.properties? entity = some p → p.Fits

theorem Readable.perform (hu : db.Usable) (hr : db.Readable) (hcall : call.IsRequested) :
    (db.perform call).state.Readable := by
  intro entity p hp
  cases hresult : (db.perform call).result with
  | error e =>
    rw [perform_error hu hresult] at hp
    exact hr entity p hp
  | ok reply =>
    obtain ⟨t, hdoes, hstate⟩ := perform_ok hu hresult
    rw [hstate] at hp
    obtain ⟨r, hop⟩ := hcall
    exact (hdoes.becomes hu.sound hp).fits
      (Http.Endpoint.fits_giving hop call.surroundings entity) (hr entity)

theorem Readable.after (hu : db.Usable) (hr : db.Readable) {history : List Call}
    (h : ∀ call ∈ history, call.IsRequested) : (db.after history).Readable := by
  induction history generalizing db with
  | nil => exact hr
  | cons call rest ih =>
    obtain ⟨hcall, hrest⟩ := List.forall_mem_cons.mp h
    exact ih (hu.perform call).1 (hr.perform hu hcall) hrest

end Database

end TableStore
