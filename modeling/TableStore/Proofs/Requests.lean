import TableStore.Proofs.Execution
import TableStore.Proofs.Subtrees

/-!
# Requests as functions

What every request does to sound tables, as a plain function of them: an answer with the tables that
are left, or a failure. `Database.Serves` says that a database serves a request in this way. Only
the requests that write an order can fail in one more way, where a guarded column refuses an index;
they change nothing then, as they do with every other failure.
-/

namespace TableStore

variable {α : Type} {db : Database}

/-! ### Serving as a function says -/

namespace Database

/-- The answer of a function of the tables, and the database it leaves. -/
def settle (db : Database) :
    Except StoreError (α × Tables) → Except StoreError α × Database
  | .ok (a, t) => (.ok a, { db with tables := t })
  | .error e => (.error e, db)

/-- A request is served as a function of the tables says, or it is refused by a guarded column. -/
def Serves (db : Database) (r : Request α) (m : Except StoreError (α × Tables)) : Prop :=
  db.serve r = db.settle m ∨ db.locked ≠ none ∧ db.serve r = (.error .failed, db)

end Database

/-- The answer of a statement that has to find a row. -/
def found : Option α → Except StoreError α
  | some a => .ok a
  | none => .error .rowNotFound

/-! ### Reading -/

section Reading

open Database

theorem serve_askOne (s : Statement (Option α)) (answer : Tables → Option α)
    (h : db.exec s = db.reading answer) :
    db.serve (Request.plain (Batch.askOne s)) = (found (answer db.tables), db) := by
  have hs := execute_reading s answer h
  cases ha : answer db.tables with
  | some a =>
    rw [ha] at hs
    exact serve_ok (Batch.outcome_askOne hs)
  | none =>
    rw [ha] at hs
    exact serve_error (Batch.outcome_askOne_none hs) (.inr rfl)

theorem serve_ask (s : Statement α) (answer : Tables → α) (h : db.exec s = db.reading answer) :
    db.serve (Request.plain (Batch.ask s)) = (.ok (answer db.tables), db) :=
  serve_ok (Batch.outcome_ask (execute_reading s answer h))

theorem serve_getOrganization (id : Uuid) :
    db.serve (Request.getOrganization id) = (found (db.tables.organization? id), db) :=
  serve_askOne (.getOrganization id) (·.organization? id) rfl

theorem serve_listOrganizations :
    db.serve Request.listOrganizations =
      (.ok (Tables.sortByKeys (fun o => [(.time o.createdAt, .asc), (.uuid o.id, .asc)])
        db.tables.organizations), db) :=
  serve_ask .listOrganizations (fun t => Tables.sortByKeys _ t.organizations) rfl

theorem serve_getEntry (id : Uuid) :
    db.serve (Request.getEntry id) = (found (entryRow? id db.tables), db) :=
  serve_askOne (.getEntry id) (entryRow? id) rfl

theorem serve_listColumns (table : Uuid) :
    db.serve (Request.listColumns table) =
      (.ok ((db.tables.columnsOf table).map ColumnRow.reread), db) :=
  serve_ask (.listColumns table) (fun t => (t.columnsOf table).map ColumnRow.reread) rfl

theorem serve_getColumn (id : Uuid) :
    db.serve (Request.getColumn id) = (found (columnRow? id db.tables), db) :=
  serve_askOne (.getColumn id) (columnRow? id) rfl

/-- A selection that the engine does not take: it has more columns, or more terms to sort by. -/
def Oversized (plan : Query.SelectPlan) : Prop :=
  maxColumns < plan.width ∨ maxSortTerms < plan.order.length

instance (plan : Query.SelectPlan) : Decidable (Oversized plan) :=
  inferInstanceAs (Decidable (_ ∨ _))

theorem serve_selectRecords (plan : Query.SelectPlan) :
    db.serve (Request.selectRecords plan) =
      (if Oversized plan then .error .failed
        else .ok ((db.tables.selectRecords plan).map fun row => row.map Sql.Value.toJson), db) := by
  by_cases hwidth : maxColumns < plan.width
  · have hrefused : db.execute (.selectRecords plan) = (.error .failed, db) := by
      rw [execute, exec, if_pos hwidth]
      rfl
    rw [if_pos (show Oversized plan from .inl hwidth)]
    exact serve_error (Batch.outcome_send_error hrefused) (.inr rfl)
  by_cases hterms : maxSortTerms < plan.order.length
  · have hrefused : db.execute (.selectRecords plan) = (.error .failed, db) := by
      rw [execute, exec, if_neg hwidth, if_pos hterms]
      rfl
    rw [if_pos (show Oversized plan from .inr hterms)]
    exact serve_error (Batch.outcome_send_error hrefused) (.inr rfl)
  · rw [if_neg (show ¬ Oversized plan from not_or.mpr ⟨hwidth, hterms⟩)]
    refine serve_ask (.selectRecords plan)
      (fun t => (t.selectRecords plan).map fun row : List Sql.Value => row.map Sql.Value.toJson) ?_
    rw [exec, if_neg hwidth, if_neg hterms]

/-- Rows that are answered are what the statement selects. -/
theorem serve_selectRecords_ok {plan : Query.SelectPlan} {rows : List (List Json)}
    {after : Database} (h : db.serve (Request.selectRecords plan) = (.ok rows, after)) :
    rows = (db.tables.selectRecords plan).map fun row => row.map Sql.Value.toJson := by
  rw [serve_selectRecords] at h
  have hrows := (Prod.mk.inj h).1
  split at hrows
  · cases hrows
  · exact (Except.ok.inj hrows).symm

/-- A window of children, and the number of all of them. -/
def Tables.page (t : Tables) (organization : Uuid) (parent : Option Uuid) (keys : List SortKey)
    (limit offset : Nat) : List EntryRow × Int :=
  ((Tables.window offset limit
      (Tables.sortByKeys (Tables.sortValues keys) (t.children organization parent))).map
      EntryRow.reread,
    (t.children organization parent).length)

/-- A window of children that can't be asked for: signed 64-bit integers don't describe it, or it
has more terms to sort by than the engine takes. -/
def Exceeds (keys : List SortKey) (limit offset : Nat) : Prop :=
  (Json.maxSigned < limit ∨ Json.maxSigned < offset) ∨
    maxSortTerms < (SortKey.effectiveKeys keys).length

instance (keys : List SortKey) (limit offset : Nat) : Decidable (Exceeds keys limit offset) :=
  inferInstanceAs (Decidable (_ ∨ _))

theorem serve_listChildren (organization : Uuid) (parent : Option Uuid) (keys : List SortKey)
    (limit offset : Nat) :
    db.serve (Request.listChildren organization parent keys limit offset) =
      (if Exceeds keys limit offset then .error .failed
        else .ok (db.tables.page organization parent keys limit offset), db) := by
  rw [Request.listChildren, Request.plain]
  by_cases hwindow : Json.maxSigned < limit ∨ Json.maxSigned < offset
  · have hexceeds : Exceeds keys limit offset := .inl hwindow
    simp only [if_pos hexceeds, if_pos hwindow]
    exact serve_error rfl (.inr rfl)
  simp only [if_neg hwindow]
  by_cases hterms : maxSortTerms < (SortKey.effectiveKeys keys).length
  · have hexceeds : Exceeds keys limit offset := .inr hterms
    rw [if_pos hexceeds]
    have hrefused : db.execute (.listChildren organization parent keys limit offset) =
        (.error .failed, db) := by
      rw [execute, exec, if_pos hterms]
      rfl
    exact serve_error (Batch.outcome_send_error hrefused) (.inr rfl)
  · have hfits : ¬ Exceeds keys limit offset := not_or.mpr ⟨hwindow, hterms⟩
    rw [if_neg hfits]
    refine serve_ok ?_
    have hrows : db.execute (.listChildren organization parent keys limit offset) = (.ok _, db) :=
      execute_reading _ (fun t => (t.page organization parent keys limit offset).1) (if_neg hterms)
    have htotal : db.execute (.countChildren organization parent) = (.ok (some _), db) :=
      execute_reading _ (fun t => some (t.page organization parent keys limit offset).2) rfl
    exact (Batch.outcome_bind_ok (Batch.outcome_ask hrows)).trans
      (Batch.outcome_bind_ok (Batch.outcome_askOne htotal))

end Reading

/-! ### Organizations -/

section Writing

open Database

variable (hs : db.tables.Sound) (hw : db.readOnly = false)

/-- Stores an organization. -/
def Tables.storeOrganization (t : Tables) (row : Organization) :
    Except StoreError (Organization × Tables) :=
  if (t.organization? row.id).isSome then .error .uniqueViolation
  else .ok (row, t.addOrganization row)

/-- Renames an organization. -/
def Tables.renameOrganization (t : Tables) (id : Uuid) (name : String) (now : Timestamp) :
    Except StoreError (Organization × Tables) := do
  let o ← found (t.organization? id)
  return ({ o with name := name, updatedAt := now },
    t.modifyOrganization id fun o => { o with name := name, updatedAt := now })

/-- Deletes a row with all that goes with it. -/
def Tables.dropRow (t : Tables) (kind : RowKind) (id : Uuid) : Except StoreError (Unit × Tables) :=
  match t.delete kind id with
  | .ok after => .ok ((), after)
  | .error _ => .error .failed

/-- Deletes an organization. -/
def Tables.dropOrganization (t : Tables) (id : Uuid) : Except StoreError (Unit × Tables) := do
  let _ ← found (t.organization? id)
  t.dropRow .organization id

include hw

/-- A statement that deletes a row, and says whether it has been there. -/
theorem serves_delete (s : Statement (Option Unit)) (kind : RowKind) (id : Uuid) {α : Type}
    {row : Option α} (hs : db.exec s = db.writing (·.delete kind id) fun _ => row.map fun _ => ())
    (hrow : row = none → id ∉ db.tables.ids kind) :
    db.Serves (Request.plain (Batch.askOne s))
      (found row >>= fun _ => db.tables.dropRow kind id) := by
  refine .inl ?_
  cases row with
  | none =>
    have hrun := execute_writing s (·.delete kind id) (fun _ => none) hw hs
      (Tables.cascade_of_notMem Tables.maxDepth (hrow rfl))
    exact serve_error (Batch.outcome_askOne_none hrun) (.inr rfl)
  | some a =>
    have hfound : (found (some a) >>= fun _ => db.tables.dropRow kind id) =
        db.tables.dropRow kind id := rfl
    rw [hfound, Tables.dropRow]
    cases hd : db.tables.delete kind id with
    | ok after =>
      exact serve_ok (Batch.outcome_askOne (execute_writing s (·.delete kind id) _ hw hs hd))
    | error fault =>
      have hrun := execute_refused s (·.delete kind id) _ hw hs hd
      obtain ⟨rfl, -⟩ := Tables.cascade_error hd
      exact serve_error (Batch.outcome_send_error hrun) (.inr rfl)

theorem serves_createOrganization (id : Uuid) (name : String) (now : Timestamp) :
    db.Serves (Request.createOrganization id name now)
      (db.tables.storeOrganization ⟨id, name, now, now⟩) := by
  refine .inl ?_
  rw [Tables.storeOrganization]
  split
  case isTrue h =>
    have hrun := execute_refused (.insertOrganization ⟨id, name, now, now⟩)
      (·.insertOrganization ⟨id, name, now, now⟩)
      (·.organization? id) hw rfl (Tables.insertOrganization_taken h)
    rw [ofEngineMessage_unique (by simp)] at hrun
    exact serve_error (Batch.outcome_send_error hrun) (.inr rfl)
  case isFalse h =>
    have hnew : db.tables.organization? id = none := by simpa using h
    have hrun := execute_writing (.insertOrganization ⟨id, name, now, now⟩)
      (·.insertOrganization ⟨id, name, now, now⟩)
      (·.organization? id) hw rfl (Tables.insertOrganization_ok hnew)
    have hfound : (db.tables.addOrganization ⟨id, name, now, now⟩).organization? id =
        some ⟨id, name, now, now⟩ := (Tables.organization?_addOrganization hnew).trans (if_pos rfl)
    rw [hfound] at hrun
    exact serve_ok (Batch.outcome_askOne hrun)

theorem serves_renameOrganization (id : Uuid) (name : String) (now : Timestamp) :
    db.Serves (Request.renameOrganization id name now)
      (db.tables.renameOrganization id name now) := by
  refine .inl ?_
  have hrun := execute_writing (.renameOrganization id name now)
    (fun t => .ok (t.modifyOrganization id fun o => { o with name := name, updatedAt := now }))
    (·.organization? id) hw rfl rfl
  rw [Tables.organization?_modifyOrganization
    (fun o => { o with name := name, updatedAt := now }) fun _ => rfl, if_pos rfl] at hrun
  cases ho : db.tables.organization? id with
  | some o =>
    rw [ho] at hrun
    rw [Tables.renameOrganization, ho]
    exact serve_ok (Batch.outcome_askOne hrun)
  | none =>
    rw [ho, Tables.modifyOrganization_of_none _ ho] at hrun
    rw [Tables.renameOrganization, ho]
    exact serve_error (Batch.outcome_askOne_none hrun) (.inr rfl)

theorem serves_deleteOrganization (id : Uuid) :
    db.Serves (Request.deleteOrganization id) (db.tables.dropOrganization id) := by
  refine serves_delete hw (.deleteOrganization id) .organization id rfl fun hnone hmem => ?_
  obtain ⟨o, ho, hid⟩ := List.mem_map.mp hmem
  exact Tables.organization?_eq_none.mp hnone o ho hid

end Writing

/-! ### Soundness -/

/-- What follows a row that has been found. -/
theorem found_bind_ok {β : Type} {o : Option α} {f : α → Except StoreError β} {b : β}
    (h : (found o >>= f) = .ok b) : ∃ a, o = some a ∧ f a = .ok b := by
  cases o with
  | none => cases h
  | some a => exact ⟨a, rfl, h⟩

namespace Tables

variable {t after : Tables} {id : Uuid} {name : String} {now : Timestamp} {row o : Organization}

/-- What has been stored, and what had to hold for that. -/
theorem storeOrganization_ok (h : t.storeOrganization row = .ok (o, after)) :
    t.organization? row.id = none ∧ after = t.addOrganization row := by
  rw [storeOrganization] at h
  split at h
  case isTrue => cases h
  case isFalse hnew => exact ⟨by simpa using hnew, (Prod.mk.inj (Except.ok.inj h)).2.symm⟩

theorem renameOrganization_ok (h : t.renameOrganization id name now = .ok (o, after)) :
    after = t.modifyOrganization id fun o => { o with name := name, updatedAt := now } := by
  obtain ⟨old, -, h⟩ := found_bind_ok h
  exact (Prod.mk.inj (Except.ok.inj h)).2.symm

/-- An organization goes with all it owns, unless entries are nested too deep. -/
theorem Sound.dropOrganization_eq (hs : t.Sound) (ho : t.organization? id = some o) :
    (t.TooDeepWithin id ∧ t.dropOrganization id = .error .failed) ∨
      (¬ t.TooDeepWithin id ∧ t.dropOrganization id = .ok ((), t.withoutOrganization id)) := by
  have hdrop : t.dropOrganization id = t.dropRow .organization id := by
    rw [dropOrganization, ho]
    rfl
  rw [hdrop, dropRow]
  refine (hs.delete_organization (Option.isSome_of_eq_some ho)).imp (fun h => ?_) fun h => ?_
  · rw [h.2]
    exact ⟨h.1, rfl⟩
  · rw [h.2]
    exact ⟨h.1, rfl⟩

theorem Sound.dropOrganization_ok (hs : t.Sound) {u : Unit}
    (h : t.dropOrganization id = .ok (u, after)) : after = t.withoutOrganization id := by
  obtain ⟨old, ho, -⟩ := found_bind_ok h
  rcases hs.dropOrganization_eq ho with ⟨-, heq⟩ | ⟨-, heq⟩
  · cases heq.symm.trans h
  · exact (Prod.mk.inj (Except.ok.inj (heq.symm.trans h))).2.symm

theorem Sound.storeOrganization (hs : t.Sound) (h : t.storeOrganization row = .ok (o, after)) :
    after.Sound := by
  obtain ⟨hnew, rfl⟩ := storeOrganization_ok h
  exact hs.addOrganization hnew

theorem Sound.renameOrganization (hs : t.Sound)
    (h : t.renameOrganization id name now = .ok (o, after)) : after.Sound := by
  obtain rfl := renameOrganization_ok h
  exact hs.modifyOrganization _ fun _ => rfl

theorem Sound.dropOrganization (hs : t.Sound) {u : Unit}
    (h : t.dropOrganization id = .ok (u, after)) : after.Sound := by
  obtain rfl := hs.dropOrganization_ok h
  exact hs.withoutOrganization id

end Tables
end TableStore
