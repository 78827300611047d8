import TableStore.Proofs.Changes
import TableStore.Proofs.IndexWriting
import TableStore.Store.Engine

/-!
# Execution of batches

What a batch of statements does to a database (`Batch.outcome`), from what its parts do, and what a
request does, from what its batch does. Then the statements: those that only read, those that write,
and when a write is refused. At the end, the two batches that repeat a statement: writing an order
(`outcome_writeOrder`) and storing columns (`outcome_insertColumns`).
-/

namespace TableStore

variable {α β : Type} {db after : Database} {a : α} {e : StoreError}

/-! ### Batches and requests -/

/-- What a batch does to a database. -/
def Batch.outcome (b : Batch α) (db : Database) : Except StoreError α × Database :=
  b.run Database.execute db

namespace Batch

theorem outcome_bind_ok {b : Batch α} {f : α → Batch β} (h : b.outcome db = (.ok a, after)) :
    (b >>= f).outcome db = (f a).outcome after := by
  have hrun := run_bind Database.execute b f db
  rw [show b.run Database.execute db = (.ok a, after) from h] at hrun
  exact hrun

theorem outcome_bind_error {b : Batch α} {f : α → Batch β}
    (h : b.outcome db = (.error e, after)) : (b >>= f).outcome db = (.error e, after) := by
  have hrun := run_bind Database.execute b f db
  rw [show b.run Database.execute db = (.error e, after) from h] at hrun
  exact hrun

theorem outcome_send_ok {s : Statement β} {next : β → Batch α} {b : β}
    (h : db.execute s = (.ok b, after)) :
    (Batch.send s next).outcome db = (next b).outcome after := by
  rw [outcome, run, h]
  rfl

theorem outcome_send_error {s : Statement β} {next : β → Batch α}
    (h : db.execute s = (.error e, after)) :
    (Batch.send s next).outcome db = (.error e, after) := by
  rw [outcome, run, h]

/-- Returning what has been returned does nothing. -/
theorem bind_pure (b : Batch α) : b >>= pure = b := by
  change b.bind Batch.done = b
  induction b with
  | done _ => rfl
  | fail _ => rfl
  | send s next ih => simp only [bind, ih]

theorem outcome_ask {s : Statement α} (h : db.execute s = (.ok a, after)) :
    (ask s).outcome db = (.ok a, after) :=
  outcome_send_ok h

theorem outcome_askOne {s : Statement (Option α)} (h : db.execute s = (.ok (some a), after)) :
    (askOne s).outcome db = (.ok a, after) :=
  outcome_send_ok h

theorem outcome_askOne_none {s : Statement (Option α)} (h : db.execute s = (.ok none, after)) :
    (askOne s).outcome db = (.error .rowNotFound, after) :=
  outcome_send_ok h

end Batch

namespace Database

theorem serve_ok {r : Request α} (h : r.batch.outcome db = (.ok a, after)) :
    db.serve r = (.ok a, after) := by
  rw [serve, show r.batch.run execute db = (.ok a, after) from h]

/-- A request that fails leaves nothing behind if it is a transaction, or changed nothing. -/
theorem serve_error {r : Request α} (h : r.batch.outcome db = (.error e, after))
    (hr : r.atomic = true ∨ after = db) : db.serve r = (.error e, db) := by
  rw [serve, show r.batch.run execute db = (.error e, after) from h]
  rcases hr with hr | rfl
  · rw [hr]
    rfl
  · simp

/-! ### Statements -/

/-- What could be written can be written again. -/
theorem writable_after (hw : db.readOnly = false) (t : Tables) :
    ({ db with tables := t } : Database).readOnly = false :=
  hw

theorem execute_reading (s : Statement α) (answer : Tables → α)
    (h : db.exec s = db.reading answer) : db.execute s = (.ok (answer db.tables), db) := by
  rw [execute, h, reading]

section Writing

variable (s : Statement α) (change : Tables → Tables.Change) (answer : Tables → α)
  (hw : db.readOnly = false) (h : db.exec s = db.writing change answer)
include hw h

theorem execute_writing {t : Tables} (hc : change db.tables = .ok t) :
    db.execute s = (.ok (answer t), { db with tables := t }) := by
  rw [execute, h, writing, hw, if_neg (by simp), hc]

theorem execute_refused {fault : EngineFault} (hc : change db.tables = .error fault) :
    db.execute s = (.error (.ofEngineMessage fault.message), db) := by
  rw [execute, h, writing, hw, if_neg (by simp), hc]

end Writing
end Database

/-- What a broken uniqueness is to the store, for the keys there are. -/
theorem ofEngineMessage_unique {key : String}
    (h : key ∈ ["organizations.id", "table_filesystem_entries.id", "columns.id", "records.id"]) :
    StoreError.ofEngineMessage (EngineFault.unique key).message = .uniqueViolation := by
  simp only [List.mem_cons, List.not_mem_nil, or_false] at h
  rcases h with rfl | rfl | rfl | rfl <;> rfl

namespace Tables

variable {t : Tables} {id table : Uuid}

/-! ### Refused and accepted changes -/

theorem ensure_ok {condition : Bool} {fault : EngineFault} (h : condition = true) :
    ensure condition fault = .ok () := by
  rw [ensure, if_pos h]

theorem ensure_error {condition : Bool} {fault : EngineFault} (h : condition = false) :
    ensure condition fault = .error fault := by
  rw [ensure, if_neg (by simp [h])]

/-- What is refused lacks its condition. -/
theorem ensure_eq_error {condition : Bool} {fault fault' : EngineFault}
    (h : ensure condition fault = .error fault') : condition = false ∧ fault' = fault := by
  cases condition with
  | true => cases h
  | false => exact ⟨rfl, (Except.error.inj h).symm⟩

theorem insertOrganization_ok {row : Organization} (hnew : t.organization? row.id = none) :
    t.insertOrganization row = .ok (t.addOrganization row) := by
  rw [insertOrganization, ensure_ok (by simp [hnew])]
  rfl

theorem insertOrganization_taken {row : Organization} (h : (t.organization? row.id).isSome = true) :
    t.insertOrganization row = .error (.unique "organizations.id") := by
  rw [insertOrganization, ensure_error (by simpa using h)]
  rfl

/-- The tables with other rows of entries. -/
def setEntries (t : Tables) (rows : List EntryRow) : Tables :=
  { t with entries := rows }

theorem insertEntry_ok {row : EntryRow} (hnew : t.entry? row.id = none)
    (howner : (t.organization? row.organizationId).isSome = true)
    (hparent : t.isParent row.parent = true) :
    t.insertEntry row = .ok (t.setEntries (t.entries ++ [row])) := by
  rw [insertEntry, ensure_ok (by simp [hnew]), ensure_ok howner, ensure_ok hparent]
  rfl

/-- A new row is there once it is stored. -/
theorem entry?_append_self {row : EntryRow} (hnew : t.entry? row.id = none) :
    Tables.entry? (t.setEntries (t.entries ++ [row])) row.id = some row :=
  (find?_key_append hnew).trans (if_pos rfl)

theorem insertEntry_taken {row : EntryRow} (h : (t.entry? row.id).isSome = true) :
    t.insertEntry row = .error (.unique "table_filesystem_entries.id") := by
  rw [insertEntry, ensure_error (by simpa using h)]
  rfl

/-- Marking a new row as a folder adds a folder. -/
theorem Sound.markFolder_new (hs : t.Sound) {row : EntryRow} (hnew : t.entry? row.id = none) :
    (t.setEntries (t.entries ++ [row])).markFolder row.id = .ok (t.addEntry row .folder []) := by
  have hfree : row.id ∉ t.folders := fun h =>
    not_isEntry_of_none hnew .folder ((hs.mem_folders _).mp h)
  rw [markFolder, ensure_ok (by simpa [setEntries] using hfree),
    ensure_ok (by simp [entry?_append_self hnew])]
  simp [Tables.addEntry, setEntries, bind, Except.bind, pure, Except.pure]

/-- Marking a new row as a table adds a table. -/
theorem Sound.markTable_new (hs : t.Sound) {row : EntryRow} (hnew : t.entry? row.id = none) :
    (t.setEntries (t.entries ++ [row])).markTable row.id = .ok (t.addEntry row .table []) := by
  have hfree : row.id ∉ t.tables := fun h =>
    not_isEntry_of_none hnew .table ((hs.mem_tables _).mp h)
  rw [markTable, ensure_ok (by simpa [setEntries] using hfree),
    ensure_ok (by simp [entry?_append_self hnew])]
  simp [Tables.addEntry, setEntries, bind, Except.bind, pure, Except.pure]

theorem setParent_ok {parent : Option Uuid} (h : t.isParent parent = true) :
    t.setParent id parent = .ok (t.modifyEntry id fun e => { e with parent := parent }) := by
  rw [setParent, ensure_ok (by simp [h])]
  rfl

section InsertColumn

variable {row : ColumnRow}

theorem insertColumn_ok (hnew : t.column? row.id = none)
    (hindex : ∀ c ∈ t.rowsOf row.tableId, c.index ≠ row.index) (htable : row.tableId ∈ t.tables) :
    t.insertColumn row = .ok (t.setColumns (t.columns ++ [row])) := by
  have hfree : t.hasIndex row.tableId row.index = false := by
    refine List.any_eq_false.mpr fun c hc => ?_
    simpa using fun hct => hindex c (mem_rowsOf.mpr ⟨hc, hct⟩)
  rw [insertColumn, ensure_ok (by simp [hnew]), ensure_ok (by simp [hfree]),
    ensure_ok (by simpa using htable)]
  rfl

theorem insertColumn_taken (h : (t.column? row.id).isSome = true) :
    t.insertColumn row = .error (.unique "columns.id") := by
  rw [insertColumn, ensure_error (by simpa using h)]
  rfl

/-- A column of something that is no table breaks a reference. -/
theorem insertColumn_stray (hnew : t.column? row.id = none) (hnone : t.rowsOf row.tableId = [])
    (htable : row.tableId ∉ t.tables) : t.insertColumn row = .error .foreignKey := by
  have hfree : t.hasIndex row.tableId row.index = false := by
    refine List.any_eq_false.mpr fun c hc => ?_
    have hne : c.tableId ≠ row.tableId := fun hct =>
      List.not_mem_nil (hnone ▸ mem_rowsOf.mpr ⟨hc, hct⟩)
    simpa using fun hct => absurd hct hne
  rw [insertColumn, ensure_ok (by simp [hnew]), ensure_ok (by simp [hfree]),
    ensure_error (by simpa using htable)]
  rfl

end InsertColumn
end Tables

/-! ### Writing an order -/

section WriteOrder

open Tables

variable (hw : db.readOnly = false)
include hw

theorem execute_setIndex {id : Uuid} {k : Nat} {t : Tables}
    (h : writeIndex db.locked db.tables id k = .ok t) :
    db.execute (.setIndex id k) = (.ok (), { db with tables := t }) :=
  Database.execute_writing (.setIndex id k) (fun t => writeIndex db.locked t id k) (fun _ => ())
    hw rfl h

theorem execute_setIndex_refused {id : Uuid} {k : Nat} {fault : EngineFault}
    (h : writeIndex db.locked db.tables id k = .error fault) :
    db.execute (.setIndex id k) = (.error (.ofEngineMessage fault.message), db) :=
  Database.execute_refused (.setIndex id k) (fun t => writeIndex db.locked t id k) (fun _ => ())
    hw rfl h

theorem execute_negateIndices {table : Uuid} {t : Tables}
    (h : negateIndices db.locked db.tables table = .ok t) :
    db.execute (.negateIndices table) = (.ok (), { db with tables := t }) :=
  Database.execute_writing (.negateIndices table) (fun t => negateIndices db.locked t table)
    (fun _ => ()) hw rfl h

theorem outcome_writePositions_ok {order : ColumnOrder} {k : Nat} {t : Tables}
    (h : writeIndices db.locked db.tables ((order.zipIdx k).map fun p => (p.1, (p.2 : Int))) =
      .ok t) :
    (Request.writePositions k order).outcome db = (.ok (), { db with tables := t }) := by
  induction order generalizing k db with
  | nil =>
    obtain rfl := Except.ok.inj h
    rfl
  | cons id order ih =>
    rw [List.zipIdx_cons, List.map_cons] at h
    cases hone : writeIndex db.locked db.tables id k with
    | error fault =>
      rw [writeIndices_cons_error hone] at h
      cases h
    | ok t₁ =>
      rw [writeIndices_cons_ok hone] at h
      exact (Batch.outcome_send_ok (execute_setIndex hw hone)).trans
        (ih (Database.writable_after hw t₁) h)

theorem outcome_writePositions_guarded {order : ColumnOrder} {k : Nat}
    (h : writeIndices db.locked db.tables ((order.zipIdx k).map fun p => (p.1, (p.2 : Int))) =
      .error .guarded) :
    ∃ after, (Request.writePositions k order).outcome db = (.error .failed, after) := by
  induction order generalizing k db with
  | nil => cases h
  | cons id order ih =>
    rw [List.zipIdx_cons, List.map_cons] at h
    cases hone : writeIndex db.locked db.tables id k with
    | error fault =>
      rw [writeIndices_cons_error hone] at h
      obtain rfl := Except.error.inj h
      exact ⟨db, Batch.outcome_send_error (execute_setIndex_refused hw hone)⟩
    | ok t₁ =>
      rw [writeIndices_cons_ok hone] at h
      obtain ⟨after, ha⟩ := ih (Database.writable_after hw t₁) h
      exact ⟨after, (Batch.outcome_send_ok (execute_setIndex hw hone)).trans ha⟩

/-- Writing an order of the columns of a table leaves them in this order, or is refused by a guarded
column. -/
theorem outcome_writeOrder {table : Uuid} {order : ColumnOrder}
    (hn : (db.tables.columns.map ColumnRow.id).Nodup) (h : db.tables.Spread table)
    (hp : ((db.tables.rowsOf table).map ColumnRow.id).Perm order) :
    (Request.writeOrder table order).outcome db =
        (.ok (), { db with tables := db.tables.withOrder table order }) ∨
      db.locked ≠ none ∧
        ∃ after, (Request.writeOrder table order).outcome db = (.error .failed, after) := by
  have hfirst : (Request.writeOrder table order).outcome db =
      (Request.writePositions 0 order).outcome
        { db with tables := db.tables.assign (db.tables.negated table) } :=
    Batch.outcome_send_ok (execute_negateIndices hw (negateIndices_ok hn h))
  have hw' := Database.writable_after hw (db.tables.assign (db.tables.negated table))
  rw [hfirst]
  rcases writeIndices_positions hn h hp with hok | ⟨hlocked, hguarded⟩
  · exact .inl (outcome_writePositions_ok hw' hok)
  · exact .inr ⟨hlocked, outcome_writePositions_guarded hw' hguarded⟩

end WriteOrder

/-! ### Storing columns -/

/-- The rows of new columns of a table, at positions counted from `position`. -/
def columnRows (table : Uuid) (now : Timestamp) (fresh : Nat → Uuid) :
    Nat → List NewColumn → List ColumnRow
  | _, [] => []
  | position, c :: rest =>
    ⟨fresh position, table, position, c.name, c.type.name, c.properties, now, now⟩ ::
      columnRows table now fresh (position + 1) rest

section InsertColumns

open Tables

variable {table : Uuid} {now : Timestamp} {fresh : Nat → Uuid}

theorem map_id_columnRows (columns : List NewColumn) (position : Nat) :
    (columnRows table now fresh position columns).map ColumnRow.id =
      (List.range' position columns.length).map fresh := by
  induction columns generalizing position with
  | nil => rfl
  | cons c rest ih => simp [columnRows, ih, List.range'_succ]

/-- New columns belong to the table, are of a known type, and are numbered. -/
theorem columnRows_spec {columns : List NewColumn} {position : Nat} {c : ColumnRow}
    (hc : c ∈ columnRows table now fresh position columns) :
    c.tableId = table ∧ (∃ type : ColumnType, c.type = type.name) ∧
      ∃ i < columns.length,
        c.id = fresh (position + i) ∧ c.index = ((position + i : Nat) : Int) := by
  induction columns generalizing position with
  | nil => cases hc
  | cons d rest ih =>
    rcases List.mem_cons.mp hc with rfl | hc
    · exact ⟨rfl, ⟨d.type, rfl⟩, 0, by simp, rfl, rfl⟩
    · obtain ⟨htable, htype, i, hi, hid, hindex⟩ := ih hc
      refine ⟨htable, htype, i + 1, by simpa using hi, ?_, ?_⟩
      · rw [hid, Nat.add_right_comm, Nat.add_assoc]
      · rw [hindex, Nat.add_right_comm, Nat.add_assoc]

variable (hw : db.readOnly = false)
include hw

theorem execute_insertColumn {row : ColumnRow} {t : Tables}
    (h : db.tables.insertColumn row = .ok t) :
    db.execute (.insertColumn row) = (.ok (), { db with tables := t }) :=
  Database.execute_writing (.insertColumn row) (·.insertColumn row) (fun _ => ()) hw rfl h

theorem execute_insertColumn_refused {row : ColumnRow} {fault : EngineFault}
    (h : db.tables.insertColumn row = .error fault) :
    db.execute (.insertColumn row) = (.error (.ofEngineMessage fault.message), db) :=
  Database.execute_refused (.insertColumn row) (·.insertColumn row) (fun _ => ()) hw rfl h

/-- The columns of a table are stored if their identifiers are new and differ. -/
theorem outcome_insertColumns {columns : List NewColumn} {position : Nat}
    (hn : (db.tables.columns.map ColumnRow.id).Nodup) (htable : table ∈ db.tables.tables)
    (hindex : ∀ c ∈ db.tables.rowsOf table, c.index < position) {rows : List ColumnRow}
    (hrows : db.tables.columns ++ columnRows table now fresh position columns = rows) :
    (rows.map ColumnRow.id).Nodup ∧
        (Request.insertColumns table now fresh position columns).outcome db =
          (.ok (), { db with tables := db.tables.setColumns rows }) ∨
      ¬ (rows.map ColumnRow.id).Nodup ∧
        ∃ after, (Request.insertColumns table now fresh position columns).outcome db =
          (.error .uniqueViolation, after) := by
  -- the database changes from one column to the next; that its indices stay below the position
  -- is what lets the next one be stored
  induction columns generalizing position db with
  | nil =>
    rw [columnRows, List.append_nil] at hrows
    exact hrows ▸ .inl ⟨hn, rfl⟩
  | cons c rest ih =>
    let row : ColumnRow :=
      ⟨fresh position, table, position, c.name, c.type.name, c.properties, now, now⟩
    rw [columnRows] at hrows
    by_cases hnew : db.tables.column? row.id = none
    · have hrun := execute_insertColumn hw (insertColumn_ok hnew
        (fun d hd => Int.ne_of_lt (hindex d hd)) htable)
      have hw' := Database.writable_after hw (db.tables.setColumns (db.tables.columns ++ [row]))
      have hindex' : ∀ d ∈ (db.tables.setColumns (db.tables.columns ++ [row])).rowsOf table,
          d.index < ((position + 1 : Nat) : Int) := fun d hd => by
        rw [show table = row.tableId from rfl, rowsOf_append_self] at hd
        rcases List.mem_append.mp hd with hd | hd
        · have hlt := hindex d hd
          omega
        · rw [List.mem_singleton.mp hd]
          exact Int.lt_succ position
      have hrows' : db.tables.columns ++ [row] ++
          columnRows table now fresh (position + 1) rest = rows := by
        rw [List.append_assoc]
        exact hrows
      rcases ih hw' (nodup_map_append hn hnew) htable hindex' hrows' with
        ⟨hok, hrest⟩ | ⟨hno, hrest⟩
      · exact .inl ⟨hok, (Batch.outcome_send_ok hrun).trans hrest⟩
      · exact .inr ⟨hno, hrest.imp fun _ h => (Batch.outcome_send_ok hrun).trans h⟩
    · have hsome : (db.tables.column? row.id).isSome = true := by
        simpa [Option.isSome_iff_ne_none] using hnew
      obtain ⟨old, hold⟩ := Option.isSome_iff_exists.mp hsome
      obtain ⟨hmem, hid⟩ := column?_spec hold
      have hrun := execute_insertColumn_refused hw (insertColumn_taken hsome)
      rw [ofEngineMessage_unique (by simp)] at hrun
      refine .inr ⟨fun hnodup => ?_, db, Batch.outcome_send_error hrun⟩
      -- the identifier stands among the old columns and among the new ones
      rw [← hrows, List.map_append] at hnodup
      exact List.disjoint_of_nodup_append hnodup (hid ▸ List.mem_map_of_mem hmem)
        List.mem_cons_self

/-- Columns of something that is no table are not stored. -/
theorem outcome_insertColumns_stray (c : NewColumn) (rest : List NewColumn)
    (hnone : db.tables.rowsOf table = []) (htable : table ∉ db.tables.tables) :
    (Request.insertColumns table now fresh 0 (c :: rest)).outcome db =
      (.error (if (db.tables.column? (fresh 0)).isSome then .uniqueViolation
        else .foreignKeyViolation), db) := by
  refine Batch.outcome_send_error ?_
  split
  case isTrue h =>
    rw [execute_insertColumn_refused hw (insertColumn_taken h), ofEngineMessage_unique (by simp)]
  case isFalse h =>
    have hnew : db.tables.column? (fresh 0) = none := by simpa using h
    exact execute_insertColumn_refused hw (insertColumn_stray hnew hnone htable)

end InsertColumns
end TableStore
