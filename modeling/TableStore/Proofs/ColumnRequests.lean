import TableStore.Proofs.Requests

/-!
# Requests on columns and records

Storing, changing, deleting and reordering columns, as functions of the tables. Each request reads
the order that is there, computes the order to be, and leaves this one, written or not: a request
that does not write it has found that it is there already.
-/

namespace TableStore

open Database

variable {db : Database} {id table : Uuid} {now : Timestamp}

/-! ### What the requests do -/

/-- The row of a new column. -/
def NewColumn.row (c : NewColumn) (id table : Uuid) (index : Int) (now : Timestamp) : ColumnRow :=
  ⟨id, table, index, c.name, c.type.name, c.properties, now, now⟩

/-- A row with the values that an update gives to an old one. -/
def ColumnUpdate.revise (update : ColumnUpdate) (now : Timestamp) (old c : ColumnRow) : ColumnRow :=
  { c with
    name := update.name.getD old.name
    type := (update.type.map ColumnType.name).getD old.type
    properties :=
      match update.properties with
      | some u => old.properties.reread.apply u
      | none => old.properties.reread
    updatedAt := now }

namespace Tables

/-- Stores a column of a table at a position. -/
def storeColumn (t : Tables) (table : Uuid) (column : NewColumn) (index : Option Nat)
    (now : Timestamp) (id : Uuid) : Except StoreError (ColumnRow × Tables) :=
  let order := t.columnOrder table
  let target := ColumnOrder.place order id index
  let row := column.row id table order.length now
  if (t.column? id).isSome then .error .uniqueViolation
  else .ok ({ row with index := target.idxOf id }.reread, t.addColumn row target)

/-- The order of a table after a column of it is updated. -/
def orderAfter (t : Tables) (column : ColumnRow) (index : Option Nat) : ColumnOrder :=
  if index.isSome then ColumnOrder.place (t.columnOrder column.tableId) column.id index
  else t.columnOrder column.tableId

/-- Changes a column, and its position if there is an index. -/
def changeColumn (t : Tables) (id : Uuid) (update : ColumnUpdate) (now : Timestamp) :
    Except StoreError (ColumnRow × Tables) := do
  let old ← found (t.column? id)
  let target := t.orderAfter old update.index
  return ({ update.revise now old old with index := target.idxOf id }.reread,
    (t.modifyColumn id (update.revise now old)).withOrder old.tableId target)

/-- Deletes a column. -/
def dropColumn (t : Tables) (id : Uuid) : Except StoreError (Unit × Tables) := do
  let old ← found (t.column? id)
  return ((), t.removeColumn old)

/-- Brings the named columns of a table to the front. -/
def reorderColumns (t : Tables) (table : Uuid) (columns : List Uuid) : List ColumnRow × Tables :=
  let after := t.withOrder table (ColumnOrder.reorder (t.columnOrder table) columns)
  ((after.columnsOf table).map ColumnRow.reread, after)

/-- Stores records. -/
def storeRecords (t : Tables) (plan : Query.InsertPlan) : Except StoreError (Nat × Tables) :=
  match t.insertPlan plan with
  | .ok after => .ok (plan.records.length, after)
  | .error fault => .error (.ofEngineMessage fault.message)

/-- A column is found where an order has been written, with its position. -/
theorem column?_withOrder {t : Tables} {order : ColumnOrder} {c : ColumnRow}
    (hc : t.column? id = some c) (htable : c.tableId = table) :
    (t.withOrder table order).column? id = some { c with index := order.idxOf id } := by
  have hfind : (t.withOrder table order).column? id = (t.column? id).map _ :=
    find?_key_map _ fun d => by by_cases hd : d.tableId = table <;> simp [hd]
  rw [hfind, hc, Option.map_some, if_pos htable, (column?_spec hc).2]

end Tables

/-! ### How the requests are served -/

section

variable (hs : db.tables.Sound) (hw : db.readOnly = false)

theorem outcome_columnOrder :
    (Batch.ask (.columnOrder table)).outcome db = (.ok (db.tables.columnOrder table), db) :=
  Batch.outcome_ask (execute_reading _ (·.columnOrder table) rfl)

theorem outcome_getColumn {c : ColumnRow} (hc : db.tables.column? id = some c) :
    (Batch.askOne (.getColumn id)).outcome db = (.ok c.reread, db) := by
  have hread := execute_reading (.getColumn id) (columnRow? id) (rfl : db.exec _ = _)
  rw [columnRow?, hc] at hread
  exact Batch.outcome_askOne hread

include hw

/-- The values of an update are written as a whole. -/
theorem outcome_setColumn (old : ColumnRow) (update : ColumnUpdate) :
    (Batch.ask (.setColumn old.id (update.name.getD old.reread.name)
      ((update.type.map ColumnType.name).getD old.reread.type)
      (match update.properties with
        | some u => old.reread.properties.apply u
        | none => old.reread.properties) now)).outcome db =
      (.ok (), { db with tables := db.tables.modifyColumn old.id (update.revise now old) }) :=
  Batch.outcome_ask (execute_writing _
    (fun t => .ok (t.modifyColumn old.id (update.revise now old))) (fun _ => ()) hw rfl rfl)

/-- A transaction that writes an order, and reads something after it, leaves this order. -/
theorem serves_writeOrder {α : Type} {r : Request α} {a : α} {t : Tables}
    {target : ColumnOrder} (f : Unit → Batch α) (hr : r.atomic = true)
    (hn : (t.columns.map ColumnRow.id).Nodup)
    (hspread : t.Spread table) (hp : ((t.rowsOf table).map ColumnRow.id).Perm target)
    (hstart : r.batch.outcome db =
      (Request.writeOrder table target >>= f).outcome { db with tables := t })
    (hend : (f ()).outcome { db with tables := t.withOrder table target } =
      (.ok a, { db with tables := t.withOrder table target })) :
    db.Serves r (.ok (a, t.withOrder table target)) := by
  rcases outcome_writeOrder (writable_after hw t) hn hspread hp with hok | ⟨hlocked, after, hfail⟩
  · exact .inl (serve_ok (hstart.trans ((Batch.outcome_bind_ok hok).trans hend)))
  · exact .inr ⟨hlocked, serve_error (hstart.trans (Batch.outcome_bind_error hfail)) (.inl hr)⟩

include hs

/-- A new column goes to the end, and from there to its place. -/
theorem serves_createColumn (column : NewColumn) (index : Option Nat)
    (htable : db.tables.IsEntry table .table) :
    db.Serves (Request.createColumn table column index now id)
      (db.tables.storeColumn table column index now id) := by
  let order := db.tables.columnOrder table
  let row := column.row id table order.length now
  let target := ColumnOrder.place order id index
  rw [Tables.storeColumn]
  split
  case isTrue h =>
    have hrun := execute_insertColumn_refused hw
      (Tables.insertColumn_taken (show (db.tables.column? row.id).isSome = true from h))
    rw [ofEngineMessage_unique (by simp)] at hrun
    exact .inl (serve_error ((Batch.outcome_bind_ok outcome_columnOrder).trans
      (Batch.outcome_bind_error (Batch.outcome_send_error hrun))) (.inl rfl))
  case isFalse h =>
    have hnone : db.tables.column? id = none := by simpa using h
    have hnew : db.tables.column? row.id = none := hnone
    have hmem : id ∉ order := hs.notMem_columnOrder hnone
    have hindex : ∀ c ∈ db.tables.rowsOf row.tableId, c.index ≠ row.index := fun c hc => by
      have hlt : order.idxOf c.id < order.length := List.idxOf_lt_length_of_mem
        (Tables.columnOrder_perm.mem_iff.mpr (List.mem_map_of_mem hc))
      rw [(hs.ordered table).index c hc]
      show (order.idxOf c.id : Int) ≠ (order.length : Int)
      exact_mod_cast Nat.ne_of_lt hlt
    have hinsert := Batch.outcome_ask (execute_insertColumn hw
      (Tables.insertColumn_ok hnew hindex ((hs.mem_tables _).mpr htable)))
    have hordered := hs.ordered_append hnew rfl
    have hread : (Batch.askOne (.getColumn id)).outcome
        { db with tables := db.tables.addColumn row target } =
          (.ok { row with index := target.idxOf id }.reread,
            { db with tables := db.tables.addColumn row target }) :=
      outcome_getColumn (Tables.column?_withOrder
        ((find?_key_append hnew).trans (if_pos rfl)) rfl)
    by_cases hlast : target.getLast? = some id
    · -- the end is the place, and the order is there without being written
      have hsame : db.tables.addColumn row target =
          db.tables.setColumns (db.tables.columns ++ [row]) := by
        rw [Tables.addColumn,
          show target = order ++ [id] from ColumnOrder.place_eq_append hmem hlast]
        exact hordered.withOrder_eq
      refine .inl (serve_ok ((Batch.outcome_bind_ok outcome_columnOrder).trans
        ((Batch.outcome_bind_ok hinsert).trans ?_)))
      rw [← hsame]
      dsimp only
      rw [if_neg (not_not.mpr hlast)]
      exact hread
    · have hp : target.Perm (order ++ [id]) := ColumnOrder.place_perm_append hmem
      refine serves_writeOrder hw (fun _ => Batch.askOne (.getColumn id)) rfl
        (nodup_map_append hs.columns_nodup hnew) hordered.spread
        (Tables.addColumn_perm hp) ((Batch.outcome_bind_ok outcome_columnOrder).trans
          ((Batch.outcome_bind_ok hinsert).trans ?_)) hread
      dsimp only
      rw [if_pos hlast]
      rfl

/-- An updated column stays at its place, or goes to another. -/
theorem serves_updateColumn (update : ColumnUpdate) :
    db.Serves (Request.updateColumn id update now) (db.tables.changeColumn id update now) := by
  rw [Tables.changeColumn]
  cases hc : db.tables.column? id with
  | none =>
    have hread := execute_reading (.getColumn id) (columnRow? id) (rfl : db.exec _ = _)
    rw [columnRow?, hc] at hread
    exact .inl (serve_error (Batch.outcome_bind_error (Batch.outcome_askOne_none hread)) (.inl rfl))
  | some old =>
    obtain ⟨hmem, rfl⟩ := Tables.column?_spec hc
    let change := update.revise now old
    let t := db.tables.modifyColumn old.id change
    let order := db.tables.columnOrder old.tableId
    let target := db.tables.orderAfter old update.index
    have hget := outcome_getColumn hc
    have hset : _ = (Except.ok (), { db with tables := t }) := outcome_setColumn hw old update
    have hordered : t.Ordered old.tableId order :=
      Tables.ordered_modifyColumn change (fun _ => rfl) (fun _ => rfl) (fun _ => rfl)
        (hs.ordered old.tableId)
    have hfound : t.column? old.id = some (change old) := by
      rw [Tables.column?_modifyColumn change fun _ => rfl, if_pos rfl, hc]
      rfl
    have hread : (Batch.askOne (.getColumn old.id)).outcome
        { db with tables := t.withOrder old.tableId target } =
          (.ok { change old with index := target.idxOf old.id }.reread,
            { db with tables := t.withOrder old.tableId target }) :=
      outcome_getColumn (Tables.column?_withOrder hfound rfl)
    have hkeep : target = order → t.withOrder old.tableId target = t := fun h =>
      h ▸ hordered.withOrder_eq
    by_cases hindex : update.index.isSome = true
    · have htarget : target = ColumnOrder.place order old.id update.index := if_pos hindex
      have horder : (Batch.ask (.columnOrder old.tableId)).outcome { db with tables := t } =
          (.ok order, { db with tables := t }) := by
        rw [outcome_columnOrder, hordered.columnOrder_eq]
      by_cases hsame : target = order
      · -- the column stands where it is to be, and no order is written
        refine .inl (serve_ok ((Batch.outcome_bind_ok hget).trans
          ((Batch.outcome_bind_ok hset).trans ?_)))
        dsimp only
        rw [if_pos hindex]
        refine (Batch.outcome_bind_ok horder).trans ?_
        rw [← htarget, if_neg (not_not.mpr hsame), ← hkeep hsame]
        exact hread
      · have hmemo : old.id ∈ order := Tables.mem_columnOrder hc
        have hp : ((t.rowsOf old.tableId).map ColumnRow.id).Perm target :=
          hordered.perm.trans
            (htarget ▸ (ColumnOrder.place_perm_of_mem hordered.nodup hmemo).symm)
        have hkeys : t.columns.map ColumnRow.id = db.tables.columns.map ColumnRow.id :=
          map_key_map_ite change (fun _ => rfl) fun c => c.id = old.id
        have hn : (t.columns.map ColumnRow.id).Nodup := hkeys.symm ▸ hs.columns_nodup
        refine serves_writeOrder hw (fun _ => Batch.askOne (.getColumn old.id)) rfl hn
          hordered.spread hp ((Batch.outcome_bind_ok hget).trans
            ((Batch.outcome_bind_ok hset).trans ?_)) hread
        dsimp only
        rw [if_pos hindex]
        refine (Batch.outcome_bind_ok horder).trans ?_
        rw [← htarget, if_pos hsame]
        rfl
    · -- without an index the order is not even read
      refine .inl (serve_ok ((Batch.outcome_bind_ok hget).trans
        ((Batch.outcome_bind_ok hset).trans ?_)))
      dsimp only
      rw [if_neg hindex, ← hkeep (if_neg hindex)]
      exact hread

/-- A deleted column leaves no gap. -/
theorem serves_deleteColumn : db.Serves (Request.deleteColumn id) (db.tables.dropColumn id) := by
  have hrun := execute_writing (.deleteColumn id) (fun t => .ok (t.deleteColumn id))
    (fun _ => (db.tables.column? id).map ColumnRow.tableId) hw rfl rfl
  rw [Tables.dropColumn]
  cases hc : db.tables.column? id with
  | none =>
    rw [hc] at hrun
    exact .inl (serve_error (Batch.outcome_bind_error (Batch.outcome_askOne_none hrun)) (.inl rfl))
  | some old =>
    obtain ⟨hmem, rfl⟩ := Tables.column?_spec hc
    rw [hc] at hrun
    have hordered := hs.ordered old.tableId
    have horder : (Batch.ask (.columnOrder old.tableId)).outcome
        { db with tables := db.tables.deleteColumn old.id } =
          (.ok ((db.tables.columnOrder old.tableId).erase old.id),
            { db with tables := db.tables.deleteColumn old.id }) := by
      rw [outcome_columnOrder, Tables.columnOrder_deleteColumn hordered]
    -- the gap is still there, but indices that differ are all that writing an order asks for
    have hspread : (db.tables.deleteColumn old.id).Spread old.tableId :=
      hordered.spread.of_sublist (Tables.rowsOf_deleteColumn ▸ List.filter_sublist)
    have hn : ((db.tables.deleteColumn old.id).columns.map ColumnRow.id).Nodup :=
      hs.columns_nodup.sublist (List.filter_sublist.map _)
    refine serves_writeOrder hw pure rfl hn hspread (Tables.deleteColumn_perm hordered)
      ((Batch.outcome_bind_ok (Batch.outcome_askOne hrun)).trans ?_) rfl
    rw [Batch.bind_pure]
    exact Batch.outcome_bind_ok horder

/-- Reordering leaves the named columns in front. -/
theorem serves_reorderColumns (columns : List Uuid) :
    db.Serves (Request.reorderColumns table columns)
      (.ok (db.tables.reorderColumns table columns)) := by
  let order := db.tables.columnOrder table
  let target := ColumnOrder.reorder order columns
  have hordered := hs.ordered table
  have hread : (Batch.ask (.listColumns table)).outcome
      { db with tables := db.tables.withOrder table target } =
        (.ok (db.tables.reorderColumns table columns).1,
          { db with tables := db.tables.withOrder table target }) :=
    Batch.outcome_ask (execute_reading _ (fun t => (t.columnsOf table).map ColumnRow.reread) rfl)
  by_cases hsame : target = order
  · refine .inl (serve_ok ((Batch.outcome_bind_ok outcome_columnOrder).trans ?_))
    have hkeep : { db with tables := db.tables.withOrder table target } = db := by
      rw [hsame, hordered.withOrder_eq]
    dsimp only
    rw [if_neg (not_not.mpr hsame)]
    exact (congrArg (Batch.ask (.listColumns table)).outcome hkeep.symm).trans hread
  · have hp : ((db.tables.rowsOf table).map ColumnRow.id).Perm target :=
      hordered.perm.trans (ColumnOrder.reorder_perm hordered.nodup).symm
    refine serves_writeOrder hw (fun _ => Batch.ask (.listColumns table)) rfl hs.columns_nodup
      hordered.spread hp ((Batch.outcome_bind_ok outcome_columnOrder).trans ?_) hread
    dsimp only
    rw [if_pos hsame]

omit hs in
/-- Records are stored all together. -/
theorem serves_insertRecords (plan : Query.InsertPlan) :
    db.Serves (Request.insertRecords plan) (db.tables.storeRecords plan) := by
  refine .inl ?_
  rw [Tables.storeRecords]
  cases hr : db.tables.insertPlan plan with
  | ok after =>
    have hrun := execute_writing (.insertRecords plan) (fun t => t.insertPlan plan)
      (fun _ => plan.records.length) hw rfl hr
    exact serve_ok (Batch.outcome_ask hrun)
  | error fault =>
    have hrun := execute_refused (.insertRecords plan) (fun t => t.insertPlan plan)
      (fun _ => plan.records.length) hw rfl hr
    exact serve_error (Batch.outcome_send_error hrun) (.inl rfl)

end

/-! ### Soundness -/

namespace Tables

variable {t after : Tables} {row : ColumnRow}

theorem orderAfter_perm (hs : t.Sound) {old : ColumnRow} (hc : t.column? id = some old)
    (index : Option Nat) : (t.orderAfter old index).Perm (t.columnOrder old.tableId) := by
  obtain ⟨-, rfl⟩ := column?_spec hc
  rw [orderAfter]
  split
  · exact ColumnOrder.place_perm_of_mem (hs.ordered old.tableId).nodup (mem_columnOrder hc)
  · exact List.Perm.refl _

/-- What has been stored, and what had to hold for that. -/
theorem storeColumn_ok {column : NewColumn} {index : Option Nat}
    (h : t.storeColumn table column index now id = .ok (row, after)) :
    t.column? id = none ∧
      row = ({ column.row id table (t.columnOrder table).length now with
        index := ((t.columnOrder table).place id index).idxOf id } : ColumnRow).reread ∧
      after = t.addColumn (column.row id table (t.columnOrder table).length now)
        ((t.columnOrder table).place id index) := by
  rw [storeColumn] at h
  split at h
  case isTrue => cases h
  case isFalse hnew =>
    obtain ⟨hrow, hafter⟩ := Prod.mk.inj (Except.ok.inj h)
    exact ⟨by simpa using hnew, hrow.symm, hafter.symm⟩

theorem changeColumn_ok {update : ColumnUpdate}
    (h : t.changeColumn id update now = .ok (row, after)) :
    ∃ old, t.column? id = some old ∧
      row = ({ update.revise now old old with
        index := (t.orderAfter old update.index).idxOf id } : ColumnRow).reread ∧
      after = (t.modifyColumn id (update.revise now old)).withOrder old.tableId
        (t.orderAfter old update.index) := by
  obtain ⟨old, hold, h⟩ := found_bind_ok h
  obtain ⟨hrow, hafter⟩ := Prod.mk.inj (Except.ok.inj h)
  exact ⟨old, hold, hrow.symm, hafter.symm⟩

theorem dropColumn_ok {u : Unit} (h : t.dropColumn id = .ok (u, after)) :
    ∃ old, t.column? id = some old ∧ after = t.removeColumn old := by
  obtain ⟨old, hold, h⟩ := found_bind_ok h
  exact ⟨old, hold, (Prod.mk.inj (Except.ok.inj h)).2.symm⟩

/-- An update gives a known type, or keeps one. -/
theorem revise_type (update : ColumnUpdate) (now : Timestamp) {old : ColumnRow} (c : ColumnRow)
    (h : ∃ type : ColumnType, old.type = type.name) :
    ∃ type : ColumnType, (update.revise now old c).type = type.name := by
  cases htype : update.type with
  | none => simpa [ColumnUpdate.revise, htype] using h
  | some type => exact ⟨type, by simp [ColumnUpdate.revise, htype]⟩

theorem Sound.storeColumn (hs : t.Sound) {column : NewColumn} {index : Option Nat}
    (htable : t.IsEntry table .table)
    (h : t.storeColumn table column index now id = .ok (row, after)) : after.Sound := by
  obtain ⟨hnew, -, rfl⟩ := storeColumn_ok h
  exact hs.addColumn hnew ⟨column.type, rfl⟩ htable
    (ColumnOrder.place_perm_append (hs.notMem_columnOrder hnew))

theorem Sound.changeColumn (hs : t.Sound) {update : ColumnUpdate}
    (h : t.changeColumn id update now = .ok (row, after)) : after.Sound := by
  obtain ⟨old, hold, -, rfl⟩ := changeColumn_ok h
  have hmodified : (t.modifyColumn id (update.revise now old)).Sound :=
    hs.modifyColumn (fun _ => rfl) (fun _ => rfl) (fun _ => rfl) fun c _ =>
      revise_type update now c (hs.columnType old (column?_spec hold).1)
  have hsame : (t.modifyColumn id (update.revise now old)).columnOrder old.tableId =
      t.columnOrder old.tableId :=
    (ordered_modifyColumn (update.revise now old) (fun _ => rfl) (fun _ => rfl) (fun _ => rfl)
      (hs.ordered old.tableId)).columnOrder_eq
  exact hmodified.withOrder (hsame ▸ orderAfter_perm hs hold update.index)

theorem Sound.dropColumn (hs : t.Sound) {u : Unit} (h : t.dropColumn id = .ok (u, after)) :
    after.Sound := by
  obtain ⟨old, hold, rfl⟩ := dropColumn_ok h
  obtain ⟨-, rfl⟩ := column?_spec hold
  exact hs.removeColumn hold

theorem Sound.reorderColumns (hs : t.Sound) (columns : List Uuid) :
    (t.reorderColumns table columns).2.Sound :=
  hs.withOrder (ColumnOrder.reorder_perm (hs.ordered table).nodup)

/-- The records of a statement with too many placeholders are not stored. -/
theorem insertPlan_of_lt {plan : Query.InsertPlan} (h : maxPlaceholders < plan.params.length) :
    t.insertPlan plan = .error .tooManyPlaceholders := by
  rw [insertPlan, ensure_error (by simpa using h)]
  rfl

theorem insertPlan_of_le {plan : Query.InsertPlan} (h : plan.params.length ≤ maxPlaceholders) :
    t.insertPlan plan = t.insertRecords plan.records := by
  rw [insertPlan, ensure_ok (by simpa using h)]
  rfl

theorem storeRecords_ok {plan : Query.InsertPlan} {count : Nat}
    (h : t.storeRecords plan = .ok (count, after)) : t.insertRecords plan.records = .ok after := by
  rw [storeRecords] at h
  rcases Nat.lt_or_ge maxPlaceholders plan.params.length with hlt | hle
  · rw [insertPlan_of_lt hlt] at h
    cases h
  rw [insertPlan_of_le hle] at h
  cases hr : t.insertRecords plan.records with
  | error fault =>
    rw [hr] at h
    cases h
  | ok t' =>
    rw [hr] at h
    exact congrArg _ (Prod.mk.inj (Except.ok.inj h)).2

theorem Sound.storeRecords (hs : t.Sound) {plan : Query.InsertPlan} {count : Nat}
    (h : t.storeRecords plan = .ok (count, after)) : after.Sound :=
  (hs.insertRecords plan.records (storeRecords_ok h)).1

end Tables
end TableStore
