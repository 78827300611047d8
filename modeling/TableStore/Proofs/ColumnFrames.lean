import TableStore.Proofs.Compilation
import TableStore.Proofs.PropertyHistory
import TableStore.Proofs.QueryDocuments

/-!
# What operations on columns leave alone

An operation on the columns of a table is about one column at most. It changes nothing but columns
of this table, and of the other ones nothing but the index (`TouchesColumn`). The column of an
update has the values it was given, with the time of the update, and keeps all others
(`ColumnChanges.Gives`), save that its properties are read and written by the way.

A select sees the records of its table and which of the columns that it names the table has, so it
answers the same before and after (`OnlyColumnsOf.answer_select`).
-/

namespace TableStore

open Tables

/-- The table whose columns an operation is about, and the column that it makes, changes or
deletes. -/
def Operation.columnTarget? (env : Surroundings) : Operation → Option (Uuid × Option Uuid)
  | .createColumn table _ _ => some (table, some (env.fresh 0))
  | .updateColumn table column _ => some (table, some column)
  | .deleteColumn table column => some (table, some column)
  | .reorderColumns table _ => some (table, none)
  | _ => none

namespace Tables

variable {t after : Tables} {table id : Uuid} {own : Option Uuid} {old : ColumnRow}

/-! ### Changes of columns -/

/-- Nothing but the columns of one table has changed, and of all columns but one at most the
index. -/
structure TouchesColumn (before after : Tables) (table : Uuid) (own : Option Uuid) : Prop extends
    OnlyColumnsOf before after table where
  ownOnly : ∀ id, own ≠ some id →
    (after.column? id).map unplaced = (before.column? id).map unplaced

theorem unplaced_withOrder (order : ColumnOrder) :
    ((t.withOrder table order).column? id).map unplaced = (t.column? id).map unplaced := by
  have hfind : (t.withOrder table order).column? id = (t.column? id).map _ :=
    find?_key_map _ fun c => by by_cases hc : c.tableId = table <;> simp [hc]
  rw [hfind, Option.map_map]
  refine Option.map_congr fun c _ => ?_
  rw [Function.comp_apply]
  split <;> rfl

theorem touchesColumn_withOrder (order : ColumnOrder) :
    TouchesColumn t (t.withOrder table order) table own :=
  ⟨onlyColumnsOf_withOrder, fun _ _ => unplaced_withOrder order⟩

theorem TouchesColumn.withOrder (h : TouchesColumn t after table own) (order : ColumnOrder) :
    TouchesColumn t (after.withOrder table order) table own where
  toOnlyColumnsOf := h.toOnlyColumnsOf.trans onlyColumnsOf_withOrder
  ownOnly := fun id hid => (unplaced_withOrder order).trans (h.ownOnly id hid)

theorem touchesColumn_append {row : ColumnRow} (hnew : t.column? row.id = none) :
    TouchesColumn t (t.setColumns (t.columns ++ [row])) row.tableId (some row.id) where
  columnsOnly := rfl
  others := fun _ hne => rowsOf_append_of_ne hne
  ownOnly := fun id hid => by
    rw [column?_append hnew, if_neg fun h => hid (congrArg some h.symm)]

namespace Sound

variable (hs : t.Sound)
include hs

/-- A column stands in one table only. -/
theorem rowsOf_modifyColumn_of_ne {f : ColumnRow → ColumnRow}
    (htable : ∀ c, (f c).tableId = c.tableId) (hold : t.column? id = some old) {other : Uuid}
    (hne : other ≠ old.tableId) : (t.modifyColumn id f).rowsOf other = t.rowsOf other := by
  rw [rowsOf_modifyColumn htable]
  refine (List.map_congr_left fun c hc => if_neg fun hid => ?_).trans (List.map_id' _)
  obtain ⟨hmem, hother⟩ := mem_rowsOf.mp hc
  have hfound : t.column? id = some c := hid ▸ hs.column?_of_mem hmem
  obtain rfl := Option.some_inj.mp (hold.symm.trans hfound)
  exact hne hother.symm

theorem touchesColumn_modify {f : ColumnRow → ColumnRow} (hid : ∀ c, (f c).id = c.id)
    (htable : ∀ c, (f c).tableId = c.tableId) (hold : t.column? id = some old) :
    TouchesColumn t (t.modifyColumn id f) old.tableId (some id) where
  columnsOnly := rfl
  others := fun _ hne => hs.rowsOf_modifyColumn_of_ne htable hold hne
  ownOnly := fun other hother => by
    rw [column?_modifyColumn f hid, if_neg fun h => hother (congrArg some h.symm)]

theorem touchesColumn_delete (hold : t.column? old.id = some old) :
    TouchesColumn t (t.deleteColumn old.id) old.tableId (some old.id) where
  columnsOnly := rfl
  others := fun _ hne => hs.rowsOf_deleteColumn_of_ne hold hne
  ownOnly := fun other hother => by
    have hfind : (t.deleteColumn old.id).column? other = (t.column? other).filter _ :=
      find?_key_filter hs.columns_nodup _
    rw [hfind]
    cases hc : t.column? other with
    | none => rfl
    | some c =>
      have hne : c.id ≠ old.id := fun h => hother (by rw [← h, (column?_spec hc).2])
      rw [Option.filter_some_pos (by simpa using hne)]

end Sound
end Tables

/-! ### Operations -/

namespace Operation

variable {env : Surroundings} {t after : Tables} {op : Operation} {table : Uuid} {own : Option Uuid}

theorem columnTarget?_of_isReading (h : op.isReading = true) : op.columnTarget? env = none := by
  cases op <;> first | rfl | cases h

/-- **An operation on columns touches what it names.** -/
theorem Does.touchesColumn (hs : t.Sound) (h : op.Does env t after)
    (htarget : op.columnTarget? env = some (table, own)) :
    TouchesColumn t after table own := by
  cases h with
  | createColumn _ _ _ h =>
    obtain ⟨rfl, rfl⟩ := Prod.mk.inj (Option.some_inj.mp htarget)
    obtain ⟨hnew, -, rfl⟩ := storeColumn_ok h
    exact (touchesColumn_append hnew).withOrder _
  | @updateColumn _ _ _ update old _ _ _ hold hown h =>
    obtain ⟨rfl, rfl⟩ := Prod.mk.inj (Option.some_inj.mp htarget)
    obtain ⟨found, hfound, -, rfl⟩ := changeColumn_ok h
    obtain rfl := Option.some_inj.mp (hold.symm.trans hfound)
    have hmodify := @Sound.touchesColumn_modify t _ _ hs (update.revise env.now old)
      (fun _ => rfl) (fun _ => rfl) hold
    exact hown ▸ hmodify.withOrder _
  | deleteColumn hold hown h =>
    obtain ⟨rfl, rfl⟩ := Prod.mk.inj (Option.some_inj.mp htarget)
    obtain ⟨found, hfound, rfl⟩ := dropColumn_ok h
    obtain rfl := Option.some_inj.mp (hold.symm.trans hfound)
    obtain ⟨-, rfl⟩ := column?_spec hold
    exact hown ▸ (hs.touchesColumn_delete hold).withOrder _
  | reorderColumns =>
    obtain ⟨rfl, rfl⟩ := Prod.mk.inj (Option.some_inj.mp htarget)
    exact touchesColumn_withOrder _
  | read hread =>
    rw [columnTarget?_of_isReading hread] at htarget
    cases htarget
  | _ => cases htarget

end Operation

/-! ### The column of an update -/

namespace Catalog

theorem checkType_ok {name : String} {type : ColumnType} (h : checkType name = .ok type) :
    type.name = name := by
  rw [checkType] at h
  split at h
  · next found hfound =>
    obtain rfl := Except.ok.inj h
    simpa using List.find?_some hfound
  · cases h

/-- A type that is given is the one that is written. -/
theorem name_of_checkType {type : Option String} {checked : Option ColumnType}
    (h : type.mapM checkType = .ok checked) : checked.map ColumnType.name = type := by
  cases type with
  | none =>
    obtain rfl := Except.ok.inj h
    rfl
  | some name =>
    obtain ⟨found, hfound, rfl⟩ := map_ok h
    exact congrArg some (checkType_ok hfound)

/-- Members that are given are the ones that are applied. -/
theorem members_of_checkUpdate {members : Option (Members Json)}
    {checked : Option PropertiesUpdate} (h : members.mapM checkUpdate = .ok checked) :
    checked.map PropertiesUpdate.members = members := by
  cases members with
  | none =>
    obtain rfl := Except.ok.inj h
    rfl
  | some members =>
    obtain ⟨update, hupdate, rfl⟩ := map_ok h
    obtain ⟨u, -, hu⟩ := bind_ok (mapError_ok hupdate)
    obtain rfl := Except.ok.inj hu
    rfl

end Catalog

/-- How the row of a column comes from an old one by changes that are made at some time. -/
structure ColumnChanges.Gives (changes : ColumnChanges) (now : Timestamp) (old row : ColumnRow) :
    Prop where
  id : row.id = old.id
  tableId : row.tableId = old.tableId
  createdAt : row.createdAt = old.createdAt
  updatedAt : row.updatedAt = now
  name : row.name = changes.name.getD old.name
  type : row.type = changes.type.getD old.type
  /-- The old properties have been written and read by the way. -/
  properties : row.properties = old.properties.reread.apply ⟨changes.properties.getD []⟩
  index : changes.index = none → row.index = old.index

theorem ColumnChanges.Gives.properties_of_not_hasDouble {changes : ColumnChanges} {now : Timestamp}
    {old row : ColumnRow} (h : changes.Gives now old row)
    (hd : Json.membersHaveDouble old.properties.members = false) :
    row.properties = old.properties.apply ⟨changes.properties.getD []⟩ := by
  rw [h.properties, Properties.reread, Json.rereadMembers_of_not_hasDouble _ hd]

/-- What an update revises is what its changes give. -/
theorem Catalog.gives_of_checkChanges {changes : ColumnChanges} {update : ColumnUpdate}
    (h : checkChanges changes = .ok update) (now : Timestamp) (old : ColumnRow) {index : Int}
    (hindex : changes.index = none → index = old.index) :
    changes.Gives now old { update.revise now old old with index := index } := by
  obtain ⟨-, htype, hproperties, hname⟩ := checkChanges_ok h
  refine ⟨rfl, rfl, rfl, rfl, ?_, ?_, ?_, hindex⟩
  · rw [← hname]
    rfl
  · rw [← name_of_checkType htype]
    rfl
  · rw [← members_of_checkUpdate hproperties]
    simp only [ColumnUpdate.revise]
    cases update.properties <;> rfl

namespace Operation

variable {env : Surroundings} {t after : Tables} {table column : Uuid} {changes : ColumnChanges}

/-- **An update gives a column what it names**, and without an index no column has another one
afterwards. -/
theorem Does.gives (hs : t.Sound)
    (h : (Operation.updateColumn table column changes).Does env t after) :
    (∃ old row, t.column? column = some old ∧ after.column? column = some row ∧
        changes.Gives env.now old row) ∧
      (changes.index = none → ∀ id, id ≠ column → after.column? id = t.column? id) := by
  cases h with
  | read hread => cases hread
  | @updateColumn _ _ _ update old _ _ hupdate hold hown h =>
    obtain ⟨found, hfound, -, rfl⟩ := changeColumn_ok h
    obtain rfl := Option.some_inj.mp (hold.symm.trans hfound)
    have hordered : (t.modifyColumn column (update.revise env.now old)).Ordered old.tableId
        (t.columnOrder old.tableId) :=
      ordered_modifyColumn _ (fun _ => rfl) (fun _ => rfl) (fun _ => rfl) (hs.ordered old.tableId)
    have hmodify : ∀ id, (t.modifyColumn column (update.revise env.now old)).column? id =
        if id = column then (t.column? id).map (update.revise env.now old) else t.column? id :=
      fun id => column?_modifyColumn (update.revise env.now old) fun _ => rfl
    have hrevised : (t.modifyColumn column (update.revise env.now old)).column? column =
        some (update.revise env.now old old) := by
      rw [hmodify, if_pos rfl, hold, Option.map_some]
    have hkeep : changes.index = none →
        t.orderAfter old update.index = t.columnOrder old.tableId := fun hnone => by
      have hindex := (Catalog.checkChanges_ok hupdate).1
      rw [hnone] at hindex
      rw [orderAfter, ← Except.ok.inj hindex]
      rfl
    constructor
    · refine ⟨old, _, hold, column?_withOrder hrevised rfl,
        Catalog.gives_of_checkChanges hupdate env.now old fun hnone => ?_⟩
      -- the order has stayed, and the index of a column is its position there
      obtain ⟨hmem, rfl⟩ := column?_spec hold
      rw [hkeep hnone]
      exact ((hs.ordered old.tableId).index old (mem_rowsOf.mpr ⟨hmem, rfl⟩)).symm
    · intro hnone id hne
      rw [hkeep hnone, hordered.withOrder_eq, hmodify, if_neg hne]

end Operation

/-! ### Selects -/

namespace Tables

variable {t after : Tables} {table queried : Uuid}

/-- **A select answers the same** where nothing but columns has changed and the columns that it
names are there or not as before. -/
theorem answer_select (hs : t.Sound) (hafter : after.Sound)
    (hcolumns : after = { t with columns := after.columns }) {env : Surroundings} {document : Json}
    {q : Query.Select} (hq : Query.decode env.limits document = .ok (.select q))
    (hnamed : ∀ id ∈ q.namedColumns,
      (id ∈ after.columnOrder queried ↔ id ∈ t.columnOrder queried)) :
    answerOf ((Operation.query queried document).meaning env after) =
      answerOf ((Operation.query queried document).meaning env t) := by
  have htable : after.readTable queried = t.readTable queried := by rw [hcolumns]; rfl
  have hrecords : ∀ plan, after.selectRecords plan = t.selectRecords plan := fun plan => by
    rw [hcolumns]; rfl
  obtain ⟨columns, hread⟩ := hs.readColumns_ok queried
  obtain ⟨others, hread'⟩ := hafter.readColumns_ok queried
  have htypes : ∀ id ∈ q.namedColumns,
      Query.columnType? others id = Query.columnType? columns id := fun id hid => by
    rw [Query.columnType?_eq, Query.columnType?_eq, map_id_of_readColumns hread,
      map_id_of_readColumns hread']
    simp only [hnamed id hid]
  have hcompile : Query.compile queried others env.now env.fresh (.select q) =
      Query.compile queried columns env.now env.fresh (.select q) :=
    congrArg (·.map Query.Plan.select) (Query.compileSelect_congr htypes)
  rw [Operation.meaning, Operation.meaning, answerOf_asPart, answerOf_asPart]
  congr 1
  rw [Meaning.executeQuery, Meaning.executeQuery, hq, htable, hread, hread']
  refine answerOf_bind_congr fun query hquery => answerOf_bind_congr fun entry _ => ?_
  obtain rfl := Except.ok.inj (mapError_ok hquery)
  change answerOf ((Query.compile queried others _ _ _).mapError _ >>= _) =
    answerOf ((Query.compile queried columns _ _ _).mapError _ >>= _)
  rw [hcompile]
  refine answerOf_bind_congr fun plan hplan => ?_
  cases plan with
  | insert plan =>
    obtain ⟨q', hq', -⟩ := Query.compile_insert_ok (mapError_ok hplan)
    cases hq'
  | select plan =>
    dsimp only
    rw [Meaning.selectRecords, Meaning.selectRecords, hrecords]
    split <;> rfl

end Tables

/-! ### Calls -/

namespace Database

/-- **Operations on columns touch what they name.** Whatever has been called before, an operation on
the columns of a table that succeeds changes no organization, no entry, no record and no column of
another table, and of the columns of the table but its own one nothing but the index. A column that
is updated has the values it was given and the time of the call, and keeps the others; its
properties are read before they are changed, which alters them at most where there is a double.
Without an index all other columns stay as they are. A select answers the same before and after if
the columns that it names are there both times. -/
theorem column_operations_touch_what_they_name (history : List Call) (call : Call) {table : Uuid}
    {own : Option Uuid} {reply : Reply}
    (htarget : call.operation.columnTarget? call.surroundings = some (table, own))
    (hok : ((fresh.after history).perform call).result = .ok reply) :
    let db := fresh.after history
    let next := (db.perform call).state
    TouchesColumn db.tables next.tables table own ∧
      (∀ column changes, call.operation = .updateColumn table column changes →
        (∃ old row, db.tables.column? column = some old ∧ next.tables.column? column = some row ∧
            changes.Gives call.surroundings.now old row ∧
            (Json.membersHaveDouble old.properties.members = false →
              row.properties = old.properties.apply ⟨changes.properties.getD []⟩)) ∧
          (changes.index = none →
            ∀ id, id ≠ column → next.tables.column? id = db.tables.column? id)) ∧
      ∀ (env : Surroundings) (queried : Uuid) (document : Json) (q : Query.Select),
        Query.decode env.limits document = .ok (.select q) →
        (∀ id ∈ q.namedColumns,
          (id ∈ next.tables.columnOrder queried ↔ id ∈ db.tables.columnOrder queried)) →
        (next.perform ⟨env, .query queried document⟩).result =
          (db.perform ⟨env, .query queried document⟩).result := by
  intro db next
  have hu : db.Usable := usable_after history
  obtain ⟨hnext, hlocked⟩ := hu.perform call
  obtain ⟨t, hdoes, hstate⟩ := perform_ok hu hok
  obtain rfl : next.tables = t := congrArg Database.tables hstate
  have htouches := hdoes.touchesColumn hu.sound htarget
  refine ⟨htouches, fun column changes hcall => ?_, fun env queried document q hq hnamed => ?_⟩
  · rw [hcall] at hdoes
    obtain ⟨⟨old, row, hold, hrow, hgives⟩, hrest⟩ := hdoes.gives hu.sound
    exact ⟨⟨old, row, hold, hrow, hgives, hgives.properties_of_not_hasDouble⟩, hrest⟩
  · rw [perform_eq hnext (hlocked.trans (locked_after history)),
      perform_eq hu (locked_after history)]
    exact answer_select hu.sound hnext.sound htouches.columnsOnly hq hnamed

/-- The column of a table gets another name and a property, and a select of it goes on as before. -/
theorem column_operations_touch_what_they_name_renamed :
    let history : List Call :=
      [⟨.numbered 1, .createOrganization "org"⟩,
        ⟨.numbered 2, .createEntry ⟨1⟩ .table none [] [⟨"a", "string", [("x", .bool true)]⟩]⟩]
    let changes : ColumnChanges := ⟨some "b", none, some [("y", .bool false)], none⟩
    let call : Call := ⟨{ Surroundings.numbered 4 with now := ⟨7⟩ }, .updateColumn ⟨2⟩ ⟨3⟩ changes⟩
    let select : Call := ⟨.numbered 5, .query ⟨2⟩ (Query.encode (.select
      ⟨[.column ⟨3⟩], none, [], 0, 10⟩))⟩
    let db := fresh.after history
    let next := (db.perform call).state
    (db.perform call).result = .ok (.column
        ⟨⟨3⟩, ⟨2⟩, 0, "b", .string, ⟨[("x", .bool true), ("y", .bool false)]⟩, ⟨0⟩, ⟨7⟩⟩) ∧
      TouchesColumn db.tables next.tables ⟨2⟩ (some ⟨3⟩) ∧
      (next.perform select).result = (db.perform select).result := by
  intro history changes call select db next
  have hok : (db.perform call).result = .ok (.column
      ⟨⟨3⟩, ⟨2⟩, 0, "b", .string, ⟨[("x", .bool true), ("y", .bool false)]⟩, ⟨0⟩, ⟨7⟩⟩) := by
    decide +kernel
  obtain ⟨htouches, -, hselect⟩ := column_operations_touch_what_they_name history call rfl hok
  have horder : db.tables.columnOrder ⟨2⟩ = [⟨3⟩] := by decide +kernel
  have horder' : next.tables.columnOrder ⟨2⟩ = [⟨3⟩] := by decide +kernel
  exact ⟨hok, htouches, hselect _ _ _ _
    (Query.decode_eq_ok.mpr (Query.queryForm_encode ⟨nofun, by decide, by decide⟩))
    fun _ _ => by rw [horder, horder']⟩

/-- An update that gives a column another name, and no properties, changes a property. Whoever lists
the columns before and after sees it change as well. -/
theorem renaming_changes_a_double :
    let history : List Call :=
      [⟨.numbered 1, .createOrganization "org"⟩,
        ⟨.numbered 2, .createEntry ⟨1⟩ .table none []
          [⟨"a", "string", [("x", .num (.real ⟨0x3af357c299a88ea8⟩))]⟩]⟩]
    let update : Call := ⟨.numbered 4, .updateColumn ⟨2⟩ ⟨3⟩ ⟨some "b", none, none, none⟩⟩
    let list : Call := ⟨.numbered 5, .listColumns ⟨2⟩⟩
    let db := fresh.after history
    let next := (db.perform update).state
    let lower : Properties := ⟨[("x", .num (.real ⟨0x3af357c299a88ea7⟩))]⟩
    let upper : Properties := ⟨[("x", .num (.real ⟨0x3af357c299a88ea8⟩))]⟩
    db.tables.properties? (.column ⟨3⟩) = some upper ∧
      next.tables.properties? (.column ⟨3⟩) = some lower ∧
      (db.perform list).result =
        .ok (.columns [⟨⟨3⟩, ⟨2⟩, 0, "a", .string, lower, ⟨0⟩, ⟨0⟩⟩]) ∧
      (next.perform list).result =
        .ok (.columns [⟨⟨3⟩, ⟨2⟩, 0, "b", .string, upper, ⟨0⟩, ⟨0⟩⟩]) := by
  decide +kernel

end Database
end TableStore
