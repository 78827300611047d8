import TableStore.Proofs.ColumnLists
import TableStore.Proofs.PropertyMaps

/-!
# Property maps and their history

What an accepted operation does to the properties of an entry or a column is little
(`Operation.giving`): it makes the entity with some members, or updates it with some, or neither.
The map that is stored afterwards is the one before with these members (`Operation.Does.becomes`).
So by induction on the calls **every stored map holds what it was given last**
(`Database.follows_history`): what calls that failed were handed does not count, and neither does
what an earlier entity with the same identifier was given.
-/

namespace TableStore

/-- What has properties, by its identifier. -/
inductive Entity where
  | entry (id : Uuid)
  | column (id : Uuid)

/-- The properties of an entity as they are stored. -/
def Tables.properties? (t : Tables) : Entity → Option Properties
  | .entry id => (t.entry? id).map EntryRow.properties
  | .column id => (t.column? id).map ColumnRow.properties

/-! ### What operations give -/

/-- What is done to the properties of an entity. -/
inductive Giving where
  | nothing
  | creates (members : Members Json)
  | updates (members : Members Json)

/-- What an entity has been given since it was created, after what it was given before. -/
def Giving.added (given : List (String × Json)) : Giving → List (String × Json)
  | .nothing => given
  | .creates members => members
  | .updates members => given ++ members

/-- What an operation that is accepted does to the properties of an entity. -/
def Operation.giving (env : Surroundings) (op : Operation) : Entity → Giving
  | .entry id =>
    match op with
    | .createEntry _ _ _ members _ => if env.fresh 0 = id then .creates members else .nothing
    | .updateProperties entry members => if entry = id then .updates members else .nothing
    | _ => .nothing
  | .column id =>
    match op with
    | .createEntry _ _ _ _ definitions =>
      -- the columns of a new table have the identifiers after its own
      match definitions.zipIdx.find? fun d => env.fresh (d.2 + 1) == id with
      | some d => .creates d.1.properties
      | none => .nothing
    | .createColumn _ definition _ =>
      if env.fresh 0 = id then .creates definition.properties else .nothing
    | .updateColumn _ column changes =>
      if column = id then .updates (changes.properties.getD []) else .nothing
    | _ => .nothing

namespace Properties

/-- What is given to an entity makes its properties, before and after, what they are. -/
inductive Becomes : Giving → Option Properties → Properties → Prop where
  | same {p : Properties} : Becomes .nothing (some p) p
  | created {members : Members Json} {before : Option Properties} {p : Properties}
      (h : ofMembers? members = .ok p) : Becomes (.creates members) before p
  | updated {members : Members Json} {q p : Properties} (h : q.reread.merge members = .ok p) :
      Becomes (.updates members) (some q) p

theorem Becomes.follows {giving : Giving} {before : Option Properties} {p : Properties}
    {given : List (String × Json)} (h : Becomes giving before p)
    (hbefore : ∀ q, before = some q → q.Follows given) : p.Follows (giving.added given) := by
  cases h with
  | same => exact hbefore p rfl
  | created h => exact follows_empty.merge h
  | updated h => exact (hbefore _ rfl).reread.merge h

end Properties

open Tables

/-! ### Maps after changes of the tables -/

namespace Tables

variable {t : Tables} {entity : Entity} {p : Properties}

theorem properties?_withOrder (table : Uuid) (order : ColumnOrder) :
    (t.withOrder table order).properties? entity = t.properties? entity := by
  cases entity with
  | entry id => rfl
  | column id =>
    have hfind : (t.withOrder table order).column? id = (t.column? id).map _ :=
      find?_key_map _ fun c => by by_cases hc : c.tableId = table <;> simp [hc]
    rw [properties?, properties?, hfind, Option.map_map]
    refine Option.map_congr fun c _ => ?_
    rw [Function.comp_apply]
    split <;> rfl

theorem column?_append {row : ColumnRow} (hnew : t.column? row.id = none) (id : Uuid) :
    (t.setColumns (t.columns ++ [row])).column? id =
      if id = row.id then some row else t.column? id :=
  find?_key_append hnew

theorem properties?_movedTo (id : Uuid) (parent : Option Uuid) (now : Timestamp) :
    (t.modifyEntry id (EntryRow.movedTo parent now)).properties? entity = t.properties? entity := by
  cases entity with
  | column other => rfl
  | entry other =>
    rw [properties?, entry?_modifyEntry _ (EntryRow.movedTo_id _ _), properties?]
    split
    · rw [Option.map_map]
      rfl
    · rfl

/-- What stays when entries are taken out keeps its properties. -/
theorem Sound.properties?_discard (hs : t.Sound) {gone : List Uuid}
    (h : (t.discard gone).properties? entity = some p) : t.properties? entity = some p := by
  cases entity with
  | entry id =>
    rw [properties?, hs.entry?_discard] at h
    split at h
    · cases h
    · exact h
  | column id =>
    obtain ⟨c, hc, rfl⟩ := Option.map_eq_some_iff.mp h
    obtain ⟨hmem, rfl⟩ := column?_spec hc
    rw [properties?, hs.column?_of_mem (List.mem_of_mem_filter hmem)]
    rfl

/-- The columns that stay when one is taken out keep their properties. -/
theorem Sound.properties?_removeColumn (hs : t.Sound) {column : ColumnRow}
    (h : (t.removeColumn column).properties? entity = some p) : t.properties? entity = some p := by
  rw [Tables.removeColumn, properties?_withOrder] at h
  cases entity with
  | entry id => exact h
  | column id =>
    obtain ⟨c, hc, rfl⟩ := Option.map_eq_some_iff.mp h
    obtain ⟨hmem, rfl⟩ := column?_spec hc
    rw [properties?, hs.column?_of_mem (List.mem_of_mem_filter hmem)]
    rfl

end Tables

/-! ### New columns -/

section NewColumns

variable {definitions : List ColumnDefinition} {columns : List NewColumn} {table : Uuid}
  {now : Timestamp} {fresh : Nat → Uuid} {position : Nat}

/-- The definition of a new column is found by its identifier. -/
theorem find?_of_mem_columnRows
    (h : List.Forall₂ (fun d c => Catalog.checkDefinition d = .ok c) definitions columns)
    (hn : ((columnRows table now fresh position columns).map ColumnRow.id).Nodup) {c : ColumnRow}
    (hc : c ∈ columnRows table now fresh position columns) :
    ∃ d, (definitions.zipIdx position).find? (fun d => fresh d.2 == c.id) = some d ∧
      Properties.ofMembers? d.1.properties = .ok c.properties := by
  induction h generalizing position with
  | nil => cases hc
  | @cons d column definitions columns hd _ ih =>
    obtain ⟨hnotMem, hrest⟩ := List.nodup_cons.mp hn
    rw [List.zipIdx_cons, List.find?_cons]
    rcases List.mem_cons.mp hc with rfl | hc
    · obtain ⟨-, -, hproperties⟩ := Catalog.checkDefinition_ok hd
      exact ⟨(d, position), by simp, mapError_ok hproperties⟩
    · have hne : (fresh position == c.id) = false :=
        beq_false_of_ne fun heq => hnotMem (List.mem_map.mpr ⟨c, hc, heq.symm⟩)
      simp only [hne]
      exact ih hrest hc

/-- No definition is found for what is no new column. -/
theorem find?_eq_none_of_notMem (hlength : columns.length = definitions.length) {id : Uuid}
    (h : id ∉ (columnRows table now fresh position columns).map ColumnRow.id) :
    (definitions.zipIdx position).find? (fun d => fresh d.2 == id) = none := by
  rw [map_id_columnRows, hlength] at h
  refine List.find?_eq_none.mpr fun d hd heq => h ?_
  obtain ⟨i, hi, rfl⟩ := List.mem_iff_getElem.mp hd
  rw [List.getElem_zipIdx] at heq
  rw [List.length_zipIdx] at hi
  refine List.mem_map.mpr ⟨position + i, List.mem_range'.mpr ⟨i, hi, by omega⟩, ?_⟩
  exact beq_iff_eq.mp heq

end NewColumns

/-! ### One operation -/

namespace Operation

variable {env : Surroundings} {t after : Tables} {op : Operation} {entity : Entity} {p : Properties}

theorem giving_of_isReading (h : op.isReading = true) (entity : Entity) :
    op.giving env entity = .nothing := by
  cases entity <;> cases op <;> first | rfl | cases h

/-- An operation that gives nothing to an entity leaves its properties. -/
theorem becomes_same (hgiving : op.giving env entity = .nothing)
    (h : t.properties? entity = some p) :
    p.Becomes (op.giving env entity) (t.properties? entity) := by
  rw [hgiving, h]
  exact .same

section Becomes

variable {id organization table : Uuid} {type : EntryType} {parent : Option Uuid}
  {members : Members Json} {definitions : List ColumnDefinition} {columns : List NewColumn}
  {properties : Properties} {row : EntryRow}

theorem becomes_createEntry_entry (hproperties : Catalog.checkProperties members = .ok properties)
    (h : t.storeEntry organization type parent properties columns env.now env.fresh =
      .ok (row, after)) (hp : after.properties? (.entry id) = some p) :
    p.Becomes ((createEntry organization type parent members definitions).giving env (.entry id))
      (t.properties? (.entry id)) := by
  obtain ⟨hnew, -, -, -, rfl⟩ := storeEntry_ok h
  rw [properties?, entry?_addEntry hnew] at hp
  by_cases hid : env.fresh 0 = id
  · rw [if_pos hid.symm] at hp
    obtain rfl := Option.some_inj.mp hp
    rw [giving, if_pos hid]
    exact .created (mapError_ok hproperties)
  · rw [if_neg (Ne.symm hid)] at hp
    exact becomes_same (if_neg hid) hp

theorem becomes_createEntry_column (hs : t.Sound)
    (hcolumns : definitions.mapM Catalog.checkDefinition = .ok columns)
    (h : t.storeEntry organization type parent properties columns env.now env.fresh =
      .ok (row, after)) (hp : after.properties? (.column id) = some p) :
    p.Becomes ((createEntry organization type parent members definitions).giving env (.column id))
      (t.properties? (.column id)) := by
  obtain ⟨-, -, hn, -, rfl⟩ := storeEntry_ok h
  rw [List.map_append] at hn
  obtain ⟨c, hc, rfl⟩ := Option.map_eq_some_iff.mp hp
  obtain ⟨hmem, rfl⟩ := column?_spec hc
  rw [giving]
  rcases List.mem_append.mp hmem with hold | hnew
  · -- the identifiers of the new columns are not those of the old ones
    have hne := List.disjoint_of_nodup_append hn (List.mem_map_of_mem hold)
    rw [find?_eq_none_of_notMem (length_of_mapM_ok hcolumns) hne, properties?,
      hs.column?_of_mem hold]
    exact .same
  · obtain ⟨d, hd, hproperties⟩ :=
      find?_of_mem_columnRows (mapM_eq_ok.mp hcolumns) hn.of_append_right hnew
    rw [hd]
    exact .created hproperties

theorem becomes_updateProperties {update : PropertiesUpdate}
    (hupdate : Catalog.checkUpdate members = .ok update)
    (h : t.changeProperties id update env.now = .ok (row, after))
    (hp : after.properties? entity = some p) :
    p.Becomes ((updateProperties id members).giving env entity) (t.properties? entity) := by
  obtain ⟨old, hold, -, rfl⟩ := changeProperties_ok h
  cases entity with
  | column other => exact becomes_same rfl hp
  | entry other =>
    rw [properties?, entry?_modifyEntry _ (EntryRow.withProperties_id _ _)] at hp
    by_cases hid : other = id
    · subst hid
      rw [if_pos rfl, hold] at hp
      obtain rfl := Option.some_inj.mp hp
      rw [giving, if_pos rfl, properties?, hold]
      exact .updated (bind_of_ok (mapError_ok hupdate) rfl)
    · rw [if_neg hid] at hp
      exact becomes_same (if_neg (Ne.symm hid)) hp

theorem becomes_createColumn {definition : ColumnDefinition} {index : Option Int}
    {position : Option Nat} {column : NewColumn} {row : ColumnRow}
    (hcolumn : Catalog.checkDefinition definition = .ok column)
    (h : t.storeColumn table column position env.now (env.fresh 0) = .ok (row, after))
    (hp : after.properties? entity = some p) :
    p.Becomes ((createColumn table definition index).giving env entity)
      (t.properties? entity) := by
  obtain ⟨hnew, -, rfl⟩ := storeColumn_ok h
  cases entity with
  | entry other => exact becomes_same rfl hp
  | column other =>
    rw [addColumn, properties?_withOrder, properties?, column?_append hnew] at hp
    split at hp
    case isTrue hid =>
      obtain rfl : other = env.fresh 0 := hid
      obtain rfl := Option.some_inj.mp hp
      obtain ⟨-, -, hproperties⟩ := Catalog.checkDefinition_ok hcolumn
      rw [giving, if_pos rfl]
      exact .created (mapError_ok hproperties)
    case isFalse hid => exact becomes_same (if_neg (Ne.symm hid)) hp

theorem becomes_updateColumn {changes : ColumnChanges} {update : ColumnUpdate} {row : ColumnRow}
    (hupdate : Catalog.checkChanges changes = .ok update)
    (h : t.changeColumn id update env.now = .ok (row, after))
    (hp : after.properties? entity = some p) :
    p.Becomes ((updateColumn table id changes).giving env entity) (t.properties? entity) := by
  obtain ⟨old, hold, -, rfl⟩ := changeColumn_ok h
  rw [properties?_withOrder] at hp
  cases entity with
  | entry other => exact becomes_same rfl hp
  | column other =>
    rw [properties?, column?_modifyColumn (update.revise env.now old) fun _ => rfl] at hp
    by_cases hid : other = id
    · subst hid
      rw [if_pos rfl, hold] at hp
      obtain rfl := Option.some_inj.mp hp
      obtain ⟨-, -, hproperties, -⟩ := Catalog.checkChanges_ok hupdate
      rw [giving, if_pos rfl, properties?, hold]
      refine .updated ?_
      cases hgiven : changes.properties with
      -- the map is read and written all the same, as with an update of no members
      | none =>
        rw [hgiven] at hproperties
        rw [ColumnUpdate.revise, ← Except.ok.inj hproperties]
        rfl
      | some members =>
        rw [hgiven] at hproperties
        obtain ⟨u, hu, hproperties⟩ := bind_ok hproperties
        rw [ColumnUpdate.revise, ← Except.ok.inj hproperties]
        exact bind_of_ok (mapError_ok hu) rfl
    · rw [if_neg hid] at hp
      exact becomes_same (if_neg (Ne.symm hid)) hp

end Becomes

/-- **What an operation gives to an entity is what becomes of its properties.** -/
theorem Does.becomes (hs : t.Sound) (h : op.Does env t after)
    (hp : after.properties? entity = some p) :
    p.Becomes (op.giving env entity) (t.properties? entity) := by
  cases h with
  | read hread => exact becomes_same (giving_of_isReading hread _) hp
  | createOrganization h =>
    obtain ⟨-, rfl⟩ := storeOrganization_ok h
    cases entity <;> exact becomes_same rfl hp
  | renameOrganization h =>
    obtain rfl := renameOrganization_ok h
    cases entity <;> exact becomes_same rfl hp
  | deleteOrganization h =>
    obtain rfl := hs.dropOrganization_ok h
    cases entity <;> exact becomes_same rfl (hs.properties?_discard hp)
  | createEntry hproperties hcolumns _ _ h =>
    cases entity with
    | entry id => exact becomes_createEntry_entry hproperties h hp
    | column id => exact becomes_createEntry_column hs hcolumns h hp
  | moveEntry h =>
    obtain ⟨old, -, -, rfl, -⟩ := moveEntry_ok h
    rw [properties?_movedTo] at hp
    cases entity <;> exact becomes_same rfl hp
  | updateProperties hupdate h => exact becomes_updateProperties hupdate h hp
  | deleteEntry h =>
    obtain rfl := hs.dropEntry_ok h
    cases entity <;> exact becomes_same rfl (hs.properties?_discard hp)
  | createColumn _ hcolumn _ h => exact becomes_createColumn hcolumn h hp
  | updateColumn hupdate _ _ h => exact becomes_updateColumn hupdate h hp
  | deleteColumn _ _ h =>
    obtain ⟨old, -, rfl⟩ := dropColumn_ok h
    cases entity <;> exact becomes_same rfl (hs.properties?_removeColumn hp)
  | reorderColumns =>
    rw [Tables.reorderColumns, properties?_withOrder] at hp
    cases entity <;> exact becomes_same rfl hp
  | insertRecords h =>
    obtain ⟨-, rows, rfl⟩ := hs.insertRecords _ (storeRecords_ok h)
    cases entity <;> exact becomes_same rfl hp

end Operation

/-! ### Many calls -/

namespace Database

variable {db : Database} {call : Call} {entity : Entity} {before : List (String × Json)}

/-- What a call gives to an entity: nothing if it fails. -/
def giving (db : Database) (call : Call) (entity : Entity) : Giving :=
  match (db.perform call).result with
  | .ok _ => call.operation.giving call.surroundings entity
  | .error _ => .nothing

/-- What calls, one after another, give to an entity after what it was given before. -/
def given (entity : Entity) (db : Database) (before : List (String × Json)) :
    List Call → List (String × Json)
  | [] => before
  | call :: rest => given entity (db.perform call).state ((db.giving call entity).added before) rest

/-- **Calls keep maps to what they were given.** -/
theorem follows_perform (hu : db.Usable)
    (hbefore : ∀ p, db.tables.properties? entity = some p → p.Follows before) :
    ∀ p, (db.perform call).state.tables.properties? entity = some p →
      p.Follows ((db.giving call entity).added before) := by
  intro p hp
  rw [Database.giving]
  cases hresult : (db.perform call).result with
  | error e =>
    rw [perform_error hu hresult] at hp
    exact hbefore p hp
  | ok reply =>
    obtain ⟨t, hdoes, hstate⟩ := perform_ok hu hresult
    rw [hstate] at hp
    exact (hdoes.becomes hu.sound hp).follows hbefore

/-- **Stored maps hold what they were given last**, after any calls. -/
theorem follows_after (hu : db.Usable) (history : List Call)
    (hbefore : ∀ p, db.tables.properties? entity = some p → p.Follows before) :
    ∀ p, (db.after history).tables.properties? entity = some p →
      p.Follows (db.given entity before history) := by
  induction history generalizing db before with
  | nil => exact hbefore
  | cons call rest ih => exact ih (hu.perform call).1 (follows_perform hu hbefore)

/-- **Every stored map holds what it was given last.** -/
theorem follows_history {history : List Call} {p : Properties}
    (h : (fresh.after history).tables.properties? entity = some p) :
    p.Follows (fresh.given entity [] history) :=
  follows_after usable_fresh history (fun p hp => by cases entity <;> cases hp) p h

theorem given_append (history later : List Call) :
    db.given entity before (history ++ later) =
      (db.after history).given entity (db.given entity before history) later := by
  induction history generalizing db before with
  | nil => rfl
  | cons call rest ih => exact ih

end Database

end TableStore
