import TableStore.Proofs.Requests

/-!
# Requests on entries

Storing, changing, moving and deleting entries, as functions of the tables. Storing an entry takes
several statements, and fails as a whole where one of them does. A move checks its destination after
the entry has been touched; `Tables.checkDestination` says what the checks amount to.
-/

namespace TableStore

variable {db : Database}

/-! ### New entries -/

/-- Stores an entry with its columns. A folder with columns breaks a reference. -/
def Tables.storeEntry (t : Tables) (organization : Uuid) (type : EntryType) (parent : Option Uuid)
    (properties : Properties) (columns : List NewColumn) (now : Timestamp) (fresh : Nat → Uuid) :
    Except StoreError (EntryRow × Tables) :=
  let row : EntryRow := ⟨fresh 0, organization, type.name, parent, properties, now, now⟩
  let rows := columnRows (fresh 0) now (fun i => fresh (i + 1)) 0 columns
  if (t.entry? (fresh 0)).isSome then .error .uniqueViolation
  else if type = .folder ∧ columns ≠ [] then
    .error (if (t.column? (fresh 1)).isSome then .uniqueViolation else .foreignKeyViolation)
  else if ((t.columns ++ rows).map ColumnRow.id).Nodup then
    .ok (row.reread, t.addEntry row type rows)
  else .error .uniqueViolation

section CreateEntry

open Database

variable (hs : db.tables.Sound) (hw : db.readOnly = false) {row : EntryRow}
  (hnew : db.tables.entry? row.id = none)
include hw

theorem outcome_insertEntry (hnew : db.tables.entry? row.id = none)
    (howner : (db.tables.organization? row.organizationId).isSome = true)
    (hparent : db.tables.isParent row.parent = true) :
    (Batch.askOne (.insertEntry row)).outcome db =
      (.ok row.reread,
        { db with tables := db.tables.setEntries (db.tables.entries ++ [row]) }) := by
  have hrun := execute_writing (.insertEntry row) (·.insertEntry row) (entryRow? row.id) hw rfl
    (Tables.insertEntry_ok hnew howner hparent)
  rw [entryRow?, Tables.entry?_append_self hnew] at hrun
  exact Batch.outcome_askOne hrun

include hs hnew

/-- The marker that a new entry gets. -/
theorem outcome_mark (type : EntryType) :
    (match type with
      | .folder => Batch.ask (.markFolder row.id)
      | .table => Batch.ask (.markTable row.id)).outcome
        { db with tables := db.tables.setEntries (db.tables.entries ++ [row]) } =
      (.ok (), { db with tables := db.tables.addEntry row type [] }) := by
  cases type with
  | folder =>
    exact Batch.outcome_ask (execute_writing (.markFolder row.id) (·.markFolder row.id)
      (fun _ => ()) (writable_after hw _) rfl (hs.markFolder_new hnew))
  | table =>
    exact Batch.outcome_ask (execute_writing (.markTable row.id) (·.markTable row.id)
      (fun _ => ()) (writable_after hw _) rfl (hs.markTable_new hnew))

end CreateEntry

section

open Database

variable (hs : db.tables.Sound) (hw : db.readOnly = false)
include hs hw

/-- An entry is stored as a whole or not at all. -/
theorem serves_createEntry {organization : Uuid} (type : EntryType) {parent : Option Uuid}
    (properties : Properties) (columns : List NewColumn) (now : Timestamp) (fresh : Nat → Uuid)
    (howner : (db.tables.organization? organization).isSome = true)
    (hparent : db.tables.isParent parent = true) :
    db.Serves (Request.createEntry organization type parent properties columns now fresh)
      (db.tables.storeEntry organization type parent properties columns now fresh) := by
  refine .inl ?_
  let row : EntryRow := ⟨fresh 0, organization, type.name, parent, properties, now, now⟩
  rw [Tables.storeEntry]
  split
  case isTrue h =>
    have hrun := execute_refused (.insertEntry row) (·.insertEntry row) (entryRow? row.id) hw rfl
      (Tables.insertEntry_taken h)
    rw [ofEngineMessage_unique (by simp)] at hrun
    exact serve_error (Batch.outcome_bind_error (Batch.outcome_send_error hrun)) (.inl rfl)
  case isFalse h =>
    have hnew : db.tables.entry? row.id = none := by simpa using h
    -- up to here the entry is there with its marker, and its columns are still to be stored
    have hstart : (Request.createEntry organization type parent properties columns now
        fresh).batch.outcome db =
          (Request.insertColumns (fresh 0) now (fun i => fresh (i + 1)) 0 columns >>=
            fun _ => pure row.reread).outcome
              { db with tables := db.tables.addEntry row type [] } := by
      have hmark := outcome_mark hs hw hnew type
      have hinsert := outcome_insertEntry hw hnew howner hparent
      cases type <;> exact (Batch.outcome_bind_ok hinsert).trans (Batch.outcome_bind_ok hmark)
    have hrows : (db.tables.addEntry row type []).rowsOf (fresh 0) = [] :=
      Tables.rowsOf_addEntry_self hs hnew (by simp)
    have hw' := writable_after hw (db.tables.addEntry row type [])
    have hold : (db.tables.addEntry row type []).columns = db.tables.columns := List.append_nil _
    cases type with
    | folder =>
      cases columns with
      | nil =>
        rw [if_neg (by simp), if_pos (by simpa [columnRows] using hs.columns_nodup)]
        exact serve_ok hstart
      | cons c rest =>
        rw [if_pos (by simp)]
        have hstray : fresh 0 ∉ (db.tables.addEntry row .folder []).tables := fun hmem =>
          Tables.not_isEntry_of_none hnew .table
            ((hs.mem_tables _).mp (by simpa [Tables.addEntry] using hmem))
        have hfail := hstart.trans
          (Batch.outcome_bind_error (outcome_insertColumns_stray hw' c rest hrows hstray))
        rw [Tables.column?, hold] at hfail
        exact serve_error hfail (.inl rfl)
    | table =>
      rw [if_neg (by simp)]
      have hmem : fresh 0 ∈ (db.tables.addEntry row .table []).tables := by
        simp [Tables.addEntry, row]
      rcases outcome_insertColumns hw' (hold ▸ hs.columns_nodup) hmem (by simp [hrows])
        (congrArg (· ++ _) hold) with ⟨hnodup, hrun⟩ | ⟨hnodup, after, hrun⟩
      · rw [if_pos hnodup]
        exact serve_ok (hstart.trans (Batch.outcome_bind_ok hrun))
      · rw [if_neg hnodup]
        exact serve_error (hstart.trans (Batch.outcome_bind_error hrun)) (.inl rfl)

end

/-! ### Changed and deleted entries -/

/-- The row with other properties. -/
def EntryRow.withProperties (properties : Properties) (now : Timestamp) (e : EntryRow) : EntryRow :=
  { e with properties := properties, updatedAt := now }

/-- The row at another place. -/
def EntryRow.movedTo (parent : Option Uuid) (now : Timestamp) (e : EntryRow) : EntryRow :=
  { e with parent := parent, updatedAt := now }

theorem EntryRow.withProperties_id (properties : Properties) (now : Timestamp) (e : EntryRow) :
    (e.withProperties properties now).id = e.id :=
  rfl

theorem EntryRow.movedTo_id (parent : Option Uuid) (now : Timestamp) (e : EntryRow) :
    (e.movedTo parent now).id = e.id :=
  rfl

/-- Changes the properties of an entry. -/
def Tables.changeProperties (t : Tables) (id : Uuid) (update : PropertiesUpdate) (now : Timestamp) :
    Except StoreError (EntryRow × Tables) := do
  let old ← found (t.entry? id)
  let properties := old.properties.reread.apply update
  return ((old.withProperties properties now).reread,
    t.modifyEntry id (EntryRow.withProperties properties now))

/-- Why an entry of an organization can't move to a folder. -/
def Tables.checkDestination (t : Tables) (id organization destination : Uuid) :
    Except StoreError Unit :=
  match t.entry? destination with
  | none => .error (.invalidMove id destination .destinationNotFound)
  | some folder =>
    if folder.type ≠ EntryType.folder.name then .error (.invalidMove id destination .notAFolder)
    else if folder.organizationId ≠ organization then
      .error (.invalidMove id destination .organizationMismatch)
    else if id ∈ t.ancestry destination then .error (.invalidMove id destination .cycle)
    else .ok ()

/-- Moves an entry to a folder or to the root. -/
def Tables.moveEntry (t : Tables) (id : Uuid) (destination : Option Uuid) (now : Timestamp) :
    Except StoreError (EntryRow × Tables) := do
  let old ← found (t.entry? id)
  match destination with
  | some folder => t.checkDestination id old.organizationId folder
  | none => .ok ()
  return ((old.movedTo destination now).reread,
    t.modifyEntry id (EntryRow.movedTo destination now))

/-- Deletes an entry and everything under it. -/
def Tables.dropEntry (t : Tables) (id : Uuid) : Except StoreError (Unit × Tables) := do
  let _ ← found (t.entry? id)
  t.dropRow .entry id

namespace Tables

variable {t : Tables} {id other organization destination : Uuid}

/-- The checks pass for a folder of the organization that is not at or below the entry. -/
theorem checkDestination_ok :
    t.checkDestination id organization destination = .ok () ↔
      ∃ folder, t.entry? destination = some folder ∧ folder.type = EntryType.folder.name ∧
        folder.organizationId = organization ∧ id ∉ t.ancestry destination := by
  rw [checkDestination]
  cases t.entry? destination with
  | none => simp
  | some folder =>
    by_cases htype : folder.type = EntryType.folder.name
    · by_cases howner : folder.organizationId = organization
      · by_cases hmem : id ∈ t.ancestry destination <;> simp [htype, howner, hmem]
      · simp [htype, howner]
    · simp [htype]

/-- The checks see nothing of a change that keeps every entry what and where it is. -/
theorem checkDestination_modifyEntry {f : EntryRow → EntryRow} (hid : ∀ e, (f e).id = e.id)
    (horganization : ∀ e, (f e).organizationId = e.organizationId)
    (htype : ∀ e, (f e).type = e.type) (hkeep : ∀ e, (f e).parent = e.parent) :
    (t.modifyEntry other f).checkDestination id organization destination =
      t.checkDestination id organization destination := by
  have hancestry : (t.modifyEntry other f).ancestry destination = t.ancestry destination :=
    ancestry_congr (parentOf?_modifyEntry_of_parent hid hkeep) (List.length_map _)
  rw [checkDestination, checkDestination, hancestry]
  cases he : t.entry? destination with
  | none => rw [entry?_modifyEntry f hid, he, Option.map_none, ite_self]
  | some e =>
    rw [entry?_modifyEntry_of_some hid he]
    by_cases h : destination = other <;> simp [h, horganization, htype]

end Tables

section Entries

open Database

variable {id : Uuid} {now : Timestamp}

/-- Walking up from an entry meets its trail, and refuses to meet one entry on it. -/
theorem outcome_walkUp {entry destination current : Uuid} {visited : List Uuid} (steps : Nat)
    (hv : entry ∉ visited) :
    (Request.walkUp entry destination steps visited current).outcome db =
      (if entry ∈ db.tables.trail steps visited (some current)
        then .error (.invalidMove entry destination .cycle) else .ok (), db) := by
  induction steps generalizing visited current with
  | zero => rfl
  | succ steps ih =>
    rw [Request.walkUp]
    by_cases hc : current = entry
    · subst hc
      simp [Tables.trail_of_notMem hv, Batch.outcome, Batch.run]
    · rw [if_neg hc]
      by_cases hmet : current ∈ visited
      · rw [if_pos (by simpa using hmet), Tables.trail_of_mem hmet]
        rfl
      · have hrun := execute_reading (.getParent current) (·.parentOf? current)
          (rfl : db.exec _ = _)
        rw [if_neg (by simpa using hmet), Batch.outcome_send_ok hrun,
          Tables.trail_of_notMem hmet]
        have hv' : entry ∉ current :: visited := by simp [hv, Ne.symm hc]
        have hmem : ∀ more : List Uuid, (entry ∈ current :: more) = (entry ∈ more) := by
          simp [Ne.symm hc]
        simp only [hmem]
        rcases db.tables.parentOf? current with _ | _ | parent
        · rw [Option.join_none, Tables.trail_none]
          rfl
        · rw [Option.join_some, Tables.trail_none]
          rfl
        · exact ih hv'

variable (hl : db.tables.Linked)

include hl in
/-- The checks of a move are made as they are told. -/
theorem outcome_checkDestination (organization destination : Uuid) :
    (Request.checkDestination id organization destination).outcome db =
      (db.tables.checkDestination id organization destination, db) := by
  have hrun := execute_reading (.getPlacement destination)
    (fun t => (t.entry? destination).map fun e => (e.organizationId, e.type)) (rfl : db.exec _ = _)
  refine (Batch.outcome_bind_ok (Batch.outcome_ask hrun)).trans ?_
  rw [Tables.checkDestination]
  cases he : db.tables.entry? destination with
  | none => rfl
  | some folder =>
    simp only [Option.map_some]
    by_cases htype : folder.type ≠ EntryType.folder.name
    · rw [if_pos htype, if_pos htype]
      rfl
    · rw [if_neg htype, if_neg htype]
      by_cases howner : folder.organizationId ≠ organization
      · rw [if_pos howner, if_pos howner]
        rfl
      · rw [if_neg howner, if_neg howner]
        have hmem : id ∈ db.tables.ancestry destination ↔
            id ∈ db.tables.trail (Request.identifierCount + 1) [] (some destination) := by
          rw [hl.mem_ancestry (by simp [he]), Tables.mem_trail_iff (Tables.length_trail_lt _ _ _)]
        simp only [hmem]
        exact outcome_walkUp _ List.not_mem_nil

variable (hw : db.readOnly = false)
include hw

theorem serves_updateEntryProperties (update : PropertiesUpdate) :
    db.Serves (Request.updateEntryProperties id update now)
      (db.tables.changeProperties id update now) := by
  refine .inl ?_
  have hread := execute_reading (.getEntryProperties id)
    (fun t => (entryRow? id t).map EntryRow.properties) (rfl : db.exec _ = _)
  rw [Tables.changeProperties]
  cases he : db.tables.entry? id with
  | none =>
    rw [entryRow?, he] at hread
    exact serve_error (Batch.outcome_bind_error (Batch.outcome_askOne_none hread)) (.inl rfl)
  | some old =>
    rw [entryRow?, he] at hread
    have hrun := execute_writing
      (.setEntryProperties id (old.properties.reread.apply update) now)
      (fun t => .ok (t.modifyEntry id
        (EntryRow.withProperties (old.properties.reread.apply update) now)))
      (entryRow? id) hw rfl rfl
    rw [entryRow?, Tables.entry?_modifyEntry_of_some (EntryRow.withProperties_id _ _) he,
      if_pos rfl] at hrun
    exact serve_ok ((Batch.outcome_bind_ok (Batch.outcome_askOne hread)).trans
      (Batch.outcome_askOne hrun))

theorem serves_deleteEntry :
    db.Serves (Request.deleteEntry id) (db.tables.dropEntry id) := by
  refine serves_delete hw (.deleteEntry id) .entry id rfl fun hnone hmem => ?_
  obtain ⟨e, he, hid⟩ := List.mem_map.mp hmem
  exact Tables.entry?_eq_none.mp hnone e he hid

/-- An entry that has been touched gets its parent. -/
theorem outcome_setParent {e : EntryRow} (he : db.tables.entry? id = some e)
    (parent : Option Uuid) (h : db.tables.isParent parent = true) :
    (Batch.askOne (.setParent id parent)).outcome db =
      (.ok { e with parent := parent }.reread,
        { db with tables := db.tables.modifyEntry id fun e => { e with parent := parent } }) := by
  have hrun := execute_writing (.setParent id parent) (·.setParent id parent) (entryRow? id) hw rfl
    (Tables.setParent_ok h)
  rw [entryRow?, Tables.entry?_modifyEntry (fun e => { e with parent := parent }) fun _ => rfl, he,
    if_pos rfl] at hrun
  exact Batch.outcome_askOne hrun

include hl in
/-- A move is made if the checks pass, whatever they read after the entry has been touched. -/
theorem serve_moveEntry (destination : Option Uuid) :
    db.serve (Request.moveEntry id destination now) =
      db.settle (db.tables.moveEntry id destination now) := by
  let touch (e : EntryRow) : EntryRow := { e with updatedAt := now }
  have hid : ∀ e, (touch e).id = e.id := fun _ => rfl
  have htouch := execute_writing (.touchEntry id now) (fun t => .ok (t.modifyEntry id touch))
    (fun t => (t.entry? id).map EntryRow.organizationId) hw rfl rfl
  rw [Tables.moveEntry]
  cases he : db.tables.entry? id with
  | none =>
    rw [Tables.entry?_modifyEntry touch hid, he, if_pos rfl] at htouch
    exact serve_error (Batch.outcome_bind_error (Batch.outcome_askOne_none htouch)) (.inl rfl)
  | some old =>
    rw [Tables.entry?_modifyEntry_of_some hid he, if_pos rfl] at htouch
    have hstart := Batch.outcome_askOne htouch
    have hl' : (db.tables.modifyEntry id touch).Linked :=
      hl.modifyEntry hid (fun _ => rfl) fun _ _ => .inl
    have hw' := writable_after hw (db.tables.modifyEntry id touch)
    have htouched : Tables.entry? (db.tables.modifyEntry id touch) id = some (touch old) := by
      rw [Tables.entry?_modifyEntry_of_some hid he, if_pos rfl]
    have hmove := outcome_setParent hw' htouched destination
    simp only [Tables.modifyEntry_modifyEntry hid] at hmove
    cases destination with
    | none => exact serve_ok ((Batch.outcome_bind_ok hstart).trans (hmove rfl))
    | some folder =>
      have hcheck : (Request.checkDestination id old.organizationId folder).outcome
          { db with tables := db.tables.modifyEntry id touch } = _ :=
        outcome_checkDestination hl' old.organizationId folder
      rw [Tables.checkDestination_modifyEntry hid (fun _ => rfl) (fun _ => rfl) fun _ => rfl]
        at hcheck
      cases hc : db.tables.checkDestination id old.organizationId folder with
      | error e =>
        rw [hc] at hcheck
        simp only [found, bind, Except.bind, hc]
        exact serve_error ((Batch.outcome_bind_ok hstart).trans (Batch.outcome_bind_error hcheck))
          (.inl rfl)
      | ok _ =>
        rw [hc] at hcheck
        obtain ⟨row, hrow, htype, -⟩ := Tables.checkDestination_ok.mp hc
        have hparent : (db.tables.modifyEntry id touch).isParent (some folder) = true :=
          List.contains_iff_mem.mpr (hl.mem_folders folder ⟨row, hrow, htype⟩)
        simp only [found, bind, Except.bind, hc]
        exact serve_ok ((Batch.outcome_bind_ok hstart).trans
          ((Batch.outcome_bind_ok hcheck).trans (hmove hparent)))

end Entries

/-! ### Soundness -/

/-- New columns with different identifiers stand in their order. -/
theorem index_columnRows {table : Uuid} {now : Timestamp} {fresh : Nat → Uuid}
    {columns : List NewColumn}
    (hn : ((columnRows table now fresh 0 columns).map ColumnRow.id).Nodup) :
    ∀ c ∈ columnRows table now fresh 0 columns,
      c.index = ((columnRows table now fresh 0 columns).map ColumnRow.id).idxOf c.id := by
  intro c hc
  obtain ⟨-, -, i, hi, hid, hindex⟩ := columnRows_spec hc
  rw [map_id_columnRows] at hn ⊢
  have hlt : i < ((List.range' 0 columns.length).map fresh).length := by simpa using hi
  have hget : ((List.range' 0 columns.length).map fresh)[i] = c.id := by
    rw [List.getElem_map, List.getElem_range', hid, Nat.one_mul]
  rw [hindex, ← hget, hn.idxOf_getElem i hlt, Nat.zero_add]

namespace Tables

variable {t after : Tables} {id : Uuid} {now : Timestamp} {row : EntryRow}

section StoreEntry

variable {organization : Uuid} {type : EntryType} {parent : Option Uuid} {properties : Properties}
  {columns : List NewColumn} {fresh : Nat → Uuid}

/-- What has been stored, and what had to hold for that. -/
theorem storeEntry_ok
    (h : t.storeEntry organization type parent properties columns now fresh = .ok (row, after)) :
    t.entry? (fresh 0) = none ∧ (type = .folder → columns = []) ∧
      ((t.columns ++ columnRows (fresh 0) now (fun i => fresh (i + 1)) 0 columns).map
        ColumnRow.id).Nodup ∧
      row = (⟨fresh 0, organization, type.name, parent, properties, now, now⟩ : EntryRow).reread ∧
      after = t.addEntry ⟨fresh 0, organization, type.name, parent, properties, now, now⟩ type
        (columnRows (fresh 0) now (fun i => fresh (i + 1)) 0 columns) := by
  rw [storeEntry] at h
  split at h
  case isTrue => cases h
  case isFalse hnew =>
    split at h
    case isTrue => cases h
    case isFalse hfolder =>
      split at h
      case isFalse => cases h
      case isTrue hn =>
        obtain ⟨hrow, hafter⟩ := Prod.mk.inj (Except.ok.inj h)
        exact ⟨by simpa using hnew, fun ht => not_not.mp fun hc => hfolder ⟨ht, hc⟩, hn, hrow.symm,
          hafter.symm⟩

theorem Sound.storeEntry (hs : t.Sound) (howner : ∃ o, t.organization? organization = some o)
    (hparent : t.CanHold organization parent)
    (h : t.storeEntry organization type parent properties columns now fresh = .ok (row, after)) :
    after.Sound := by
  obtain ⟨hnew, hfolder, hn, -, rfl⟩ := storeEntry_ok h
  have hrows : ((columnRows (fresh 0) now (fun i => fresh (i + 1)) 0 columns).map
      ColumnRow.id).Nodup := by
    rw [List.map_append] at hn
    exact hn.of_append_right
  refine hs.addEntry hnew rfl howner hparent (fun c hc => ⟨(columnRows_spec hc).1, ?_⟩)
    (fun c hc => (columnRows_spec hc).2.1) hn (index_columnRows hrows)
  cases type with
  | table => rfl
  | folder =>
    rw [hfolder rfl] at hc
    cases hc

end StoreEntry

theorem changeProperties_ok {update : PropertiesUpdate}
    (h : t.changeProperties id update now = .ok (row, after)) :
    ∃ old, t.entry? id = some old ∧
      row = (old.withProperties (old.properties.reread.apply update) now).reread ∧
      after = t.modifyEntry id
        (EntryRow.withProperties (old.properties.reread.apply update) now) := by
  obtain ⟨old, hold, h⟩ := found_bind_ok h
  obtain ⟨hrow, hafter⟩ := Prod.mk.inj (Except.ok.inj h)
  exact ⟨old, hold, hrow.symm, hafter.symm⟩

theorem Sound.changeProperties (hs : t.Sound) {update : PropertiesUpdate}
    (h : t.changeProperties id update now = .ok (row, after)) : after.Sound := by
  obtain ⟨old, -, -, rfl⟩ := changeProperties_ok h
  exact hs.modifyEntry_of_parent (fun _ => rfl) (fun _ => rfl) (fun _ => rfl) fun _ => rfl

/-- A move that is made has passed the checks. -/
theorem moveEntry_ok {destination : Option Uuid}
    (h : t.moveEntry id destination now = .ok (row, after)) :
    ∃ old, t.entry? id = some old ∧ row = (old.movedTo destination now).reread ∧
      after = t.modifyEntry id (EntryRow.movedTo destination now) ∧
      ∀ folder, destination = some folder →
        t.checkDestination id old.organizationId folder = .ok () := by
  obtain ⟨old, hold, h⟩ := found_bind_ok h
  cases destination with
  | none =>
    obtain ⟨hrow, hafter⟩ := Prod.mk.inj (Except.ok.inj h)
    exact ⟨old, hold, hrow.symm, hafter.symm, fun _ hd => by cases hd⟩
  | some folder =>
    cases hc : t.checkDestination id old.organizationId folder with
    | error e =>
      simp only [hc] at h
      cases h
    | ok u =>
      simp only [hc] at h
      obtain ⟨hrow, hafter⟩ := Prod.mk.inj (Except.ok.inj h)
      exact ⟨old, hold, hrow.symm, hafter.symm, fun _ hd => Option.some_inj.mp hd ▸ hc⟩

/-- Tables stay linked when an entry moves into a folder. -/
theorem Linked.moveEntry (hl : t.Linked) {destination : Option Uuid}
    (h : t.moveEntry id destination now = .ok (row, after)) : after.Linked := by
  obtain ⟨old, -, -, rfl, hcheck⟩ := moveEntry_ok h
  refine hl.modifyEntry (EntryRow.movedTo_id destination now) (fun _ => rfl) fun e p hp => .inr ?_
  obtain ⟨folder, hfolder, -⟩ := checkDestination_ok.mp (hcheck p hp)
  rw [hfolder]
  rfl

/-- An entry that moves out of its own subtree keeps a way up, and so does all under it. -/
theorem Sound.moveEntry (hs : t.Sound) {destination : Option Uuid}
    (h : t.moveEntry id destination now = .ok (row, after)) : after.Sound := by
  obtain ⟨old, hold, -, rfl, hcheck⟩ := moveEntry_ok h
  have hid := EntryRow.movedTo_id destination now
  refine hs.modifyEntry hid (fun _ => rfl) (fun _ => rfl) (fun e he p hp => ?_) fun e he => ?_
  · obtain rfl := Option.some_inj.mp (hold.symm.trans he)
    obtain ⟨folder, hf, htype, howner, -⟩ := checkDestination_ok.mp (hcheck p hp)
    exact ⟨folder, hf, htype, howner⟩
  · have hparent : (t.modifyEntry id (EntryRow.movedTo destination now)).parentOf? id =
        some destination := parentOf?_eq_some.mpr
      ⟨_, (entry?_modifyEntry_of_some hid he).trans (congrArg some (if_pos rfl)), rfl⟩
    cases destination with
    | none => exact ⟨_, .root hparent⟩
    | some folder =>
      obtain ⟨row, hrow, -, -, hmem⟩ := checkDestination_ok.mp (hcheck folder rfl)
      obtain ⟨chain, hc⟩ := hs.exists_ascent hrow
      rw [hc.ancestry_eq] at hmem
      exact ⟨_, .up hparent (hc.congr fun x hx =>
        parentOf?_modifyEntry_of_ne hid fun heq => hmem (heq ▸ hx))⟩

/-- An entry goes with its subtree, unless entries are nested too deep. -/
theorem Sound.dropEntry_eq (hs : t.Sound) {e : EntryRow} (he : t.entry? id = some e) :
    (t.TooDeep id ∧ t.dropEntry id = .error .failed) ∨
      (¬ t.TooDeep id ∧ t.dropEntry id = .ok ((), t.discard (t.subtree id))) := by
  have hdrop : t.dropEntry id = t.dropRow .entry id := by
    rw [Tables.dropEntry, he]
    rfl
  rw [hdrop, dropRow]
  refine (hs.delete_entry (Option.isSome_of_eq_some he)).imp (fun h => ?_) fun h => ?_
  · rw [h.2]
    exact ⟨h.1, rfl⟩
  · rw [h.2]
    exact ⟨h.1, rfl⟩

theorem Sound.dropEntry_ok (hs : t.Sound) {u : Unit} (h : t.dropEntry id = .ok (u, after)) :
    after = t.discard (t.subtree id) := by
  obtain ⟨old, he, -⟩ := found_bind_ok h
  rcases hs.dropEntry_eq he with ⟨-, heq⟩ | ⟨-, heq⟩
  · cases heq.symm.trans h
  · exact (Prod.mk.inj (Except.ok.inj (heq.symm.trans h))).2.symm

theorem Sound.dropEntry (hs : t.Sound) {u : Unit} (h : t.dropEntry id = .ok (u, after)) :
    after.Sound := by
  obtain rfl := hs.dropEntry_ok h
  exact hs.discard (hs.isClosed_subtree id)

end Tables
end TableStore
