import TableStore.Proofs.Ancestry
import TableStore.Proofs.Order

/-!
# Sound tables

`Tables.Sound` is the invariant of a database that only operations change: identifiers stand once,
types are known, markers stand beside the entries they are for, references lead to rows of the right
kind, every entry has a way up to a root, and the columns of every table stand in an order.

The rest of the file says what lookups find in sound tables.
-/

namespace TableStore.Tables

variable {t : Tables} {id : Uuid}

/-- There is an entry of a type with an identifier. -/
def IsEntry (t : Tables) (id : Uuid) (type : EntryType) : Prop :=
  ∃ e, t.entry? id = some e ∧ e.type = type.name

/-- A parent that entries of an organization can have: none, or a folder of the organization. -/
def CanHold (t : Tables) (organization : Uuid) (parent : Option Uuid) : Prop :=
  ∀ p, parent = some p → ∃ folder, t.entry? p = some folder ∧
    folder.type = EntryType.folder.name ∧ folder.organizationId = organization

/-- A parent can still be had where it has kept its type and its organization. -/
theorem CanHold.mono {t' : Tables} {organization : Uuid} {parent : Option Uuid}
    (h : t.CanHold organization parent)
    (hkeep : ∀ p e, parent = some p → t.entry? p = some e →
      ∃ e', Tables.entry? t' p = some e' ∧ e'.type = e.type ∧
        e'.organizationId = e.organizationId) : t'.CanHold organization parent := by
  intro p hp
  obtain ⟨folder, hf, htype, howner⟩ := h p hp
  obtain ⟨folder', hf', htype', howner'⟩ := hkeep p folder hp hf
  exact ⟨folder', hf', htype'.trans htype, howner'.trans howner⟩

/-- What holds of the rows of a database that only operations change. -/
structure Sound (t : Tables) : Prop where
  organizations_nodup : (t.organizations.map Organization.id).Nodup
  entries_nodup : (t.entries.map EntryRow.id).Nodup
  folders_nodup : t.folders.Nodup
  tables_nodup : t.tables.Nodup
  columns_nodup : (t.columns.map ColumnRow.id).Nodup
  records_nodup : (t.records.map RecordRow.id).Nodup
  entryType : ∀ e ∈ t.entries, ∃ type : EntryType, e.type = type.name
  columnType : ∀ c ∈ t.columns, ∃ type : ColumnType, c.type = type.name
  mem_folders : ∀ id, id ∈ t.folders ↔ t.IsEntry id .folder
  mem_tables : ∀ id, id ∈ t.tables ↔ t.IsEntry id .table
  owner : ∀ e ∈ t.entries, ∃ o, t.organization? e.organizationId = some o
  /-- A parent is a folder of the same organization. -/
  parent : ∀ e ∈ t.entries, t.CanHold e.organizationId e.parent
  rooted : ∀ e ∈ t.entries, ∃ chain, t.Ascent e.id chain
  columnTable : ∀ c ∈ t.columns, t.IsEntry c.tableId .table
  recordTable : ∀ r ∈ t.records, t.IsEntry r.tableId .table
  ordered : ∀ table, t.Ordered table (t.columnOrder table)

theorem entryType_read?_name (type : EntryType) : EntryType.read? type.name = some type := by
  cases type <;> rfl

theorem columnType_read?_name (type : ColumnType) : ColumnType.read? type.name = some type := by
  cases type; rfl

theorem Ordered.self {table : Uuid} {order : ColumnOrder} (h : t.Ordered table order) :
    t.Ordered table (t.columnOrder table) :=
  h.columnOrder_eq ▸ h

/-- A table without columns stands in the empty order. -/
theorem ordered_nil {table : Uuid} (h : t.rowsOf table = []) : t.Ordered table [] where
  perm := by simp [h]
  nodup := List.nodup_nil
  index := by simp [h]

theorem sound_empty : Sound empty where
  organizations_nodup := List.nodup_nil
  entries_nodup := List.nodup_nil
  folders_nodup := List.nodup_nil
  tables_nodup := List.nodup_nil
  columns_nodup := List.nodup_nil
  records_nodup := List.nodup_nil
  entryType := by simp [empty]
  columnType := by simp [empty]
  mem_folders := by simp [empty, IsEntry, entry?]
  mem_tables := by simp [empty, IsEntry, entry?]
  owner := by simp [empty]
  parent := by simp [empty]
  rooted := by simp [empty]
  columnTable := by simp [empty]
  recordTable := by simp [empty]
  ordered := fun _ => (ordered_nil rfl).self

/-! ### Lookups in sound tables -/

/-- An entry is of its own type and of no other. -/
theorem isEntry_iff {e : EntryRow} (he : t.entry? id = some e) (type : EntryType) :
    t.IsEntry id type ↔ e.type = type.name := by
  refine ⟨fun ⟨f, hf, ht⟩ => ?_, fun ht => ⟨e, he, ht⟩⟩
  rw [he] at hf
  exact Option.some_inj.mp hf ▸ ht

theorem not_isEntry_of_none (hnone : t.entry? id = none) (type : EntryType) :
    ¬ t.IsEntry id type := by
  rintro ⟨e, he, -⟩
  rw [hnone] at he
  cases he

/-- A column of a table stands in its order. -/
theorem mem_columnOrder {c : ColumnRow} (hc : t.column? id = some c) :
    id ∈ t.columnOrder c.tableId := by
  obtain ⟨hm, rfl⟩ := column?_spec hc
  exact List.mem_map_of_mem (mem_columnsOf.mpr ⟨hm, rfl⟩)

namespace Sound

variable (hs : t.Sound)
include hs

theorem entry?_of_mem {e : EntryRow} (he : e ∈ t.entries) : t.entry? e.id = some e :=
  find?_key_of_mem hs.entries_nodup he

theorem column?_of_mem {c : ColumnRow} (hc : c ∈ t.columns) : t.column? c.id = some c :=
  find?_key_of_mem hs.columns_nodup hc

theorem exists_ascent {e : EntryRow} (he : t.entry? id = some e) : ∃ chain, t.Ascent id chain := by
  obtain ⟨hm, rfl⟩ := entry?_spec he
  exact hs.rooted e hm

/-- The ancestry of an entry is what it is at or below. -/
theorem mem_ancestry {e : EntryRow} (he : t.entry? id = some e) {other : Uuid} :
    other ∈ t.ancestry id ↔ t.AtOrBelow id other := by
  obtain ⟨chain, hc⟩ := hs.exists_ascent he
  rw [hc.ancestry_eq, hc.mem_iff]

/-- What stands in the order of a table is a column of it. -/
theorem column?_of_mem_columnOrder {table : Uuid} (h : id ∈ t.columnOrder table) :
    ∃ c, t.column? id = some c ∧ c.tableId = table := by
  obtain ⟨c, hc, rfl⟩ := List.mem_map.mp h
  obtain ⟨hm, ht⟩ := mem_columnsOf.mp hc
  exact ⟨c, hs.column?_of_mem hm, ht⟩

/-- A new identifier stands in no order. -/
theorem notMem_columnOrder {table : Uuid} (hnew : t.column? id = none) :
    id ∉ t.columnOrder table := fun hmem => by
  obtain ⟨c, hc, -⟩ := hs.column?_of_mem_columnOrder hmem
  rw [hnew] at hc
  cases hc

end Sound

/-- Entries whose parents are among some identifiers are among them too. -/
def IsClosed (t : Tables) (ids : List Uuid) : Prop :=
  ∀ e ∈ t.entries, ∀ p, e.parent = some p → p ∈ ids → e.id ∈ ids

end TableStore.Tables
