import TableStore.Catalog.Columns
import TableStore.Catalog.Entries
import TableStore.Proofs.Programs

/-!
# Reading the catalog

What the reading programs of the catalog read, as functions of the tables: an entry, a folder, a
table, a column, the columns of a table, a path, a page of children. On sound tables nothing that is
there is unreadable, so that reading fails only where something is missing or of the wrong kind
(`Sound.readEntry_error` and so on), and paths are read to their end (`reads_pathOf`).
-/

namespace TableStore

variable {db : Database} {id table column : Uuid}

/-! ### Readers -/

namespace Tables

variable (t : Tables)

def readOrganization (id : Uuid) : Except CatalogError Organization :=
  (found (t.organization? id)).mapError (CatalogError.organizationMissing id)

def readEntry (id : Uuid) : Except CatalogError Entry := do
  EntryRow.toEntry (← (found (Database.entryRow? id t)).mapError (CatalogError.entryMissing id))

def readColumn (id : Uuid) : Except CatalogError Column := do
  ColumnRow.toColumn (← (found (Database.columnRow? id t)).mapError (CatalogError.columnMissing id))

/-- The columns of a table, by index. -/
def readColumns (table : Uuid) : Except CatalogError (List Column) :=
  ((t.columnsOf table).map ColumnRow.reread).mapM ColumnRow.toColumn

def readFolder (id : Uuid) : Except CatalogError Entry := do
  let folder ← t.readEntry id
  if folder.isFolder then return folder else .error (.notAFolder id)

def readTable (id : Uuid) : Except CatalogError Entry := do
  let entry ← (t.readEntry id).mapError (Catalog.asMissingTable id)
  if entry.type = .table then return entry else .error (.tableNotFound id)

/-- A column of a given table. -/
def readTableColumn (table column : Uuid) : Except CatalogError Column := do
  let c ← t.readColumn column
  if c.tableId = table then return c else .error (.wrongTable column table)

/-- The entry with its columns, if it is a table. -/
def withColumns (entry : Entry) : Except CatalogError Entry :=
  match entry.type with
  | .folder => .ok entry
  | .table => do return { entry with columns := some (← t.readColumns entry.id) }

/-- An entry as an ancestor of others. -/
def element? (id : Uuid) : Option PathElement :=
  (t.entry? id).map fun row =>
    ⟨row.id, (EntryType.read? row.type).getD .folder, row.reread.properties⟩

/-- The folders above something with this parent, the root's child first. -/
def pathTo : Option Uuid → List PathElement
  | none => []
  | some parent => ((t.ancestry parent).filterMap t.element?).reverse

/-- An entry with its columns, and its path if asked for. -/
def readWhole (id : Uuid) (path : Bool) : Except CatalogError Entry := do
  let entry ← t.withColumns (← t.readEntry id)
  if path then return { entry with path := some (t.pathTo entry.parent) } else return entry

/-- What children are listed of is there: an organization, or a folder. -/
def HasParent : Parent → Prop
  | .root organization => ∃ o, t.organization? organization = some o
  | .folder id => t.IsEntry id .folder

/-- A window of the children of a folder or a root, and the number of all of them. -/
def readChildren (organization : Uuid) (parent : Option Uuid) (keys : List SortKey)
    (limit offset : Nat) : Except CatalogError (List Entry × Int) := do
  let page ← (if Exceeds keys limit offset then .error .failed
    else .ok (t.page organization parent keys limit offset) :
      Except StoreError (List EntryRow × Int)).mapError CatalogError.ofStore
  return (← page.1.mapM EntryRow.toEntry, page.2)

end Tables

/-! ### Programs that read them -/

section Programs

open Program

theorem reads_getOrganization :
    (Stored.getOrganization id).Reads db (db.tables.readOrganization id) :=
  Reads.request (serve_getOrganization id)

theorem reads_getEntry : (Stored.getEntry id).Reads db (db.tables.readEntry id) :=
  (Reads.request (serve_getEntry id)).bind fun row _ => .ofExcept_id row.toEntry

theorem reads_getColumn : (Stored.getColumn id).Reads db (db.tables.readColumn id) :=
  (Reads.request (serve_getColumn id)).bind fun row _ => .ofExcept_id row.toColumn

theorem reads_listColumns : (Stored.listColumns table).Reads db (db.tables.readColumns table) :=
  (Reads.request (serve_listColumns table)).bind fun rows _ =>
    .ofExcept_id (rows.mapM ColumnRow.toColumn)

theorem reads_listChildren (organization : Uuid) (parent : Option Uuid) (keys : List SortKey)
    (limit offset : Nat) :
    (Stored.listChildren organization parent keys offset limit).Reads db
      (db.tables.readChildren organization parent keys limit offset) :=
  (Reads.request (serve_listChildren organization parent keys limit offset)).bind fun page _ =>
    (Reads.ofExcept_id (page.1.mapM EntryRow.toEntry)).bind fun _ _ => .pure _

theorem reads_getFolder : (Catalog.getFolder id).Reads db (db.tables.readFolder id) :=
  reads_getEntry.bind fun folder _ => .ite (fun _ => .pure folder) fun _ => .fail _

theorem reads_requireTable : (Catalog.requireTable id).Reads db (db.tables.readTable id) :=
  reads_getEntry.mapError.bind fun entry _ => .ite (fun _ => .pure entry) fun _ => .fail _

theorem reads_tableColumn :
    (Catalog.tableColumn table column).Reads db (db.tables.readTableColumn table column) :=
  reads_getColumn.bind fun c _ => .ite (fun _ => .pure c) fun _ => .fail _

theorem reads_withColumns (entry : Entry) :
    (Catalog.withColumns entry).Reads db (db.tables.withColumns entry) := by
  rw [Catalog.withColumns, Tables.withColumns]
  cases entry.type with
  | folder => exact .pure entry
  | table => exact reads_listColumns.bind fun columns _ => .pure _

end Programs

/-! ### Sound tables are readable -/

/-- The entity of a row of a type. -/
def EntryRow.entity (row : EntryRow) (type : EntryType) : Entry :=
  ⟨row.id, row.organizationId, row.parent, type, row.properties, row.createdAt, row.updatedAt, none,
    none⟩

theorem toEntry_of_type {row : EntryRow} {type : EntryType} (h : row.type = type.name) :
    row.toEntry = .ok (row.entity type) := by
  simp only [EntryRow.toEntry, h, Tables.entryType_read?_name]
  rfl

theorem exists_toColumn {row : ColumnRow} {type : ColumnType} (h : row.type = type.name) :
    ∃ c, row.toColumn = .ok c ∧ c.id = row.id ∧ c.tableId = row.tableId := by
  refine ⟨⟨row.id, row.tableId, row.index, row.name, type, row.properties, row.createdAt,
    row.updatedAt⟩, ?_, rfl, rfl⟩
  simp only [ColumnRow.toColumn, h, Tables.columnType_read?_name]

theorem toEntry_ok {row : EntryRow} (h : ∃ type : EntryType, row.type = type.name) :
    ∃ entry, row.toEntry = .ok entry :=
  h.elim fun _ h => ⟨_, toEntry_of_type h⟩

theorem toColumn_ok {row : ColumnRow} (h : ∃ type : ColumnType, row.type = type.name) :
    ∃ c, row.toColumn = .ok c :=
  h.elim fun _ h => (exists_toColumn h).imp fun _ h => h.1

theorem sortByKeys_perm {α : Type} (keys : α → List (Sql.Value × Direction)) (rows : List α) :
    (Tables.sortByKeys keys rows).Perm rows := by
  have hmap : (rows.map fun row => (keys row, row)).map Prod.snd = rows := by
    rw [List.map_map]
    exact List.map_id' rows
  exact ((List.mergeSort_perm _ _).map Prod.snd).trans (.of_eq hmap)

section Rows

variable {α β γ ε : Type} {f : α → Except ε β} {rows : List α} {bs : List β}

/-- **What is read in a row is read one by one.** -/
theorem mapM_eq_ok : rows.mapM f = .ok bs ↔ List.Forall₂ (fun row b => f row = .ok b) rows bs := by
  induction rows generalizing bs with
  | nil =>
    rw [List.forall₂_nil_left_iff]
    exact ⟨fun h => (Except.ok.inj h).symm, fun h => h ▸ rfl⟩
  | cons row rest ih =>
    rw [List.mapM_cons, List.forall₂_cons_left_iff]
    constructor
    · intro h
      obtain ⟨b, hb, h⟩ := bind_ok h
      obtain ⟨more, hmore, h⟩ := bind_ok h
      exact ⟨b, more, hb, ih.mp hmore, (Except.ok.inj h).symm⟩
    · rintro ⟨b, more, hb, hmore, rfl⟩
      exact bind_of_ok hb (bind_of_ok (ih.mpr hmore) rfl)

theorem mapM_eq_map {g : α → β} (h : ∀ row ∈ rows, f row = .ok (g row)) :
    rows.mapM f = .ok (rows.map g) :=
  mapM_eq_ok.mpr (List.forall₂_map_right_iff.mpr (List.forall₂_same.mpr h))

/-- What can be read one by one can be read in a row. -/
theorem mapM_ok (rows : List α) (h : ∀ row ∈ rows, ∃ b, f row = .ok b) :
    ∃ bs, rows.mapM f = .ok bs := by
  induction rows with
  | nil => exact ⟨[], rfl⟩
  | cons row rows ih =>
    obtain ⟨b, hb⟩ := h row List.mem_cons_self
    obtain ⟨bs, hbs⟩ := ih fun r hr => h r (List.mem_cons_of_mem _ hr)
    exact ⟨b :: bs, mapM_eq_ok.mpr (.cons hb (mapM_eq_ok.mp hbs))⟩

theorem length_of_mapM_ok (h : rows.mapM f = .ok bs) : bs.length = rows.length :=
  (mapM_eq_ok.mp h).length_eq.symm

/-- What has been read in a row can be read one by one. -/
theorem exists_of_mapM_ok (h : rows.mapM f = .ok bs) : ∀ row ∈ rows, ∃ b, f row = .ok b := by
  intro row hrow
  obtain ⟨i, hi, rfl⟩ := List.getElem_of_mem hrow
  exact ⟨_, (mapM_eq_ok.mp h).get hi (length_of_mapM_ok h ▸ hi)⟩

/-- What comes out has been read from one of the rows. -/
theorem exists_of_mem_mapM (h : rows.mapM f = .ok bs) : ∀ b ∈ bs, ∃ row ∈ rows, f row = .ok b := by
  intro b hb
  obtain ⟨i, hi, rfl⟩ := List.getElem_of_mem hb
  have hi' : i < rows.length := length_of_mapM_ok h ▸ hi
  exact ⟨rows[i], List.getElem_mem hi', (mapM_eq_ok.mp h).get hi' hi⟩

/-- What reading keeps of each it keeps of all in a row. -/
theorem map_of_mapM_ok (g : α → γ) (g' : β → γ) (hf : ∀ a b, f a = .ok b → g' b = g a)
    (h : rows.mapM f = .ok bs) : bs.map g' = rows.map g := by
  induction mapM_eq_ok.mp h with
  | nil => rfl
  | cons hrow hrest ih => rw [List.map_cons, List.map_cons, hf _ _ hrow, ih (mapM_eq_ok.mpr hrest)]

end Rows

namespace Tables

variable {t : Tables} {e : CatalogError} {entry : Entry}

theorem readOrganization_error (h : t.readOrganization id = .error e) :
    t.organization? id = none ∧ e = .organizationNotFound id := by
  rw [readOrganization] at h
  cases ho : t.organization? id with
  | some o =>
    rw [ho] at h
    cases h
  | none =>
    rw [ho] at h
    exact ⟨rfl, (Except.error.inj h).symm⟩

theorem readOrganization_of_some {o : Organization} (h : t.organization? id = some o) :
    t.readOrganization id = .ok o := by
  rw [readOrganization, h]
  rfl

theorem readOrganization_ok {o : Organization} (h : t.readOrganization id = .ok o) :
    t.organization? id = some o := by
  rw [readOrganization] at h
  cases ho : t.organization? id with
  | some o' =>
    rw [ho] at h
    exact congrArg some (Except.ok.inj h)
  | none =>
    rw [ho] at h
    cases h

theorem readEntry_of_none (h : t.entry? id = none) :
    t.readEntry id = .error (.entryNotFound id) := by
  rw [readEntry, Database.entryRow?, h]
  rfl

/-- An entry on a path is told as it is read. -/
theorem element?_of_some {row : EntryRow} {type : EntryType} (h : t.entry? id = some row)
    (htype : row.type = type.name) :
    t.element? id = some (row.reread.entity type).toPathElement := by
  rw [element?, h, Option.map_some, htype, entryType_read?_name]
  rfl

/-- The columns that are read are those in the order of the table. -/
theorem map_id_of_readColumns {columns : List Column} (h : t.readColumns table = .ok columns) :
    columns.map Column.id = t.columnOrder table := by
  have hid : ∀ (row : ColumnRow) (c : Column), row.toColumn = .ok c → c.id = row.id := by
    intro row c hc
    rw [ColumnRow.toColumn] at hc
    split at hc
    · obtain rfl := Except.ok.inj hc
      rfl
    · cases hc
  rw [map_of_mapM_ok ColumnRow.id Column.id hid h, List.map_map]
  rfl

/-- Columns are all that an entry gets with its columns. -/
theorem eq_of_withColumns {whole : Entry} (h : t.withColumns entry = .ok whole) :
    whole = { entry with columns := whole.columns } := by
  rw [withColumns] at h
  split at h
  case h_1 =>
    obtain rfl := Except.ok.inj h
    rfl
  case h_2 =>
    obtain ⟨columns, -, h⟩ := bind_ok h
    obtain rfl := Except.ok.inj h
    rfl

theorem withColumns_same {whole : Entry} (h : t.withColumns entry = .ok whole) :
    whole.id = entry.id ∧ whole.parent = entry.parent := by
  rw [eq_of_withColumns h]
  exact ⟨rfl, rfl⟩

namespace Linked

variable (hl : t.Linked)
include hl

theorem readEntry_of_some {row : EntryRow} (h : t.entry? id = some row) :
    ∃ type : EntryType, row.type = type.name ∧ t.readEntry id = .ok (row.reread.entity type) := by
  obtain ⟨type, htype⟩ := hl.entryType row (entry?_spec h).1
  refine ⟨type, htype, ?_⟩
  rw [readEntry, Database.entryRow?, h]
  exact toEntry_of_type htype

theorem readColumns_ok (table : Uuid) : ∃ columns, t.readColumns table = .ok columns := by
  refine mapM_ok _ fun row hrow => ?_
  obtain ⟨c, hc, rfl⟩ := List.mem_map.mp hrow
  exact toColumn_ok (hl.columnType c (mem_columnsOf.mp hc).1)

theorem withColumns_ok (entry : Entry) : ∃ whole, t.withColumns entry = .ok whole := by
  rw [withColumns]
  cases entry.type with
  | folder => exact ⟨entry, rfl⟩
  | table =>
    obtain ⟨columns, hcolumns⟩ := hl.readColumns_ok entry.id
    exact ⟨_, by rw [hcolumns]; rfl⟩

theorem readWhole_ok (path : Bool) {row : EntryRow} (h : t.entry? id = some row) :
    ∃ entry, t.readWhole id path = .ok entry := by
  obtain ⟨type, -, hread⟩ := hl.readEntry_of_some h
  obtain ⟨whole, hwhole⟩ := hl.withColumns_ok (row.reread.entity type)
  simp only [readWhole, hread, bind, Except.bind, hwhole]
  cases path <;> exact ⟨_, rfl⟩

end Linked

namespace Sound

variable (hs : t.Sound)
include hs

theorem readEntry_of_some {row : EntryRow} (h : t.entry? id = some row) :
    ∃ type : EntryType, row.type = type.name ∧ t.readEntry id = .ok (row.reread.entity type) :=
  hs.linked.readEntry_of_some h

theorem readEntry_ok (h : t.readEntry id = .ok entry) :
    ∃ row, t.entry? id = some row ∧ row.type = entry.type.name ∧
      entry = row.reread.entity entry.type := by
  cases hrow : t.entry? id with
  | none =>
    rw [readEntry_of_none hrow] at h
    cases h
  | some row =>
    obtain ⟨type, htype, hread⟩ := hs.readEntry_of_some hrow
    obtain rfl := Except.ok.inj (hread.symm.trans h)
    exact ⟨row, rfl, htype, rfl⟩

/-- What has been read is stored, at the same place. -/
theorem exists_of_readEntry (h : t.readEntry id = .ok entry) :
    ∃ row, t.entry? entry.id = some row ∧ row.parent = entry.parent := by
  obtain ⟨row, hrow, -, heq⟩ := hs.readEntry_ok h
  obtain ⟨-, hid⟩ := entry?_spec hrow
  refine ⟨row, ?_, by rw [heq]; rfl⟩
  rw [heq, show (row.reread.entity entry.type).id = row.id from rfl, hid, hrow]

/-- Only what is missing can't be read. -/
theorem readEntry_error (h : t.readEntry id = .error e) :
    t.entry? id = none ∧ e = .entryNotFound id := by
  cases hrow : t.entry? id with
  | none =>
    rw [readEntry_of_none hrow] at h
    exact ⟨rfl, (Except.error.inj h).symm⟩
  | some row =>
    obtain ⟨type, -, hread⟩ := hs.readEntry_of_some hrow
    rw [hread] at h
    cases h

omit hs in
theorem readEntry_of_readFolder (h : t.readFolder id = .ok entry) : t.readEntry id = .ok entry := by
  cases hentry : t.readEntry id with
  | error e =>
    rw [readFolder, hentry] at h
    cases h
  | ok found =>
    simp only [readFolder, hentry, bind, Except.bind] at h
    split at h
    case isFalse => cases h
    case isTrue => exact h

theorem readFolder_ok (h : t.readFolder id = .ok entry) :
    ∃ row, t.entry? id = some row ∧ row.type = EntryType.folder.name ∧
      entry = row.reread.entity .folder := by
  cases hentry : t.readEntry id with
  | error e =>
    rw [readFolder, hentry] at h
    cases h
  | ok found =>
    simp only [readFolder, hentry, bind, Except.bind] at h
    split at h
    case isFalse => cases h
    case isTrue hfolder =>
      obtain rfl := Except.ok.inj h
      obtain ⟨row, hrow, htype, heq⟩ := hs.readEntry_ok hentry
      rw [show found.type = .folder by simpa [Entry.isFolder] using hfolder] at htype heq
      exact ⟨row, hrow, htype, heq⟩

/-- What can't be read as a folder is missing, or a table. -/
theorem readFolder_error (h : t.readFolder id = .error e) :
    t.entry? id = none ∧ e = .entryNotFound id ∨ t.IsEntry id .table ∧ e = .notAFolder id := by
  cases hentry : t.readEntry id with
  | error e' =>
    rw [readFolder, hentry] at h
    obtain rfl := Except.error.inj h
    exact .inl (hs.readEntry_error hentry)
  | ok found =>
    simp only [readFolder, hentry, bind, Except.bind] at h
    split at h
    case isTrue => cases h
    case isFalse hfolder =>
      obtain ⟨row, hrow, htype, -⟩ := hs.readEntry_ok hentry
      have htable : found.type = .table := by
        cases hf : found.type with
        | folder => simp [Entry.isFolder, hf] at hfolder
        | table => rfl
      exact .inr ⟨⟨row, hrow, htable ▸ htype⟩, (Except.error.inj h).symm⟩

theorem exists_readFolder (h : t.IsEntry id .folder) : ∃ folder, t.readFolder id = .ok folder := by
  cases hr : t.readFolder id with
  | ok folder => exact ⟨folder, rfl⟩
  | error e =>
    obtain ⟨row, hrow, htype⟩ := h
    rcases hs.readFolder_error hr with ⟨hnone, -⟩ | ⟨htable, -⟩
    · rw [hrow] at hnone
      cases hnone
    · rw [isEntry_iff hrow, htype] at htable
      simp [EntryType.name] at htable

theorem readTable_ok (h : t.readTable id = .ok entry) : t.IsEntry id .table := by
  cases hentry : t.readEntry id with
  | error e =>
    rw [readTable, hentry] at h
    cases h
  | ok found =>
    simp only [readTable, hentry, bind, Except.bind, Except.mapError] at h
    split at h
    case isFalse => cases h
    case isTrue htable =>
      obtain ⟨row, hrow, htype, -⟩ := hs.readEntry_ok hentry
      exact ⟨row, hrow, htable ▸ htype⟩

theorem readTable_error (h : t.readTable id = .error e) :
    ¬ t.IsEntry id .table ∧ e = .tableNotFound id := by
  cases hentry : t.readEntry id with
  | error e' =>
    obtain ⟨hnone, rfl⟩ := hs.readEntry_error hentry
    rw [readTable, hentry] at h
    exact ⟨not_isEntry_of_none hnone .table, (Except.error.inj h).symm⟩
  | ok found =>
    simp only [readTable, hentry, bind, Except.bind, Except.mapError] at h
    split at h
    case isTrue => cases h
    case isFalse htable =>
      obtain ⟨row, hrow, htype, -⟩ := hs.readEntry_ok hentry
      refine ⟨fun hentry => htable ?_, (Except.error.inj h).symm⟩
      have hname : found.type.name = EntryType.table.name :=
        htype.symm.trans ((isEntry_iff hrow _).mp hentry)
      cases hf : found.type with
      | folder => rw [hf] at hname; simp [EntryType.name] at hname
      | table => rfl

theorem exists_readTable (h : t.IsEntry id .table) : ∃ entry, t.readTable id = .ok entry := by
  cases hr : t.readTable id with
  | error e => exact absurd h (hs.readTable_error hr).1
  | ok entry => exact ⟨entry, rfl⟩

theorem readColumn_of_some {row : ColumnRow} (h : t.column? id = some row) :
    ∃ c, t.readColumn id = .ok c ∧ c.id = row.id ∧ c.tableId = row.tableId := by
  obtain ⟨type, htype⟩ := hs.columnType row (column?_spec h).1
  obtain ⟨c, hc, hid, htable⟩ :=
    exists_toColumn (show row.reread.type = type.name from htype)
  refine ⟨c, ?_, hid, htable⟩
  rw [readColumn, Database.columnRow?, h]
  exact hc

theorem readTableColumn_ok {c : Column} (h : t.readTableColumn table column = .ok c) :
    ∃ row, t.column? column = some row ∧ row.tableId = table := by
  cases hrow : t.column? column with
  | none =>
    rw [readTableColumn, readColumn, Database.columnRow?, hrow] at h
    cases h
  | some row =>
    obtain ⟨c', hc', -, htable⟩ := hs.readColumn_of_some hrow
    simp only [readTableColumn, hc', bind, Except.bind] at h
    split at h
    case isFalse => cases h
    case isTrue ht => exact ⟨row, rfl, htable.symm.trans ht⟩

/-- What can't be read as a column of a table is missing, or belongs to another table. -/
theorem readTableColumn_error (h : t.readTableColumn table column = .error e) :
    t.column? column = none ∧ e = .columnNotFound column ∨
      (∃ row, t.column? column = some row ∧ row.tableId ≠ table) ∧
        e = .wrongTable column table := by
  cases hrow : t.column? column with
  | none =>
    rw [readTableColumn, readColumn, Database.columnRow?, hrow] at h
    exact .inl ⟨rfl, (Except.error.inj h).symm⟩
  | some row =>
    obtain ⟨c', hc', -, htable⟩ := hs.readColumn_of_some hrow
    simp only [readTableColumn, hc', bind, Except.bind] at h
    split at h
    case isTrue => cases h
    case isFalse ht =>
      exact .inr ⟨⟨row, rfl, fun heq => ht (htable.trans heq)⟩, (Except.error.inj h).symm⟩

theorem readColumns_ok (table : Uuid) : ∃ columns, t.readColumns table = .ok columns :=
  hs.linked.readColumns_ok table

theorem withColumns_ok (entry : Entry) : ∃ whole, t.withColumns entry = .ok whole :=
  hs.linked.withColumns_ok entry

theorem readWhole_ok (path : Bool) {row : EntryRow} (h : t.entry? id = some row) :
    ∃ entry, t.readWhole id path = .ok entry :=
  hs.linked.readWhole_ok path h

/-- The children on a page can all be read. -/
theorem page_toEntry (organization : Uuid) (parent : Option Uuid) (keys : List SortKey)
    (limit offset : Nat) :
    ∃ entries, (t.page organization parent keys limit offset).1.mapM EntryRow.toEntry =
      .ok entries := by
  refine mapM_ok _ fun row hrow => ?_
  obtain ⟨e, he, rfl⟩ := List.mem_map.mp hrow
  have hchild : e ∈ t.children organization parent :=
    (sortByKeys_perm _ _).mem_iff.mp (List.mem_of_mem_drop (List.mem_of_mem_take he))
  exact toEntry_ok (hs.entryType e (List.mem_of_mem_filter hchild))

/-- What is on the path of an entry is above it. -/
theorem atOrBelow_of_pathTo {row : EntryRow} (hrow : t.entry? id = some row) {other : Uuid}
    (h : (t.pathTo row.parent).any (fun above => above.id == other) = true) :
    t.AtOrBelow id other := by
  obtain ⟨above, habove, heq⟩ := List.any_eq_true.mp h
  obtain ⟨hmem, -⟩ := entry?_spec hrow
  cases hp : row.parent with
  | none =>
    rw [hp] at habove
    cases habove
  | some p =>
    rw [hp, pathTo, List.mem_reverse, List.mem_filterMap] at habove
    obtain ⟨x, hx, helement⟩ := habove
    obtain ⟨ancestor, hancestor, rfl⟩ := Option.map_eq_some_iff.mp helement
    obtain ⟨-, hid⟩ := entry?_spec hancestor
    obtain rfl : x = other := hid.symm.trans (by simpa using heq)
    obtain ⟨folder, hfolder, -, -⟩ := hs.parent row hmem p hp
    exact .head (parentOf?_eq_some.mpr ⟨row, hrow, hp⟩) ((hs.mem_ancestry hfolder).mp hx)

end Sound
end Tables

/-! ### Paths -/

section Paths

open Program

/-- Climbing puts all that is met on the way up in front of the path. -/
theorem reads_climb (hl : db.tables.Linked) (start : Uuid) {next : Option Uuid}
    (hnext : ∀ p, next = some p → (db.tables.entry? p).isSome = true) (steps : Nat)
    (visited : List Uuid) (path : List PathElement) :
    (Catalog.climb start steps visited next path).Reads db
      (.ok (((db.tables.trail steps visited next).filterMap db.tables.element?).reverse ++
        path)) := by
  induction steps generalizing visited next path with
  | zero => cases next <;> exact ends_pure path
  | succ steps ih =>
    cases next with
    | none => exact ends_pure path
    | some parent =>
      rw [Catalog.climb]
      by_cases hmet : parent ∈ visited
      · rw [if_pos (by simpa using hmet), Tables.trail_of_mem hmet]
        exact (ends_pure path).log _
      · obtain ⟨row, hrow⟩ := Option.isSome_iff_exists.mp (hnext parent rfl)
        obtain ⟨type, htype, hread⟩ := hl.readEntry_of_some hrow
        have helement := Tables.element?_of_some hrow htype
        have hparent : db.tables.parentOf? parent = some row.parent :=
          Tables.parentOf?_eq_some.mpr ⟨row, hrow, rfl⟩
        rw [if_neg (by simpa using hmet), Tables.trail_of_notMem hmet, hparent, Option.join_some,
          List.filterMap_cons_some helement, List.reverse_cons, List.append_assoc]
        have hnext' : ∀ p, row.parent = some p → (db.tables.entry? p).isSome = true :=
          hl.parent row (Tables.entry?_spec hrow).1
        refine Ends.bind (hread ▸ reads_getEntry) ?_
        exact ih hnext' (parent :: visited) ((row.reread.entity type).toPathElement :: path)

variable (hs : db.tables.Sound)
include hs

/-- The path of an entry as it is stored. -/
theorem reads_pathOf {entry : Entry} {row : EntryRow} (hrow : db.tables.entry? entry.id = some row)
    (hparent : row.parent = entry.parent) :
    (Catalog.pathOf entry).Reads db (.ok (db.tables.pathTo entry.parent)) := by
  have hparentOf : db.tables.parentOf? entry.id = some entry.parent :=
    Tables.parentOf?_eq_some.mpr ⟨row, hrow, hparent⟩
  have hnext : ∀ p, entry.parent = some p → (db.tables.entry? p).isSome = true := fun p hp =>
    hs.linked.isSome_of_isChildOf (hparentOf.trans (congrArg some hp))
  have hclimb := reads_climb hs.linked entry.id hnext (Request.identifierCount + 1) [entry.id] []
  rw [List.append_nil] at hclimb
  rw [Catalog.pathOf]
  cases hp : entry.parent with
  | none =>
    rw [hp, Tables.trail_none] at hclimb
    exact hclimb
  | some parent =>
    rw [hp] at hparentOf hclimb
    obtain ⟨chain, hc⟩ := hs.exists_ascent hrow
    cases hc with
    | root hroot => rw [hparentOf] at hroot; simp at hroot
    | up hup habove =>
      obtain rfl := Option.some_inj.mp (Option.some_inj.mp (hparentOf.symm.trans hup))
      have hfresh : ∀ x ∈ _, x ∉ [entry.id] := habove.notMem_visited hup (by simp)
      rw [habove.trail_eq (Nat.le_succ_of_le habove.length_le) hfresh] at hclimb
      rw [Tables.pathTo, habove.ancestry_eq]
      exact hclimb

theorem reads_getWhole (path : Bool) :
    (Catalog.getEntry id path).Reads db (db.tables.readWhole id path) := by
  refine reads_getEntry.bind fun entry hentry =>
    (reads_withColumns entry).bind fun whole hwhole => ?_
  cases path with
  | false => exact .pure whole
  | true =>
    obtain ⟨row, hrow, hsame⟩ := hs.exists_of_readEntry hentry
    obtain ⟨hid, hparent⟩ := Tables.withColumns_same hwhole
    exact Ends.bind (reads_pathOf hs (hid ▸ hrow) (hparent ▸ hsame)) (ends_pure _)

end Paths
end TableStore
