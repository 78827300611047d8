import TableStore.Proofs.Trails

/-!
# Changes of sound tables

The changes that operations make to tables as a whole, and what each leaves: sound tables
(`Sound.addEntry`, `Sound.modifyEntry`, `Sound.discard`, `Sound.arrange` and so on), and the orders
of columns. A change to the columns of one table always ends by writing an order, so there is one
lemma for all of them (`Sound.arrange`).
-/

namespace TableStore.Tables

variable {t : Tables} {id other table : Uuid}

/-! ### Organizations -/

/-- Organizations can be replaced as long as every owner stays. -/
theorem Sound.setOrganizations (hs : t.Sound) {rows : List Organization}
    (hn : (rows.map Organization.id).Nodup)
    (ho : ∀ e ∈ t.entries, ∃ o, rows.find? (fun o => o.id == e.organizationId) = some o) :
    Sound { t with organizations := rows } :=
  { hs with
    organizations_nodup := hn
    owner := ho
    rooted := fun e he => (hs.rooted e he).imp fun _ h => h.congr fun _ _ => rfl
    ordered := fun table => (hs.ordered table).congr rfl }

/-- Adds an organization. -/
def addOrganization (t : Tables) (row : Organization) : Tables :=
  { t with organizations := t.organizations ++ [row] }

theorem organization?_addOrganization {row : Organization} (hnew : t.organization? row.id = none) :
    (t.addOrganization row).organization? id =
      if id = row.id then some row else t.organization? id :=
  find?_key_append hnew

theorem Sound.addOrganization (hs : t.Sound) {row : Organization}
    (hnew : t.organization? row.id = none) : (t.addOrganization row).Sound := by
  refine hs.setOrganizations (nodup_map_append hs.organizations_nodup hnew) fun e he => ?_
  rw [find?_key_append hnew]
  split
  · exact ⟨row, rfl⟩
  · exact hs.owner e he

theorem Sound.modifyOrganization (hs : t.Sound) (f : Organization → Organization)
    (hf : ∀ o, (f o).id = o.id) : (t.modifyOrganization id f).Sound := by
  refine hs.setOrganizations ?_ fun e he => ?_
  · rw [map_key_map_ite f hf]
    exact hs.organizations_nodup
  · obtain ⟨o, ho⟩ := hs.owner e he
    have hfind : (t.modifyOrganization id f).organization? e.organizationId = _ :=
      organization?_modifyOrganization f hf
    rw [ho] at hfind
    refine ⟨if e.organizationId = id then f o else o, hfind.trans ?_⟩
    split <;> rfl

/-! ### Entries -/

/-- Changed entries are found changed, and as what they were. -/
theorem entry?_modifyEntry_of_some {f : EntryRow → EntryRow} (hid : ∀ e, (f e).id = e.id)
    {e : EntryRow} (he : t.entry? other = some e) :
    Tables.entry? (t.modifyEntry id f) other = some (if other = id then f e else e) := by
  rw [entry?_modifyEntry f hid, he]
  split <;> rfl

theorem isEntry_modifyEntry {f : EntryRow → EntryRow} (hid : ∀ e, (f e).id = e.id)
    (htype : ∀ e, (f e).type = e.type) (type : EntryType) :
    (t.modifyEntry id f).IsEntry other type ↔ t.IsEntry other type := by
  cases he : t.entry? other with
  | none => simp [IsEntry, entry?_modifyEntry f hid, he]
  | some e =>
    rw [isEntry_iff (entry?_modifyEntry_of_some hid he), isEntry_iff he]
    split
    · rw [htype]
    · exact Iff.rfl

/-- Only a changed entry can have another parent. -/
theorem parentOf?_modifyEntry_of_ne {f : EntryRow → EntryRow} (hid : ∀ e, (f e).id = e.id)
    (hne : other ≠ id) : (t.modifyEntry id f).parentOf? other = t.parentOf? other := by
  rw [parentOf?, entry?_modifyEntry f hid, if_neg hne, parentOf?]

/-- An entry can be changed as long as it stays what it is and has a parent that it can have. -/
theorem Sound.modifyEntry (hs : t.Sound) {f : EntryRow → EntryRow} (hid : ∀ e, (f e).id = e.id)
    (horganization : ∀ e, (f e).organizationId = e.organizationId)
    (htype : ∀ e, (f e).type = e.type)
    (hparent : ∀ e, t.entry? id = some e → t.CanHold e.organizationId (f e).parent)
    (hrooted : ∀ e, t.entry? id = some e → ∃ chain, (t.modifyEntry id f).Ascent id chain) :
    (t.modifyEntry id f).Sound := by
  have hmem : ∀ e ∈ (t.modifyEntry id f).entries, ∃ d ∈ t.entries,
      (if d.id = id then f d else d) = e := fun e he => List.mem_map.mp he
  have hhold : ∀ {organization : Uuid} {parent : Option Uuid},
      t.CanHold organization parent → (t.modifyEntry id f).CanHold organization parent :=
    fun h => h.mono fun p e _ he => by
      refine ⟨_, entry?_modifyEntry_of_some hid he, ?_⟩
      split
      · exact ⟨htype e, horganization e⟩
      · exact ⟨rfl, rfl⟩
  refine
    { hs with
      entries_nodup := ?_
      entryType := ?_
      mem_folders := fun x => (hs.mem_folders x).trans (isEntry_modifyEntry hid htype _).symm
      mem_tables := fun x => (hs.mem_tables x).trans (isEntry_modifyEntry hid htype _).symm
      owner := ?_
      parent := ?_
      rooted := ?_
      columnTable := fun c hc => (isEntry_modifyEntry hid htype _).mpr (hs.columnTable c hc)
      recordTable := fun r hr => (isEntry_modifyEntry hid htype _).mpr (hs.recordTable r hr)
      ordered := fun table => (hs.ordered table).congr rfl }
  case refine_1 =>
    have hkeys : (t.modifyEntry id f).entries.map EntryRow.id = t.entries.map EntryRow.id :=
      map_key_map_ite f hid fun e => e.id = id
    exact hkeys.symm ▸ hs.entries_nodup
  case refine_2 =>
    intro e he
    obtain ⟨d, hd, rfl⟩ := hmem e he
    split
    · exact (htype d).symm ▸ hs.entryType d hd
    · exact hs.entryType d hd
  case refine_3 =>
    intro e he
    obtain ⟨d, hd, rfl⟩ := hmem e he
    split
    · exact (horganization d).symm ▸ hs.owner d hd
    · exact hs.owner d hd
  case refine_4 =>
    intro e he
    obtain ⟨d, hd, rfl⟩ := hmem e he
    split
    case isTrue hdid =>
      have hfound : t.entry? id = some d := hdid ▸ hs.entry?_of_mem hd
      rw [horganization]
      exact hhold (hparent d hfound)
    case isFalse => exact hhold (hs.parent d hd)
  case refine_5 =>
    intro e he
    obtain ⟨d, hd, rfl⟩ := hmem e he
    have hdid : (if d.id = id then f d else d).id = d.id := by
      split
      · exact hid d
      · rfl
    rw [hdid]
    by_cases hd' : d.id = id
    · rw [hd']
      exact hrooted d (hd' ▸ hs.entry?_of_mem hd)
    · -- the way up of any other entry may pass the changed one
      obtain ⟨chain, hc⟩ := hs.rooted d hd
      by_cases hin : id ∈ chain
      · obtain ⟨e, he⟩ := Option.isSome_iff_exists.mp (hc.isSome_of_mem hin)
        exact hc.exists_of_moved (fun x hx => parentOf?_modifyEntry_of_ne hid hx) (hrooted e he)
      · exact ⟨chain, hc.congr fun x hx =>
          parentOf?_modifyEntry_of_ne hid fun h => hin (h ▸ hx)⟩

theorem parentOf?_modifyEntry_of_parent {f : EntryRow → EntryRow} (hid : ∀ e, (f e).id = e.id)
    (hkeep : ∀ e, (f e).parent = e.parent) (x : Uuid) :
    (t.modifyEntry id f).parentOf? x = t.parentOf? x := by
  rw [parentOf?, entry?_modifyEntry f hid, parentOf?]
  split
  · simp [Option.map_map, Function.comp_def, hkeep]
  · rfl

/-- An entry that keeps its place can be changed. -/
theorem Sound.modifyEntry_of_parent (hs : t.Sound) {f : EntryRow → EntryRow}
    (hid : ∀ e, (f e).id = e.id) (horganization : ∀ e, (f e).organizationId = e.organizationId)
    (htype : ∀ e, (f e).type = e.type) (hkeep : ∀ e, (f e).parent = e.parent) :
    (t.modifyEntry id f).Sound := by
  refine hs.modifyEntry hid horganization htype (fun e he p hp => ?_) fun e he => ?_
  · exact hs.parent e (entry?_spec he).1 p (hkeep e ▸ hp)
  · obtain ⟨chain, hc⟩ := hs.exists_ascent he
    exact ⟨chain, hc.congr fun x _ => parentOf?_modifyEntry_of_parent hid hkeep x⟩

/-- Tables stay linked as long as an entry gets another entry as its parent. -/
theorem Linked.modifyEntry (hl : t.Linked) {f : EntryRow → EntryRow} (hid : ∀ e, (f e).id = e.id)
    (htype : ∀ e, (f e).type = e.type)
    (hparent : ∀ e p, (f e).parent = some p → e.parent = some p ∨ (t.entry? p).isSome = true) :
    (t.modifyEntry id f).Linked := by
  have hsome : ∀ p, (t.entry? p).isSome = true →
      (Tables.entry? (t.modifyEntry id f) p).isSome = true := fun p hp => by
    obtain ⟨e, he⟩ := Option.isSome_iff_exists.mp hp
    rw [entry?_modifyEntry_of_some hid he]
    rfl
  refine ⟨fun e he => ?_, hl.columnType,
    fun x hx => hl.mem_folders x ((isEntry_modifyEntry hid htype _).mp hx), fun e he p hp => ?_⟩
  · obtain ⟨d, hd, rfl⟩ := List.mem_map.mp he
    split
    · exact htype d ▸ hl.entryType d hd
    · exact hl.entryType d hd
  · obtain ⟨d, hd, rfl⟩ := List.mem_map.mp he
    refine hsome p ?_
    split at hp
    · exact (hparent d p hp).elim (hl.parent d hd p) fun h => h
    · exact hl.parent d hd p hp

theorem modifyEntry_modifyEntry {f g : EntryRow → EntryRow} (hid : ∀ e, (f e).id = e.id) :
    (t.modifyEntry id f).modifyEntry id g = t.modifyEntry id (g ∘ f) := by
  simp only [Tables.modifyEntry, List.map_map]
  congr 1
  refine List.map_congr_left fun e _ => ?_
  by_cases he : e.id = id <;> simp [he, hid]

/-! ### New entries -/

/-- Adds an entry of a type, with its columns. -/
def addEntry (t : Tables) (row : EntryRow) (type : EntryType) (columns : List ColumnRow) :
    Tables :=
  { t with
    entries := t.entries ++ [row]
    folders := if type = .folder then t.folders ++ [row.id] else t.folders
    tables := if type = .table then t.tables ++ [row.id] else t.tables
    columns := t.columns ++ columns }

variable {row : EntryRow} {type : EntryType} {columns : List ColumnRow}

theorem entry?_addEntry (hnew : t.entry? row.id = none) :
    Tables.entry? (t.addEntry row type columns) id =
      if id = row.id then some row else t.entry? id :=
  find?_key_append hnew

/-- What was an entry is found as before. -/
theorem entry?_addEntry_of_some (hnew : t.entry? row.id = none) {e : EntryRow}
    (he : t.entry? id = some e) : Tables.entry? (t.addEntry row type columns) id = some e := by
  rw [entry?_addEntry hnew, if_neg ?_, he]
  rintro rfl
  rw [hnew] at he
  cases he

theorem isEntry_addEntry (hnew : t.entry? row.id = none) (htype : row.type = type.name)
    (other : EntryType) :
    (t.addEntry row type columns).IsEntry id other ↔
      t.IsEntry id other ∨ id = row.id ∧ type = other := by
  have hname : row.type = other.name ↔ type = other := by
    rw [htype]
    cases type <;> cases other <;> simp [EntryType.name]
  by_cases hid : id = row.id
  · subst hid
    simp [IsEntry, entry?_addEntry hnew, hnew, hname]
  · simp [IsEntry, entry?_addEntry hnew, hid]

/-- A new entry is marked as what it is. -/
theorem mem_markers_addEntry (hnew : t.entry? row.id = none) (htype : row.type = type.name)
    (other : EntryType) {markers : List Uuid} (h : ∀ x, x ∈ markers ↔ t.IsEntry x other) :
    (id ∈ if type = other then markers ++ [row.id] else markers) ↔
      (t.addEntry row type columns).IsEntry id other := by
  rw [isEntry_addEntry hnew htype]
  split
  case isTrue ht => simp [h, ht]
  case isFalse ht => simp [h, ht]

theorem nodup_markers_addEntry (hnew : t.entry? row.id = none) {other : EntryType}
    {markers : List Uuid} (hn : markers.Nodup) (h : ∀ x, x ∈ markers ↔ t.IsEntry x other) :
    (if type = other then markers ++ [row.id] else markers).Nodup := by
  split
  · refine hn.append (List.nodup_singleton _) (List.disjoint_singleton.mpr fun hmem => ?_)
    exact not_isEntry_of_none hnew other ((h _).mp hmem)
  · exact hn

theorem rowsOf_addEntry_of_ne (hcolumns : ∀ c ∈ columns, c.tableId = row.id)
    (hne : table ≠ row.id) : (t.addEntry row type columns).rowsOf table = t.rowsOf table := by
  have hnone : columns.filter (fun c => c.tableId == table) = [] :=
    List.filter_eq_nil_iff.mpr fun c hc => by simpa [hcolumns c hc] using hne.symm
  rw [rowsOf, addEntry, List.filter_append, hnone, List.append_nil, rowsOf]

/-- Nothing but an entry has columns. -/
theorem Sound.rowsOf_eq_nil (hs : t.Sound) (hnone : ¬ t.IsEntry table .table) :
    t.rowsOf table = [] :=
  List.filter_eq_nil_iff.mpr fun c hc htable => by
    have hct : c.tableId = table := by simpa using htable
    exact hnone (hct ▸ hs.columnTable c hc)

theorem rowsOf_addEntry_self (hs : t.Sound) (hnew : t.entry? row.id = none)
    (hcolumns : ∀ c ∈ columns, c.tableId = row.id) :
    (t.addEntry row type columns).rowsOf row.id = columns := by
  have hall : columns.filter (fun c => c.tableId == row.id) = columns :=
    List.filter_eq_self.mpr fun c hc => by simpa using hcolumns c hc
  have hnone := hs.rowsOf_eq_nil (not_isEntry_of_none hnew .table)
  rw [rowsOf] at hnone
  rw [rowsOf, addEntry, List.filter_append, hall, hnone, List.nil_append]

/-- A new entry has the columns it was made with, in their order. -/
theorem ordered_addEntry (hs : t.Sound) (hnew : t.entry? row.id = none)
    (hcolumns : ∀ c ∈ columns, c.tableId = row.id) (hn : (columns.map ColumnRow.id).Nodup)
    (hindex : ∀ c ∈ columns, c.index = (columns.map ColumnRow.id).idxOf c.id) :
    (t.addEntry row type columns).Ordered row.id (columns.map ColumnRow.id) where
  perm := by rw [rowsOf_addEntry_self hs hnew hcolumns]
  nodup := hn
  index := by rwa [rowsOf_addEntry_self hs hnew hcolumns]

/-- An entry with a new identifier can be added to its organization, in a folder of it or at its
root, with columns if it is a table. -/
theorem Sound.addEntry (hs : t.Sound) (hnew : t.entry? row.id = none)
    (htype : row.type = type.name) (howner : ∃ o, t.organization? row.organizationId = some o)
    (hparent : t.CanHold row.organizationId row.parent)
    (hcolumns : ∀ c ∈ columns, c.tableId = row.id ∧ type = .table)
    (hread : ∀ c ∈ columns, ∃ type : ColumnType, c.type = type.name)
    (hn : ((t.columns ++ columns).map ColumnRow.id).Nodup)
    (hindex : ∀ c ∈ columns, c.index = (columns.map ColumnRow.id).idxOf c.id) :
    (t.addEntry row type columns).Sound := by
  have hkeep : ∀ {x : Uuid} {e : EntryRow}, t.entry? x = some e →
      Tables.entry? (t.addEntry row type columns) x = some e := entry?_addEntry_of_some hnew
  have hself : Tables.entry? (t.addEntry row type columns) row.id = some row := by
    rw [entry?_addEntry hnew, if_pos rfl]
  have hascent : ∀ {x : Uuid} {chain : List Uuid}, t.Ascent x chain →
      (t.addEntry row type columns).Ascent x chain := fun hc => hc.congr fun y hy => by
    obtain ⟨e, he⟩ := Option.isSome_iff_exists.mp (hc.isSome_of_mem hy)
    rw [parentOf?, hkeep he, parentOf?, he]
  have hhold : ∀ {organization : Uuid} {parent : Option Uuid},
      t.CanHold organization parent →
        (t.addEntry row type columns).CanHold organization parent :=
    fun h => h.mono fun p e _ he => ⟨e, hkeep he, rfl, rfl⟩
  have hmem : ∀ e ∈ (t.addEntry row type columns).entries, e ∈ t.entries ∨ e = row := fun e he =>
    (List.mem_append.mp he).imp_right List.mem_singleton.mp
  refine
    { hs with
      entries_nodup := nodup_map_append hs.entries_nodup hnew
      folders_nodup := nodup_markers_addEntry hnew hs.folders_nodup hs.mem_folders
      tables_nodup := nodup_markers_addEntry hnew hs.tables_nodup hs.mem_tables
      columns_nodup := hn
      entryType := ?_
      columnType := ?_
      mem_folders := fun x => mem_markers_addEntry hnew htype .folder hs.mem_folders
      mem_tables := fun x => mem_markers_addEntry hnew htype .table hs.mem_tables
      owner := ?_
      parent := ?_
      rooted := ?_
      columnTable := ?_
      recordTable := fun r hr => (isEntry_addEntry hnew htype _).mpr (.inl (hs.recordTable r hr))
      ordered := ?_ }
  case refine_1 =>
    intro e he
    rcases hmem e he with he | rfl
    · exact hs.entryType e he
    · exact ⟨type, htype⟩
  case refine_2 =>
    intro c hc
    exact (List.mem_append.mp hc).elim (hs.columnType c) (hread c)
  case refine_3 =>
    intro e he
    rcases hmem e he with he | rfl
    · exact hs.owner e he
    · exact howner
  case refine_4 =>
    intro e he
    rcases hmem e he with he | rfl
    · exact hhold (hs.parent e he)
    · exact hhold hparent
  case refine_5 =>
    intro e he
    rcases hmem e he with he | rfl
    · exact (hs.rooted e he).imp fun _ hc => hascent hc
    · -- the new entry stands on the way up of its parent, which nothing has changed
      cases hp : e.parent with
      | none => exact ⟨_, .root (parentOf?_eq_some.mpr ⟨e, hself, hp⟩)⟩
      | some p =>
        obtain ⟨folder, hf, -, -⟩ := hparent p hp
        obtain ⟨chain, hc⟩ := hs.exists_ascent hf
        exact ⟨_, .up (parentOf?_eq_some.mpr ⟨e, hself, hp⟩) (hascent hc)⟩
  case refine_6 =>
    intro c hc
    rw [isEntry_addEntry hnew htype]
    exact (List.mem_append.mp hc).imp (hs.columnTable c) (hcolumns c)
  case refine_7 =>
    intro table
    have htables : ∀ c ∈ columns, c.tableId = row.id := fun c hc => (hcolumns c hc).1
    by_cases htable : table = row.id
    · subst htable
      rw [List.map_append] at hn
      exact (ordered_addEntry hs hnew htables hn.of_append_right hindex).self
    · exact ((hs.ordered table).congr (by rw [rowsOf_addEntry_of_ne htables htable])).self

/-! ### Deletion -/

/-- Takes entries out, with everything that belongs to them. -/
def discard (t : Tables) (doomed : List Uuid) : Tables :=
  { t with
    entries := t.entries.filter fun e => !doomed.contains e.id
    folders := t.folders.filter fun id => !doomed.contains id
    tables := t.tables.filter fun id => !doomed.contains id
    columns := t.columns.filter fun c => !doomed.contains c.tableId
    records := t.records.filter fun r => !doomed.contains r.tableId }

variable {gone : List Uuid}

theorem Sound.entry?_discard (hs : t.Sound) :
    Tables.entry? (t.discard gone) id = if id ∈ gone then none else t.entry? id := by
  have hfind : Tables.entry? (t.discard gone) id =
      (t.entry? id).filter fun e => !gone.contains e.id :=
    find?_key_filter hs.entries_nodup _
  rw [hfind]
  cases he : t.entry? id with
  | none => simp
  | some e =>
    obtain ⟨-, rfl⟩ := entry?_spec he
    by_cases hg : e.id ∈ gone <;> simp [hg]

theorem Sound.isEntry_discard (hs : t.Sound) (type : EntryType) :
    (t.discard gone).IsEntry id type ↔ t.IsEntry id type ∧ id ∉ gone := by
  rw [IsEntry, hs.entry?_discard]
  by_cases hg : id ∈ gone <;> simp [hg, IsEntry]

theorem rowsOf_discard :
    (t.discard gone).rowsOf table = if table ∈ gone then [] else t.rowsOf table := by
  rw [rowsOf, discard, List.filter_filter]
  split
  case isTrue hg =>
    refine List.filter_eq_nil_iff.mpr fun c _ => ?_
    by_cases hc : c.tableId = table <;> simp [hc, hg]
  case isFalse hg =>
    refine List.filter_congr fun c _ => ?_
    by_cases hc : c.tableId = table <;> simp [hc, hg]

/-- The way up of an entry that stays stays with it. -/
theorem Ascent.notMem_of_closed {chain : List Uuid} (h : t.Ascent id chain)
    (hclosed : t.IsClosed gone) (hid : id ∉ gone) : ∀ x ∈ chain, x ∉ gone := by
  induction h with
  | root _ =>
    intro x hx
    exact List.mem_singleton.mp hx ▸ hid
  | up hp _ ih =>
    obtain ⟨e, he, hep⟩ := parentOf?_eq_some.mp hp
    obtain ⟨hmem, rfl⟩ := entry?_spec he
    intro x hx
    rcases List.mem_cons.mp hx with rfl | hx
    · exact hid
    · exact ih (fun hpg => hid (hclosed e hmem _ hep hpg)) x hx

/-- Entries can be taken out with everything below them. -/
theorem Sound.discard (hs : t.Sound) (hclosed : t.IsClosed gone) : (t.discard gone).Sound := by
  have hmem : ∀ e ∈ (t.discard gone).entries, e ∈ t.entries ∧ e.id ∉ gone := fun e he => by
    simpa [Tables.discard] using he
  have hmarkers : ∀ (type : EntryType) (markers : List Uuid),
      (∀ x, x ∈ markers ↔ t.IsEntry x type) →
      ∀ x, (x ∈ markers.filter fun y => !gone.contains y) ↔ (t.discard gone).IsEntry x type :=
    fun type markers h x => by simp [hs.isEntry_discard, h]
  refine
    { hs with
      entries_nodup := hs.entries_nodup.sublist (List.filter_sublist.map _)
      folders_nodup := hs.folders_nodup.filter _
      tables_nodup := hs.tables_nodup.filter _
      columns_nodup := hs.columns_nodup.sublist (List.filter_sublist.map _)
      records_nodup := hs.records_nodup.sublist (List.filter_sublist.map _)
      entryType := fun e he => hs.entryType e (hmem e he).1
      columnType := fun c hc => hs.columnType c (List.mem_of_mem_filter hc)
      mem_folders := hmarkers .folder t.folders hs.mem_folders
      mem_tables := hmarkers .table t.tables hs.mem_tables
      owner := fun e he => hs.owner e (hmem e he).1
      parent := ?_
      rooted := ?_
      columnTable := ?_
      recordTable := ?_
      ordered := ?_ }
  case refine_1 =>
    intro e he
    obtain ⟨hem, heg⟩ := hmem e he
    refine (hs.parent e hem).mono fun p folder hp hf => ⟨folder, ?_, rfl, rfl⟩
    -- the parent stays too, as the entry would have gone with it
    rw [hs.entry?_discard, if_neg fun hpg => heg (hclosed e hem p hp hpg), hf]
  case refine_2 =>
    intro e he
    obtain ⟨hem, heg⟩ := hmem e he
    obtain ⟨chain, hc⟩ := hs.rooted e hem
    refine ⟨chain, hc.congr fun x hx => ?_⟩
    rw [parentOf?, hs.entry?_discard, if_neg (hc.notMem_of_closed hclosed heg x hx), parentOf?]
  case refine_3 =>
    intro c hc
    obtain ⟨hcm, hcg⟩ := List.mem_filter.mp hc
    exact (hs.isEntry_discard _).mpr ⟨hs.columnTable c hcm, by simpa using hcg⟩
  case refine_4 =>
    intro r hr
    obtain ⟨hrm, hrg⟩ := List.mem_filter.mp hr
    exact (hs.isEntry_discard _).mpr ⟨hs.recordTable r hrm, by simpa using hrg⟩
  case refine_5 =>
    intro table
    by_cases hg : table ∈ gone
    · exact (ordered_nil (rowsOf_discard.trans (if_pos hg))).self
    · exact ((hs.ordered table).congr (by rw [rowsOf_discard, if_neg hg])).self

/-- The entry and its descendants, as they are stored. -/
def subtree (t : Tables) (id : Uuid) : List Uuid :=
  (t.entries.map EntryRow.id).filter fun x => id ∈ t.ancestry x

/-- The entries of an organization, as they are stored. -/
def ownedBy (t : Tables) (organization : Uuid) : List Uuid :=
  (t.entries.filter fun e => e.organizationId == organization).map EntryRow.id

/-- Takes an organization out, with its entries and everything that belongs to them. -/
def withoutOrganization (t : Tables) (organization : Uuid) : Tables :=
  { t.discard (t.ownedBy organization) with
    organizations := t.organizations.filter fun o => o.id != organization }

theorem mem_ownedBy :
    other ∈ t.ownedBy id ↔ ∃ e ∈ t.entries, e.id = other ∧ e.organizationId = id := by
  simp only [ownedBy, List.mem_map, List.mem_filter, beq_iff_eq, and_assoc]
  exact exists_congr fun e => and_congr_right fun _ => and_comm

/-- What stands at or below something is an entry, or that thing itself. -/
theorem AtOrBelow.isSome (h : t.AtOrBelow other id) (hid : (t.entry? id).isSome) :
    (t.entry? other).isSome := by
  rcases Relation.ReflTransGen.cases_head h with rfl | ⟨p, hchild, -⟩
  · exact hid
  · obtain ⟨e, he, -⟩ := parentOf?_eq_some.mp hchild
    exact he ▸ rfl

namespace Sound

variable (hs : t.Sound)
include hs

/-- What goes with an entry is what stands at or below it. -/
theorem mem_subtree :
    other ∈ t.subtree id ↔ (t.entry? other).isSome ∧ t.AtOrBelow other id := by
  simp only [subtree, List.mem_filter, decide_eq_true_eq, List.mem_map]
  constructor
  · rintro ⟨⟨e, he, rfl⟩, hmem⟩
    have hfound := hs.entry?_of_mem he
    exact ⟨hfound ▸ rfl, (hs.mem_ancestry hfound).mp hmem⟩
  · rintro ⟨hsome, hbelow⟩
    obtain ⟨e, hfound⟩ := Option.isSome_iff_exists.mp hsome
    exact ⟨⟨e, entry?_spec hfound⟩, (hs.mem_ancestry hfound).mpr hbelow⟩

theorem isClosed_subtree (id : Uuid) : t.IsClosed (t.subtree id) := fun e he _ hp hmem =>
  hs.mem_subtree.mpr ⟨hs.entry?_of_mem he ▸ rfl,
    .head (parentOf?_eq_some.mpr ⟨e, hs.entry?_of_mem he, hp⟩) (hs.mem_subtree.mp hmem).2⟩

/-- What an entry is at or below stands in the same organization. -/
theorem organizationId_of_atOrBelow {e above : EntryRow} (h : t.AtOrBelow id other)
    (he : t.entry? id = some e) (ha : t.entry? other = some above) :
    above.organizationId = e.organizationId := by
  induction h generalizing above with
  | refl => rw [Option.some_inj.mp (ha.symm.trans he)]
  | tail hbelow hchild ih =>
    obtain ⟨child, hc, hparent⟩ := parentOf?_eq_some.mp hchild
    obtain ⟨folder, hf, -, howner⟩ := hs.parent child (entry?_spec hc).1 _ hparent
    obtain rfl := Option.some_inj.mp (ha.symm.trans hf)
    exact howner.trans (ih hc)

/-- What stands below an entry of an organization is one as well. -/
theorem mem_ownedBy_of_atOrBelow {organization : Uuid} (h : t.AtOrBelow other id)
    (hid : id ∈ t.ownedBy organization) : other ∈ t.ownedBy organization := by
  obtain ⟨above, habove, rfl, howner⟩ := mem_ownedBy.mp hid
  have ha := hs.entry?_of_mem habove
  obtain ⟨e, he⟩ := Option.isSome_iff_exists.mp (AtOrBelow.isSome h (ha ▸ rfl))
  obtain ⟨hmem, hother⟩ := entry?_spec he
  exact mem_ownedBy.mpr
    ⟨e, hmem, hother, (hs.organizationId_of_atOrBelow h he ha).symm.trans howner⟩

theorem isClosed_ownedBy (organization : Uuid) : t.IsClosed (t.ownedBy organization) :=
  fun e he _ hp hmem => hs.mem_ownedBy_of_atOrBelow
    (.single (parentOf?_eq_some.mpr ⟨e, hs.entry?_of_mem he, hp⟩)) hmem

/-- An organization can be taken out with all it owns. -/
theorem withoutOrganization (organization : Uuid) : (t.withoutOrganization organization).Sound := by
  refine (hs.discard (hs.isClosed_ownedBy organization)).setOrganizations
    (hs.organizations_nodup.sublist (List.filter_sublist.map _)) fun e he => ?_
  obtain ⟨hem, heg⟩ := List.mem_filter.mp he
  have hne : e.organizationId ≠ organization := fun heq => by
    have howned : e.id ∈ t.ownedBy organization := mem_ownedBy.mpr ⟨e, hem, rfl, heq⟩
    simp [howned] at heg
  obtain ⟨o, ho⟩ := hs.owner e hem
  refine ⟨o, ?_⟩
  rw [find?_key_filter hs.organizations_nodup]
  rw [organization?] at ho
  obtain ⟨-, hoid⟩ := mem_and_key_of_find? ho
  rw [ho, Option.filter_some_pos (by simpa [hoid] using hne)]

end Sound

/-! ### Columns -/

/-- The tables with other rows of columns. -/
def setColumns (t : Tables) (rows : List ColumnRow) : Tables :=
  { t with columns := rows }

theorem Sound.setColumns (hs : t.Sound) {rows : List ColumnRow}
    (hn : (rows.map ColumnRow.id).Nodup)
    (hread : ∀ c ∈ rows, ∃ type : ColumnType, c.type = type.name)
    (htable : ∀ c ∈ rows, t.IsEntry c.tableId .table)
    (hordered : ∀ table, ∃ order, (t.setColumns rows).Ordered table order) :
    (t.setColumns rows).Sound :=
  { hs with
    columns_nodup := hn
    columnType := hread
    columnTable := htable
    rooted := fun e he => (hs.rooted e he).imp fun _ h => h.congr fun _ _ => rfl
    ordered := fun table => (hordered table).elim fun _ h => h.self }

/-- The columns of one table can be replaced by any others if their positions are written after
this. -/
theorem Sound.arrange (hs : t.Sound) (rows : List ColumnRow) {target : ColumnOrder}
    (hn : (rows.map ColumnRow.id).Nodup)
    (hread : ∀ c ∈ rows, ∃ type : ColumnType, c.type = type.name)
    (htable : ∀ c ∈ rows, t.IsEntry c.tableId .table)
    (hother : ∀ other, other ≠ table → (t.setColumns rows).rowsOf other = t.rowsOf other)
    (hp : (((t.setColumns rows).rowsOf table).map ColumnRow.id).Perm target) :
    ((t.setColumns rows).withOrder table target).Sound := by
  have hmem : ∀ c ∈ ((t.setColumns rows).withOrder table target).columns, ∃ d ∈ rows,
      (if d.tableId = table then { d with index := (target.idxOf d.id : Int) } else d) = c :=
    fun c hc => List.mem_map.mp hc
  have htarget : target.Nodup := hp.nodup_iff.mp (hn.sublist (List.filter_sublist.map _))
  refine hs.setColumns ?_ (fun c hc => ?_) (fun c hc => ?_) fun other => ?_
  · have hids := withOrder_columns_map (t.setColumns rows) table target ColumnRow.id fun _ _ => rfl
    exact hids.symm ▸ hn
  · obtain ⟨d, hd, rfl⟩ := hmem c hc
    split
    · exact hread d hd
    · exact hread d hd
  · obtain ⟨d, hd, rfl⟩ := hmem c hc
    split
    · exact htable d hd
    · exact htable d hd
  · by_cases hne : other = table
    · exact ⟨target, hne ▸ ordered_withOrder hp htarget⟩
    · have hrows : ((t.setColumns rows).withOrder table target).rowsOf other = t.rowsOf other :=
        (rowsOf_withOrder_of_ne hne).trans (hother other hne)
      exact ⟨t.columnOrder other, (hs.ordered other).congr (congrArg _ hrows)⟩

/-- The columns of a table can be written in any order. -/
theorem Sound.withOrder (hs : t.Sound) {target : ColumnOrder}
    (hp : target.Perm (t.columnOrder table)) : (t.withOrder table target).Sound :=
  hs.arrange t.columns hs.columns_nodup hs.columnType hs.columnTable (fun _ _ => rfl)
    (columnOrder_perm.symm.trans hp.symm)

theorem rowsOf_append_self (row : ColumnRow) :
    (t.setColumns (t.columns ++ [row])).rowsOf row.tableId = t.rowsOf row.tableId ++ [row] := by
  simp [rowsOf, Tables.setColumns]

theorem rowsOf_append_of_ne {row : ColumnRow} (hne : table ≠ row.tableId) :
    (t.setColumns (t.columns ++ [row])).rowsOf table = t.rowsOf table := by
  simpa [rowsOf, Tables.setColumns] using hne.symm

/-- A column with the next index stands at the end. -/
theorem Sound.ordered_append (hs : t.Sound) {row : ColumnRow} (hnew : t.column? row.id = none)
    (hindex : row.index = (t.columnOrder row.tableId).length) :
    (t.setColumns (t.columns ++ [row])).Ordered row.tableId
      (t.columnOrder row.tableId ++ [row.id]) := by
  have hmem : row.id ∉ t.columnOrder row.tableId := hs.notMem_columnOrder hnew
  refine ⟨?_, ?_, fun c hc => ?_⟩
  · rw [rowsOf_append_self, List.map_append, List.map_singleton]
    exact columnOrder_perm.symm.append_right _
  · exact (hs.ordered row.tableId).nodup.append (List.nodup_singleton _)
      (List.disjoint_singleton.mpr hmem)
  · rw [rowsOf_append_self] at hc
    rcases List.mem_append.mp hc with hc | hc
    · have hcm : c.id ∈ t.columnOrder row.tableId :=
        columnOrder_perm.mem_iff.mpr (List.mem_map_of_mem hc)
      rw [List.idxOf_append_of_mem hcm]
      exact (hs.ordered row.tableId).index c hc
    · rw [List.mem_singleton.mp hc, List.idxOf_append_of_notMem hmem]
      simp [hindex]

/-- Adds a column to its table and writes the order of the table. -/
def addColumn (t : Tables) (row : ColumnRow) (target : ColumnOrder) : Tables :=
  (t.setColumns (t.columns ++ [row])).withOrder row.tableId target

theorem addColumn_perm {row : ColumnRow} {target : ColumnOrder}
    (hp : target.Perm (t.columnOrder row.tableId ++ [row.id])) :
    (((t.setColumns (t.columns ++ [row])).rowsOf row.tableId).map ColumnRow.id).Perm target := by
  rw [rowsOf_append_self, List.map_append, List.map_singleton]
  exact (columnOrder_perm.symm.append_right _).trans hp.symm

theorem Sound.addColumn (hs : t.Sound) {row : ColumnRow} {target : ColumnOrder}
    (hnew : t.column? row.id = none) (hread : ∃ type : ColumnType, row.type = type.name)
    (htable : t.IsEntry row.tableId .table)
    (hp : target.Perm (t.columnOrder row.tableId ++ [row.id])) :
    (t.addColumn row target).Sound := by
  have hmem : ∀ c ∈ t.columns ++ [row], c ∈ t.columns ∨ c = row := fun c hc =>
    (List.mem_append.mp hc).imp_right List.mem_singleton.mp
  refine hs.arrange _ (nodup_map_append hs.columns_nodup hnew) (fun c hc => ?_) (fun c hc => ?_)
    (fun _ hne => rowsOf_append_of_ne hne) (addColumn_perm hp)
  · rcases hmem c hc with hc | rfl
    · exact hs.columnType c hc
    · exact hread
  · rcases hmem c hc with hc | rfl
    · exact hs.columnTable c hc
    · exact htable

/-- A column that keeps its table and its index can be changed. -/
theorem rowsOf_modifyColumn {f : ColumnRow → ColumnRow} (hf : ∀ c, (f c).tableId = c.tableId) :
    (t.modifyColumn id f).rowsOf table =
      (t.rowsOf table).map fun c => if c.id = id then f c else c := by
  rw [rowsOf, modifyColumn, List.filter_map, rowsOf]
  congr 1
  refine List.filter_congr fun c _ => ?_
  by_cases hc : c.id = id <;> simp [hc, hf]

theorem ordered_modifyColumn (f : ColumnRow → ColumnRow) {order : ColumnOrder}
    (hid : ∀ c, (f c).id = c.id) (htable : ∀ c, (f c).tableId = c.tableId)
    (hindex : ∀ c, (f c).index = c.index) (h : t.Ordered table order) :
    (t.modifyColumn id f).Ordered table order := by
  refine h.congr ?_
  rw [rowsOf_modifyColumn htable, List.map_map]
  refine List.map_congr_left fun c _ => ?_
  by_cases hc : c.id = id <;> simp [hc, hid, hindex]

theorem Sound.modifyColumn (hs : t.Sound) {f : ColumnRow → ColumnRow} (hid : ∀ c, (f c).id = c.id)
    (htable : ∀ c, (f c).tableId = c.tableId) (hindex : ∀ c, (f c).index = c.index)
    (hread : ∀ c, t.column? id = some c → ∃ type : ColumnType, (f c).type = type.name) :
    (t.modifyColumn id f).Sound := by
  have hmem : ∀ c ∈ (t.modifyColumn id f).columns, ∃ d ∈ t.columns,
      (if d.id = id then f d else d) = c := fun c hc => List.mem_map.mp hc
  refine hs.setColumns ?_ (fun c hc => ?_) (fun c hc => ?_) fun table =>
    ⟨_, ordered_modifyColumn f hid htable hindex (hs.ordered table)⟩
  · exact (map_key_map_ite f hid fun c => c.id = id).symm ▸ hs.columns_nodup
  · obtain ⟨d, hd, rfl⟩ := hmem c hc
    split
    case isTrue h => exact hread d (h ▸ hs.column?_of_mem hd)
    case isFalse => exact hs.columnType d hd
  · obtain ⟨d, hd, rfl⟩ := hmem c hc
    split
    · exact (htable d).symm ▸ hs.columnTable d hd
    · exact hs.columnTable d hd

/-! ### Deleted columns -/

/-- Takes a column out of its table and closes the gap. -/
def removeColumn (t : Tables) (column : ColumnRow) : Tables :=
  (t.deleteColumn column.id).withOrder column.tableId
    ((t.columnOrder column.tableId).erase column.id)

theorem rowsOf_deleteColumn :
    (t.deleteColumn id).rowsOf table = (t.rowsOf table).filter fun c => c.id != id := by
  rw [rowsOf, deleteColumn, List.filter_filter, rowsOf, List.filter_filter]
  simp only [Bool.and_comm]

theorem map_id_filter_ne (rows : List ColumnRow) :
    (rows.filter fun c => c.id != id).map ColumnRow.id =
      (rows.map ColumnRow.id).filter fun x => x != id := by
  rw [List.filter_map]
  rfl

/-- What is left of the columns of a table when one is deleted. -/
theorem deleteColumn_perm (h : t.Ordered table (t.columnOrder table)) :
    (((t.deleteColumn id).rowsOf table).map ColumnRow.id).Perm
      ((t.columnOrder table).erase id) := by
  rw [rowsOf_deleteColumn, map_id_filter_ne, h.nodup.erase_eq_filter]
  exact (columnOrder_perm.symm.filter _)

/-- The columns that are left keep their order, even before the gap is closed. -/
theorem columnOrder_deleteColumn (h : t.Ordered table (t.columnOrder table)) :
    (t.deleteColumn id).columnOrder table = (t.columnOrder table).erase id := by
  refine columnOrder_eq_of_sublist h.nodup List.erase_sublist (deleteColumn_perm h) fun c hc => ?_
  rw [rowsOf_deleteColumn] at hc
  exact h.index c (List.mem_of_mem_filter hc)

/-- The columns of other tables stay where one is deleted. -/
theorem Sound.rowsOf_deleteColumn_of_ne (hs : t.Sound) {column : ColumnRow}
    (hc : t.column? column.id = some column) (hne : other ≠ column.tableId) :
    (t.deleteColumn column.id).rowsOf other = t.rowsOf other := by
  refine rowsOf_deleteColumn.trans (List.filter_eq_self.mpr fun c hcm => ?_)
  obtain ⟨hcm, hco⟩ := mem_rowsOf.mp hcm
  -- a column of another table is another column
  have hcne : c.id ≠ column.id := fun heq => hne <| by
    have hfound := hs.column?_of_mem hcm
    rw [heq, hc] at hfound
    rw [← hco, Option.some_inj.mp hfound]
  simpa using hcne

theorem Sound.removeColumn (hs : t.Sound) {column : ColumnRow}
    (hc : t.column? column.id = some column) : (t.removeColumn column).Sound :=
  hs.arrange (t.columns.filter fun c => c.id != column.id)
    (hs.columns_nodup.sublist (List.filter_sublist.map _))
    (fun c hc => hs.columnType c (List.mem_of_mem_filter hc))
    (fun c hc => hs.columnTable c (List.mem_of_mem_filter hc))
    (fun _ hne => hs.rowsOf_deleteColumn_of_ne hc hne)
    (deleteColumn_perm (hs.ordered column.tableId))

/-! ### Records -/

/-- A stored record has a new identifier and belongs to a table. -/
theorem insertRecord_ok {t' : Tables} {r : Query.NewRecord} (h : t.insertRecord r = .ok t') :
    (∀ old ∈ t.records, old.id ≠ r.id) ∧ r.tableId ∈ t.tables ∧
      t' = { t with
        records := t.records ++ [⟨r.id, r.tableId, r.data, r.createdAt, r.createdAt⟩] } := by
  simp only [insertRecord, ensure, bind, Except.bind, pure, Except.pure] at h
  split at h
  case h_1 => cases h
  case h_2 hfresh =>
    split at h
    case h_1 => cases h
    case h_2 htable =>
      refine ⟨?_, ?_, (Except.ok.inj h).symm⟩
      · simpa using hfresh
      · simpa using htable

theorem Sound.insertRecord (hs : t.Sound) {t' : Tables} {r : Query.NewRecord}
    (h : t.insertRecord r = .ok t') : t'.Sound := by
  obtain ⟨hfresh, htable, rfl⟩ := insertRecord_ok h
  refine
    { hs with
      records_nodup := ?_
      rooted := fun e he => (hs.rooted e he).imp fun _ h => h.congr fun _ _ => rfl
      recordTable := fun old hold => ?_
      ordered := fun table => (hs.ordered table).congr rfl }
  · rw [List.map_append]
    refine hs.records_nodup.append (List.nodup_singleton _) ?_
    refine List.disjoint_singleton.mpr fun hmem => ?_
    obtain ⟨old, hold, hid⟩ := List.mem_map.mp hmem
    exact hfresh old hold hid
  · rcases List.mem_append.mp hold with hold | hold
    · exact hs.recordTable old hold
    · rw [List.mem_singleton.mp hold]
      exact (hs.mem_tables _).mp htable

/-- Storing records keeps tables sound, and changes nothing but records. -/
theorem Sound.insertRecords (hs : t.Sound) {t' : Tables} (records : List Query.NewRecord)
    (h : t.insertRecords records = .ok t') :
    t'.Sound ∧ ∃ rows, t' = { t with records := rows } := by
  induction records generalizing t with
  | nil =>
    obtain rfl := Except.ok.inj h
    exact ⟨hs, t.records, rfl⟩
  | cons r rest ih =>
    rw [Tables.insertRecords, List.foldlM_cons] at h
    cases hr : t.insertRecord r with
    | error fault =>
      rw [hr] at h
      cases h
    | ok between =>
      rw [hr] at h
      obtain ⟨hsound, rows, rfl⟩ := ih (hs.insertRecord hr) h
      obtain ⟨-, -, rfl⟩ := insertRecord_ok hr
      exact ⟨hsound, rows, rfl⟩

end TableStore.Tables
