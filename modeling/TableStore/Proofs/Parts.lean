import TableStore.Proofs.Deletion
import TableStore.Proofs.Pages

/-!
# Parts of organizations

The part of an organization is its row, its entries and what belongs to these (`Tables.part`). Sound
tables have sound parts (`Tables.Sound.part`): what is taken out goes with everything below it.

The second section says which changes leave the part of an organization alone, one lemma for each
change that operations make; they all come down to the rows of others (`Tables.part_congr`). The
third says what reading an organization comes to on its part alone: the same.
-/

namespace TableStore.Tables

variable {t after : Tables} {organization other id table : Uuid}

/-- The row of an organization, its entries, and their markers, columns and records. -/
def part (t : Tables) (organization : Uuid) : Tables where
  organizations := t.organizations.filter fun o => o.id == organization
  entries := t.entries.filter fun e => e.organizationId == organization
  folders := t.folders.filter fun id => (t.ownedBy organization).contains id
  tables := t.tables.filter fun id => (t.ownedBy organization).contains id
  columns := t.columns.filter fun c => (t.ownedBy organization).contains c.tableId
  records := t.records.filter fun r => (t.ownedBy organization).contains r.tableId

/-- There is an entry of an organization with an identifier. -/
def Owns (t : Tables) (organization id : Uuid) : Prop :=
  ∃ e, t.entry? id = some e ∧ e.organizationId = organization

theorem Sound.mem_ownedBy_iff (hs : t.Sound) :
    id ∈ t.ownedBy organization ↔ t.Owns organization id := by
  rw [mem_ownedBy]
  constructor
  · rintro ⟨e, he, rfl, howner⟩
    exact ⟨e, hs.entry?_of_mem he, howner⟩
  · rintro ⟨e, he, howner⟩
    obtain ⟨hmem, hid⟩ := entry?_spec he
    exact ⟨e, hmem, hid, howner⟩

/-- What one organization owns no other one owns. -/
theorem Sound.notMem_ownedBy (hs : t.Sound) (h : t.Owns organization id)
    (hne : organization ≠ other) : id ∉ t.ownedBy other := by
  intro hmem
  obtain ⟨e, he, howner⟩ := h
  obtain ⟨e', he', howner'⟩ := hs.mem_ownedBy_iff.mp hmem
  obtain rfl := Option.some_inj.mp (he.symm.trans he')
  exact hne (howner.symm.trans howner')

/-! ### Changes of the rows of others -/

section Rows

variable {α : Type} {rows : List α} {p q : α → Bool}

/-- Rows that are not asked for can be changed. -/
theorem filter_map_of_fixed {f : α → α} (hp : ∀ a ∈ rows, p (f a) = p a)
    (hf : ∀ a ∈ rows, p a = true → f a = a) : (rows.map f).filter p = rows.filter p := by
  have hkeep : rows.filter (p ∘ f) = rows.filter p := List.filter_congr hp
  rw [List.filter_map, hkeep]
  refine (List.map_congr_left fun a ha => ?_).trans (List.map_id' _)
  exact hf a (List.mem_of_mem_filter ha) (List.of_mem_filter ha)

/-- Rows that are not asked for can be taken out. -/
theorem filter_filter_of_imp (h : ∀ a ∈ rows, p a = true → q a = true) :
    (rows.filter q).filter p = rows.filter p := by
  rw [List.filter_filter]
  refine List.filter_congr fun a ha => ?_
  cases hp : p a with
  | false => rfl
  | true => rw [h a ha hp, Bool.and_self]

/-- Rows that are not asked for can be added. -/
theorem filter_append_of_false {new : List α} (h : ∀ a ∈ new, p a = false) :
    (rows ++ new).filter p = rows.filter p := by
  have hnone : new.filter p = [] := List.filter_eq_nil_iff.mpr fun a ha => by simp [h a ha]
  rw [List.filter_append, hnone, List.append_nil]

end Rows

/-- Tables whose rows of an organization are the same have the same part of it. -/
theorem part_congr
    (horganizations : after.organizations.filter (fun o => o.id == organization) =
      t.organizations.filter fun o => o.id == organization)
    (hentries : after.entries.filter (fun e => e.organizationId == organization) =
      t.entries.filter fun e => e.organizationId == organization)
    (hfolders : after.folders.filter (fun x => (t.ownedBy organization).contains x) =
      t.folders.filter fun x => (t.ownedBy organization).contains x)
    (htables : after.tables.filter (fun x => (t.ownedBy organization).contains x) =
      t.tables.filter fun x => (t.ownedBy organization).contains x)
    (hcolumns : after.columns.filter (fun c => (t.ownedBy organization).contains c.tableId) =
      t.columns.filter fun c => (t.ownedBy organization).contains c.tableId)
    (hrecords : after.records.filter (fun r => (t.ownedBy organization).contains r.tableId) =
      t.records.filter fun r => (t.ownedBy organization).contains r.tableId) :
    after.part organization = t.part organization := by
  have howned : after.ownedBy organization = t.ownedBy organization :=
    congrArg (List.map EntryRow.id) hentries
  rw [part, howned, horganizations, hentries, hfolders, htables, hcolumns, hrecords, part]

/-- The row of another organization can be changed. -/
theorem part_modifyOrganization {f : Organization → Organization} (hf : ∀ o, (f o).id = o.id)
    (hne : id ≠ organization) :
    (t.modifyOrganization id f).part organization = t.part organization := by
  refine part_congr (filter_map_of_fixed (fun o _ => ?_) fun o _ ho => ?_) rfl rfl rfl rfl rfl
  · by_cases hid : o.id = id <;> simp [hid, hf]
  · rw [if_neg fun hid => hne (hid.symm.trans (beq_iff_eq.mp ho))]

/-- An entry of another organization can be added, with its columns. -/
theorem part_addEntry {row : EntryRow} {type : EntryType} {columns : List ColumnRow}
    (hnew : t.entry? row.id = none) (hne : row.organizationId ≠ organization)
    (hcolumns : ∀ c ∈ columns, c.tableId = row.id) :
    (t.addEntry row type columns).part organization = t.part organization := by
  have hforeign : row.id ∉ t.ownedBy organization := fun hmem => by
    obtain ⟨e, he, hid, -⟩ := mem_ownedBy.mp hmem
    exact entry?_eq_none.mp hnew e he hid
  have hmarkers : ∀ (markers : List Uuid) (own : EntryType),
      (if type = own then markers ++ [row.id] else markers).filter
        (fun x => (t.ownedBy organization).contains x) =
      markers.filter fun x => (t.ownedBy organization).contains x := by
    intro markers own
    split
    · exact filter_append_of_false fun x hx => by simpa [List.mem_singleton.mp hx] using hforeign
    · rfl
  refine part_congr rfl (filter_append_of_false fun e he => ?_) (hmarkers _ _) (hmarkers _ _)
    (filter_append_of_false fun c hc => ?_) rfl
  · simpa [List.mem_singleton.mp he] using hne
  · simpa [hcolumns c hc] using hforeign

/-- An entry of another organization can be changed, if it stays with the organization. -/
theorem part_modifyEntry {f : EntryRow → EntryRow}
    (hf : ∀ e, (f e).organizationId = e.organizationId)
    (hother : ∀ e ∈ t.entries, e.id = id → e.organizationId ≠ organization) :
    (t.modifyEntry id f).part organization = t.part organization := by
  refine part_congr rfl (filter_map_of_fixed (fun e _ => ?_) fun e he howner => ?_) rfl rfl rfl rfl
  · by_cases hid : e.id = id <;> simp [hid, hf]
  · rw [if_neg fun hid => hother e he hid (beq_iff_eq.mp howner)]

/-- Entries of other organizations can be taken out, with what belongs to them. -/
theorem part_discard {gone : List Uuid} (hgone : ∀ x ∈ t.ownedBy organization, x ∉ gone) :
    (t.discard gone).part organization = t.part organization := by
  have hkept : ∀ x, (t.ownedBy organization).contains x = true → (!gone.contains x) = true :=
    fun x hx => by simpa using hgone x (List.contains_iff_mem.mp hx)
  refine part_congr rfl (filter_filter_of_imp fun e he howner => ?_)
    (filter_filter_of_imp fun x _ => hkept x) (filter_filter_of_imp fun x _ => hkept x)
    (filter_filter_of_imp fun c _ => hkept c.tableId)
    (filter_filter_of_imp fun r _ => hkept r.tableId)
  exact hkept e.id (List.contains_iff_mem.mpr
    (mem_ownedBy.mpr ⟨e, he, rfl, beq_iff_eq.mp howner⟩))

section Columns

variable (htable : table ∉ t.ownedBy organization)
include htable

/-- The columns of a table of another organization can be replaced. -/
theorem part_setColumns {rows : List ColumnRow}
    (hrows : rows.filter (fun c => c.tableId != table) =
      t.columns.filter fun c => c.tableId != table) :
    (t.setColumns rows).part organization = t.part organization := by
  have hforeign : ∀ c : ColumnRow, (t.ownedBy organization).contains c.tableId = true →
      (c.tableId != table) = true := fun c hc =>
    bne_iff_ne.mpr fun heq => htable (heq ▸ List.contains_iff_mem.mp hc)
  have hothers : ∀ columns : List ColumnRow,
      (columns.filter fun c => c.tableId != table).filter
        (fun c => (t.ownedBy organization).contains c.tableId) =
      columns.filter fun c => (t.ownedBy organization).contains c.tableId := fun columns =>
    filter_filter_of_imp fun c _ => hforeign c
  refine part_congr rfl rfl rfl rfl ?_ rfl
  rw [← hothers t.columns, ← hrows, hothers]
  rfl

/-- The order of a table of another organization can be written. -/
theorem part_withOrder (order : ColumnOrder) :
    (t.withOrder table order).part organization = t.part organization := by
  refine part_setColumns htable (filter_map_of_fixed (fun c _ => ?_) fun c _ hc => ?_)
  · by_cases hid : c.tableId = table <;> simp [hid]
  · rw [if_neg (bne_iff_ne.mp hc)]

/-- The columns of a table of another organization can be replaced and put in an order. -/
theorem part_arrange {rows : List ColumnRow}
    (hrows : rows.filter (fun c => c.tableId != table) =
      t.columns.filter fun c => c.tableId != table) (order : ColumnOrder) :
    ((t.setColumns rows).withOrder table order).part organization = t.part organization := by
  have hforeign : table ∉ (t.setColumns rows).ownedBy organization := htable
  exact (part_withOrder hforeign order).trans (part_setColumns htable hrows)

end Columns

/-! ### Sound parts -/

/-- The identifiers of the entries of all other organizations. -/
def foreign (t : Tables) (organization : Uuid) : List Uuid :=
  (t.entries.filter fun e => e.organizationId != organization).map EntryRow.id

namespace Sound

variable (hs : t.Sound)
include hs

theorem notMem_foreign {type : EntryType} (h : t.IsEntry id type) :
    id ∉ t.foreign organization ↔ id ∈ t.ownedBy organization := by
  obtain ⟨e, he, -⟩ := h
  obtain ⟨hmem, rfl⟩ := entry?_spec he
  have hforeign : e.id ∈ t.foreign organization ↔ e.organizationId ≠ organization := by
    simp only [foreign, List.mem_map, List.mem_filter, bne_iff_ne]
    constructor
    · rintro ⟨e', ⟨hmem', hne⟩, hid⟩
      rwa [List.inj_on_of_nodup_map hs.entries_nodup hmem hmem' hid.symm]
    · exact fun hne => ⟨e, ⟨hmem, hne⟩, rfl⟩
  have howned : e.id ∈ t.ownedBy organization ↔ e.organizationId = organization := by
    rw [hs.mem_ownedBy_iff, Owns, he]
    simp
  rw [hforeign, howned, not_not]

/-- The part of an organization is what is left when the entries of all others go. -/
theorem part_eq_discard :
    t.part organization = { t.discard (t.foreign organization) with
      organizations := t.organizations.filter fun o => o.id == organization } := by
  have hkept : ∀ {x : Uuid} {type : EntryType}, t.IsEntry x type →
      (t.ownedBy organization).contains x = !(t.foreign organization).contains x := by
    intro x type hx
    rw [Bool.eq_iff_iff, List.contains_iff_mem, ← hs.notMem_foreign hx]
    simp
  have hentries : t.entries.filter (fun e => e.organizationId == organization) =
      t.entries.filter fun e => !(t.foreign organization).contains e.id :=
    List.filter_congr fun e he => by
      obtain ⟨type, htype⟩ := hs.entryType e he
      have hthere : t.entry? e.id = some e := hs.entry?_of_mem he
      rw [← hkept ⟨e, hthere, htype⟩, Bool.eq_iff_iff, List.contains_iff_mem, hs.mem_ownedBy_iff,
        Owns, hthere]
      simp
  rw [Tables.part, Tables.discard, hentries]
  congr 1
  · exact List.filter_congr fun x hx => hkept ((hs.mem_folders x).mp hx)
  · exact List.filter_congr fun x hx => hkept ((hs.mem_tables x).mp hx)
  · exact List.filter_congr fun c hc => hkept (hs.columnTable c hc)
  · exact List.filter_congr fun r hr => hkept (hs.recordTable r hr)

/-- The entries of other organizations have everything below them among them. -/
theorem isClosed_foreign : t.IsClosed (t.foreign organization) := by
  intro e he p hp hforeign
  obtain ⟨folder, hfolder, -, howner⟩ := hs.parent e he p hp
  obtain ⟨hmem, rfl⟩ := entry?_spec hfolder
  obtain ⟨folder', hf', hid⟩ := List.mem_map.mp hforeign
  obtain ⟨hmem', hne⟩ := List.mem_filter.mp hf'
  obtain rfl := List.inj_on_of_nodup_map hs.entries_nodup hmem hmem' hid.symm
  refine List.mem_map_of_mem (List.mem_filter.mpr ⟨he, ?_⟩)
  rwa [← howner]

/-- **Parts of sound tables are sound.** -/
theorem part (organization : Uuid) : (t.part organization).Sound := by
  rw [hs.part_eq_discard]
  refine (hs.discard hs.isClosed_foreign).setOrganizations
    (hs.organizations_nodup.sublist (List.filter_sublist.map _)) fun e he => ?_
  have he' : e ∈ (t.part organization).entries := by
    rw [hs.part_eq_discard]
    exact he
  obtain ⟨hmem, howner⟩ := List.mem_filter.mp he'
  obtain ⟨o, ho⟩ := hs.owner e hmem
  obtain ⟨-, hid⟩ := organization?_spec ho
  refine ⟨o, ?_⟩
  rw [find?_key_filter hs.organizations_nodup]
  rw [organization?] at ho
  rw [ho, Option.filter_some_pos (by rw [hid]; exact howner)]

/-! ### Reading a part -/

theorem organization?_part : (t.part organization).organization? organization =
    t.organization? organization := by
  have hfind : (t.part organization).organization? organization =
      (t.organization? organization).filter fun o => o.id == organization :=
    find?_key_filter hs.organizations_nodup _
  rw [hfind]
  cases ho : t.organization? organization with
  | none => rfl
  | some o => exact Option.filter_some_pos (beq_iff_eq.mpr (organization?_spec ho).2)

theorem entry?_part (h : t.Owns organization id) :
    Tables.entry? (t.part organization) id = t.entry? id := by
  obtain ⟨e, he, howner⟩ := h
  have hfind : Tables.entry? (t.part organization) id =
      (t.entry? id).filter fun e => e.organizationId == organization :=
    find?_key_filter hs.entries_nodup _
  rw [hfind, he]
  exact Option.filter_some_pos (beq_iff_eq.mpr howner)

omit hs in
theorem children_part (parent : Option Uuid) :
    (t.part organization).children organization parent = t.children organization parent :=
  filter_filter_of_imp fun _ _ h => (Bool.and_eq_true_iff.mp h).1

theorem columnsOf_part (h : t.Owns organization table) :
    (t.part organization).columnsOf table = t.columnsOf table :=
  columnsOf_congr (filter_filter_of_imp fun c _ hc => by
    rw [beq_iff_eq.mp hc]
    exact List.contains_iff_mem.mpr (hs.mem_ownedBy_iff.mpr h))

theorem recordsOf_part (h : t.Owns organization table) :
    (t.part organization).recordsOf table = t.recordsOf table :=
  filter_filter_of_imp fun r _ hr => by
    rw [beq_iff_eq.mp hr]
    exact List.contains_iff_mem.mpr (hs.mem_ownedBy_iff.mpr h)

/-- What an entry stands in belongs to the same organization. -/
theorem owns_parent {e : EntryRow} (he : t.entry? id = some e)
    (howner : e.organizationId = organization) :
    ∀ p, e.parent = some p → t.Owns organization p := by
  intro p hp
  obtain ⟨folder, hfolder, -, hsame⟩ := hs.parent e (entry?_spec he).1 p hp
  exact ⟨folder, hfolder, hsame.trans howner⟩

/-- The path of what an organization owns leads through what it owns. -/
theorem pathTo_part {parent : Option Uuid} (h : ∀ p, parent = some p → t.Owns organization p) :
    (t.part organization).pathTo parent = t.pathTo parent := by
  cases parent with
  | none => rfl
  | some p =>
    obtain ⟨e, he, howner⟩ := h p rfl
    obtain ⟨chain, hchain⟩ := hs.exists_ascent he
    clear h
    induction hchain generalizing e with
    | @root p hp =>
      obtain ⟨type, htype, -⟩ := hs.readEntry_of_some he
      have hthere : Tables.entry? (t.part organization) p = some e :=
        (hs.entry?_part ⟨e, he, howner⟩).trans he
      obtain ⟨e', he', hparent⟩ := parentOf?_eq_some.mp hp
      obtain rfl := Option.some_inj.mp (he.symm.trans he')
      rw [hs.pathTo_some he htype, (hs.part organization).pathTo_some hthere htype, hparent]
      rfl
    | @up p above chain hp _ ih =>
      obtain ⟨type, htype, -⟩ := hs.readEntry_of_some he
      have hthere : Tables.entry? (t.part organization) p = some e :=
        (hs.entry?_part ⟨e, he, howner⟩).trans he
      obtain ⟨e', he', hparent⟩ := parentOf?_eq_some.mp hp
      obtain rfl := Option.some_inj.mp (he.symm.trans he')
      obtain ⟨folder, hfolder, hsame⟩ := hs.owns_parent he howner above hparent
      rw [hs.pathTo_some he htype, (hs.part organization).pathTo_some hthere htype, hparent,
        ih folder hfolder hsame]

theorem readOrganization_part : (t.part organization).readOrganization organization =
    t.readOrganization organization := by
  rw [readOrganization, hs.organization?_part, readOrganization]

theorem readEntry_part (h : t.Owns organization id) :
    (t.part organization).readEntry id = t.readEntry id := by
  rw [readEntry, Database.entryRow?, hs.entry?_part h, readEntry, Database.entryRow?]

theorem readFolder_part (h : t.Owns organization id) :
    (t.part organization).readFolder id = t.readFolder id := by
  rw [readFolder, hs.readEntry_part h, readFolder]

theorem readTable_part (h : t.Owns organization table) :
    (t.part organization).readTable table = t.readTable table := by
  rw [readTable, hs.readEntry_part h, readTable]

theorem readColumns_part (h : t.Owns organization table) :
    (t.part organization).readColumns table = t.readColumns table := by
  rw [readColumns, hs.columnsOf_part h, readColumns]

theorem readWhole_part (h : t.Owns organization id) (path : Bool) :
    (t.part organization).readWhole id path = t.readWhole id path := by
  obtain ⟨e, he, howner⟩ := h
  obtain ⟨type, -, hread⟩ := hs.readEntry_of_some he
  have hcolumns : (t.part organization).withColumns (e.reread.entity type) =
      t.withColumns (e.reread.entity type) := by
    obtain ⟨-, rfl⟩ := entry?_spec he
    have hown : t.Owns organization (e.reread.entity type).id := ⟨e, he, howner⟩
    rw [withColumns, withColumns, hs.readColumns_part hown]
  obtain ⟨whole, hwhole⟩ := hs.withColumns_ok (e.reread.entity type)
  have hpath : (t.part organization).pathTo whole.parent = t.pathTo whole.parent := by
    have hparent : whole.parent = e.parent := (withColumns_same hwhole).2
    rw [hparent]
    exact hs.pathTo_part (hs.owns_parent he howner)
  simp only [readWhole, hs.readEntry_part ⟨e, he, howner⟩, hread, bind, Except.bind, hcolumns,
    hwhole, hpath]

end Sound

end TableStore.Tables
