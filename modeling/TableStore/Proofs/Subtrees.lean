import TableStore.Proofs.Cascade
import TableStore.Proofs.Changes

/-!
# What goes with an entry or an organization

In sound tables foreign keys make a tree: an entry refers to the marker of its folder, a marker to
its entry, so that two references lead from an entry to its parent. What goes with an entry are the
rows that belong to it (`Tables.BelongsTo`) and to the entries below it
(`Tables.Sound.goesWith_entry`), and what goes with an organization those that belong to its entries
(`Tables.Sound.goesWith_organization`).

Hence a deletion takes a subtree out (`Tables.Sound.delete_entry_ok`), or an organization with all
it owns (`Tables.Sound.delete_organization_ok`), and it fails exactly where entries are nested too
deep (`Tables.TooDeep`, `Tables.TooDeepWithin`).
-/

namespace TableStore.Tables

variable {t t' : Tables} {id a b other : Uuid} {x y : RowId} {n : Nat} {gone : List RowId}

/-! ### References in sound tables -/

/-- The references that there are. -/
theorem refersTo_iff : t.RefersTo x y ↔
    (∃ e ∈ t.entries, x = ⟨.entry, e.id⟩ ∧ y = ⟨.organization, e.organizationId⟩) ∨
    (∃ e ∈ t.entries, ∃ p, e.parent = some p ∧ x = ⟨.entry, e.id⟩ ∧ y = ⟨.folder, p⟩) ∨
    (∃ id ∈ t.folders, x = ⟨.folder, id⟩ ∧ y = ⟨.entry, id⟩) ∨
    (∃ id ∈ t.tables, x = ⟨.table, id⟩ ∧ y = ⟨.entry, id⟩) ∨
    (∃ c ∈ t.columns, x = ⟨.column, c.id⟩ ∧ y = ⟨.table, c.tableId⟩) ∨
    ∃ r ∈ t.records, x = ⟨.record, r.id⟩ ∧ y = ⟨.table, r.tableId⟩ := by
  obtain ⟨xkind, x⟩ := x
  obtain ⟨ykind, y⟩ := y
  constructor
  · rintro ⟨key, rfl, rfl, hmem⟩
    cases key <;> simp [referring, ForeignKey.source, ForeignKey.target] at hmem ⊢ <;> grind
  · rintro (⟨e, he, hx, hy⟩ | ⟨e, he, p, hp, hx, hy⟩ | ⟨id, hid, hx, hy⟩ | ⟨id, hid, hx, hy⟩ |
      ⟨c, hc, hx, hy⟩ | ⟨r, hr, hx, hy⟩) <;> cases hx <;> cases hy
    · exact ⟨.entryOrganization, rfl, rfl, List.mem_map_of_mem (by simp [he])⟩
    · exact ⟨.entryParent, rfl, rfl, List.mem_map_of_mem (by simp [he, hp])⟩
    · exact ⟨.folderEntry, rfl, rfl, by simp [referring, hid]⟩
    · exact ⟨.tableEntry, rfl, rfl, by simp [referring, hid]⟩
    · exact ⟨.columnTable, rfl, rfl, List.mem_map_of_mem (by simp [hc])⟩
    · exact ⟨.recordTable, rfl, rfl, List.mem_map_of_mem (by simp [hr])⟩

/-- The row is the entry, its marker, or a column or a record of its table. -/
inductive BelongsTo (t : Tables) : RowId → Uuid → Prop where
  | entry (id : Uuid) : BelongsTo t ⟨.entry, id⟩ id
  | folder {id : Uuid} (h : id ∈ t.folders) : BelongsTo t ⟨.folder, id⟩ id
  | table {id : Uuid} (h : id ∈ t.tables) : BelongsTo t ⟨.table, id⟩ id
  | column {c : ColumnRow} (h : c ∈ t.columns) : BelongsTo t ⟨.column, c.id⟩ c.tableId
  | record {r : RecordRow} (h : r ∈ t.records) : BelongsTo t ⟨.record, r.id⟩ r.tableId

@[simp]
theorem belongsTo_entry : t.BelongsTo ⟨.entry, id⟩ a ↔ a = id := by
  constructor
  · rintro ⟨⟩
    rfl
  · rintro rfl
    exact .entry a

@[simp]
theorem belongsTo_folder : t.BelongsTo ⟨.folder, id⟩ a ↔ a = id ∧ id ∈ t.folders := by
  constructor
  · rintro ⟨⟩
    exact ⟨rfl, ‹_›⟩
  · rintro ⟨rfl, hid⟩
    exact .folder hid

@[simp]
theorem belongsTo_table : t.BelongsTo ⟨.table, id⟩ a ↔ a = id ∧ id ∈ t.tables := by
  constructor
  · rintro ⟨⟩
    exact ⟨rfl, ‹_›⟩
  · rintro ⟨rfl, hid⟩
    exact .table hid

theorem belongsTo_column :
    t.BelongsTo ⟨.column, id⟩ a ↔ ∃ c ∈ t.columns, c.id = id ∧ c.tableId = a := by
  constructor
  · rintro ⟨⟩
    exact ⟨_, ‹_›, rfl, rfl⟩
  · rintro ⟨c, hc, rfl, rfl⟩
    exact .column hc

theorem belongsTo_record :
    t.BelongsTo ⟨.record, id⟩ a ↔ ∃ r ∈ t.records, r.id = id ∧ r.tableId = a := by
  constructor
  · rintro ⟨⟩
    exact ⟨_, ‹_›, rfl, rfl⟩
  · rintro ⟨r, hr, rfl, rfl⟩
    exact .record hr

/-- How far a row that keys can refer to stands from a root: an entry two references below its
parent, and a marker one below its entry. -/
def rank (t : Tables) (x : RowId) : Nat :=
  match x.kind with
  | .entry => 2 * (t.ancestry x.id).length
  | _ => 2 * (t.ancestry x.id).length + 1

namespace Sound

variable (hs : t.Sound)
include hs

/-- A child stands one step above its parent on its way up. -/
theorem ancestry_of_isChildOf (h : t.IsChildOf a b) : t.ancestry a = a :: t.ancestry b := by
  obtain ⟨e, he, -⟩ := parentOf?_eq_some.mp h
  obtain ⟨chain, hchain⟩ := hs.exists_ascent he
  cases hchain with
  | root hp => rw [IsChildOf, hp] at h; simp at h
  | up hp above =>
    rw [IsChildOf, hp] at h
    obtain rfl := Option.some_inj.mp (Option.some_inj.mp h)
    rw [above.ancestry_eq, (Ascent.up hp above).ancestry_eq]

theorem isChildOf_of_mem {e : EntryRow} (he : e ∈ t.entries) {p : Uuid} (hp : e.parent = some p) :
    t.IsChildOf e.id p :=
  parentOf?_eq_some.mpr ⟨e, hs.entry?_of_mem he, hp⟩

theorem ranked : t.Ranked t.rank where
  unique := by
    intro x y z hx hxy hxz hy hz
    obtain ⟨e, he, rfl, rfl⟩ | ⟨e, he, p, hp, rfl, rfl⟩ | ⟨id, -, rfl, rfl⟩ | ⟨id, -, rfl, rfl⟩ |
      ⟨c, -, rfl, -⟩ | ⟨r, -, rfl, -⟩ := refersTo_iff.mp hxy
    · exact absurd rfl hy
    · obtain ⟨f, -, -, rfl⟩ | ⟨f, hf, q, hq, hfe, rfl⟩ | ⟨_, -, hf, -⟩ | ⟨_, -, hf, -⟩ |
        ⟨_, -, hf, -⟩ | ⟨_, -, hf, -⟩ := refersTo_iff.mp hxz
      · exact absurd rfl hz
      · have hid : e.id = f.id := (RowId.mk.inj hfe).2
        have hchild := hs.isChildOf_of_mem hf hq
        rw [← hid, IsChildOf, hs.isChildOf_of_mem he hp] at hchild
        rw [Option.some_inj.mp (Option.some_inj.mp hchild)]
      all_goals cases hf
    · obtain ⟨f, -, hf, -⟩ | ⟨f, -, _, -, hf, -⟩ | ⟨other, -, hf, rfl⟩ | ⟨_, -, hf, -⟩ |
        ⟨_, -, hf, -⟩ | ⟨_, -, hf, -⟩ := refersTo_iff.mp hxz <;> cases hf
      rfl
    · obtain ⟨f, -, hf, -⟩ | ⟨f, -, _, -, hf, -⟩ | ⟨_, -, hf, -⟩ | ⟨other, -, hf, rfl⟩ |
        ⟨_, -, hf, -⟩ | ⟨_, -, hf, -⟩ := refersTo_iff.mp hxz <;> cases hf
      rfl
    · exact absurd (RowKind.referrers_eq_nil.mpr (.inl rfl)) hx
    · exact absurd (RowKind.referrers_eq_nil.mpr (.inr rfl)) hx
  rank := by
    intro x y hx hxy hy
    obtain ⟨e, -, rfl, rfl⟩ | ⟨e, he, p, hp, rfl, rfl⟩ | ⟨id, -, rfl, rfl⟩ | ⟨id, -, rfl, rfl⟩ |
      ⟨c, -, rfl, -⟩ | ⟨r, -, rfl, -⟩ := refersTo_iff.mp hxy
    · exact absurd rfl hy
    · simp only [rank, hs.ancestry_of_isChildOf (hs.isChildOf_of_mem he hp), List.length_cons]
      omega
    · rfl
    · rfl
    · exact absurd (RowKind.referrers_eq_nil.mpr (.inl rfl)) hx
    · exact absurd (RowKind.referrers_eq_nil.mpr (.inr rfl)) hx

/-! ### What goes with what -/

/-- An entry goes with the entries above it. -/
theorem goesWith_of_atOrBelow (h : t.AtOrBelow a b) :
    t.GoesWith ⟨.entry, a⟩ ⟨.entry, b⟩ := by
  induction h with
  | refl => exact .refl
  | tail _ hchild ih =>
    obtain ⟨e, he, hparent⟩ := parentOf?_eq_some.mp hchild
    obtain ⟨hmem, rfl⟩ := entry?_spec he
    obtain ⟨folder, hfolder, htype, -⟩ := hs.parent e hmem _ hparent
    have hmarker := (hs.mem_folders _).mpr ⟨folder, hfolder, htype⟩
    exact (ih.tail (refersTo_iff.mpr (.inr (.inl ⟨e, hmem, _, hparent, rfl, rfl⟩)))).tail
      (refersTo_iff.mpr (.inr (.inr (.inl ⟨_, hmarker, rfl, rfl⟩))))

/-- What belongs to an entry goes with it. -/
theorem goesWith_of_belongsTo (h : t.BelongsTo x a) : t.GoesWith x ⟨.entry, a⟩ := by
  have htable : ∀ {table : Uuid}, t.IsEntry table .table →
      t.RefersTo ⟨.table, table⟩ ⟨.entry, table⟩ := fun h =>
    refersTo_iff.mpr (.inr (.inr (.inr (.inl ⟨_, (hs.mem_tables _).mpr h, rfl, rfl⟩))))
  cases h with
  | entry => exact .refl
  | folder h => exact .single (refersTo_iff.mpr (.inr (.inr (.inl ⟨a, h, rfl, rfl⟩))))
  | table h => exact .single (htable ((hs.mem_tables a).mp h))
  | column h =>
    exact (Relation.ReflTransGen.single (refersTo_iff.mpr
      (.inr (.inr (.inr (.inr (.inl ⟨_, h, rfl, rfl⟩))))))).tail (htable (hs.columnTable _ h))
  | record h =>
    exact (Relation.ReflTransGen.single (refersTo_iff.mpr
      (.inr (.inr (.inr (.inr (.inr ⟨_, h, rfl, rfl⟩))))))).tail (htable (hs.recordTable _ h))

/-- What goes with something that belongs to an entry belongs to it or to an entry below it. -/
theorem belongsTo_of_goesWith (h : t.GoesWith x y) (hy : t.BelongsTo y b) :
    ∃ a, t.BelongsTo x a ∧ t.AtOrBelow a b := by
  induction h using Relation.ReflTransGen.head_induction_on with
  | refl => exact ⟨b, hy, .refl⟩
  | head hxz _ ih =>
    obtain ⟨a, hz, hbelow⟩ := ih
    obtain ⟨e, -, rfl, rfl⟩ | ⟨e, he, p, hp, rfl, rfl⟩ | ⟨id, hid, rfl, rfl⟩ | ⟨id, hid, rfl, rfl⟩ |
      ⟨c, hc, rfl, rfl⟩ | ⟨r, hr, rfl, rfl⟩ := refersTo_iff.mp hxz <;> cases hz
    · exact ⟨e.id, .entry e.id, .head (hs.isChildOf_of_mem he hp) hbelow⟩
    · exact ⟨_, .folder hid, hbelow⟩
    · exact ⟨_, .table hid, hbelow⟩
    · exact ⟨_, .column hc, hbelow⟩
    · exact ⟨_, .record hr, hbelow⟩

/-- **What goes with an entry** belongs to it or to an entry below it. -/
theorem goesWith_entry : t.GoesWith x ⟨.entry, id⟩ ↔ ∃ a, t.BelongsTo x a ∧ t.AtOrBelow a id :=
  ⟨fun h => hs.belongsTo_of_goesWith h (.entry id), fun ⟨_, hx, hbelow⟩ =>
    (hs.goesWith_of_belongsTo hx).trans (hs.goesWith_of_atOrBelow hbelow)⟩

/-- **What goes with an organization** belongs to one of its entries. -/
theorem goesWith_organization : t.GoesWith x ⟨.organization, id⟩ ↔
    x = ⟨.organization, id⟩ ∨ ∃ a ∈ t.ownedBy id, t.BelongsTo x a := by
  constructor
  · intro h
    rcases Relation.ReflTransGen.cases_tail h with h | ⟨y, hxy, hy⟩
    · exact .inl h.symm
    · obtain ⟨e, he, rfl, howner⟩ | ⟨_, -, _, -, -, hy⟩ | ⟨_, -, -, hy⟩ | ⟨_, -, -, hy⟩ |
        ⟨_, -, -, hy⟩ | ⟨_, -, -, hy⟩ := refersTo_iff.mp hy
      · obtain ⟨a, hx, hbelow⟩ := hs.goesWith_entry.mp hxy
        refine .inr ⟨a, hs.mem_ownedBy_of_atOrBelow hbelow (mem_ownedBy.mpr ⟨e, he, rfl, ?_⟩), hx⟩
        exact (RowId.mk.inj howner).2.symm
      all_goals cases hy
  · rintro (rfl | ⟨a, ha, hx⟩)
    · exact .refl
    · obtain ⟨e, he, rfl, rfl⟩ := mem_ownedBy.mp ha
      exact (hs.goesWith_of_belongsTo hx).tail (refersTo_iff.mpr (.inl ⟨e, he, rfl, rfl⟩))

/-- Taking out all that belongs to some entries is taking out these entries. -/
theorem without_eq_discard (ids : List Uuid)
    (h : ∀ x : RowId, x.kind ≠ .organization → (x ∈ gone ↔ ∃ a ∈ ids, t.BelongsTo x a)) :
    t.without gone = { t.discard ids with
      organizations := t.organizations.filter fun o => ⟨.organization, o.id⟩ ∉ gone } := by
  have hentry : ∀ id, ⟨.entry, id⟩ ∈ gone ↔ id ∈ ids := fun id => by
    simp [h ⟨.entry, id⟩ nofun]
  have hfolder : ∀ id ∈ t.folders, ⟨.folder, id⟩ ∈ gone ↔ id ∈ ids := fun id hid => by
    simp [h ⟨.folder, id⟩ nofun, hid]
  have htable : ∀ id ∈ t.tables, ⟨.table, id⟩ ∈ gone ↔ id ∈ ids := fun id hid => by
    simp [h ⟨.table, id⟩ nofun, hid]
  have hcolumn : ∀ c ∈ t.columns, ⟨.column, c.id⟩ ∈ gone ↔ c.tableId ∈ ids := fun c hc => by
    rw [h ⟨.column, c.id⟩ nofun]
    refine ⟨?_, fun hmem => ⟨_, hmem, .column hc⟩⟩
    rintro ⟨a, ha, hbelongs⟩
    obtain ⟨d, hd, hid, rfl⟩ := belongsTo_column.mp hbelongs
    rwa [← List.inj_on_of_nodup_map hs.columns_nodup hd hc hid]
  have hrecord : ∀ r ∈ t.records, ⟨.record, r.id⟩ ∈ gone ↔ r.tableId ∈ ids := fun r hr => by
    rw [h ⟨.record, r.id⟩ nofun]
    refine ⟨?_, fun hmem => ⟨_, hmem, .record hr⟩⟩
    rintro ⟨a, ha, hbelongs⟩
    obtain ⟨q, hq, hid, rfl⟩ := belongsTo_record.mp hbelongs
    rwa [← List.inj_on_of_nodup_map hs.records_nodup hq hr hid]
  simp only [without, Tables.mk.injEq, true_and]
  refine ⟨?_, ?_, ?_, ?_, ?_⟩
  · exact List.filter_congr fun e _ => by simp [hentry]
  · exact List.filter_congr fun id hid => by simp [hfolder id hid]
  · exact List.filter_congr fun id hid => by simp [htable id hid]
  · exact List.filter_congr fun c hc => by simp [hcolumn c hc]
  · exact List.filter_congr fun r hr => by simp [hrecord r hr]

end Sound

/-! ### How deep entries are nested -/

/-- The first entry stands so many levels below the second one. -/
inductive LevelsBelow (t : Tables) : Nat → Uuid → Uuid → Prop where
  | refl (id : Uuid) : LevelsBelow t 0 id id
  | up {n : Nat} {child parent above : Uuid} (h : t.IsChildOf child parent)
      (hup : LevelsBelow t n parent above) : LevelsBelow t (n + 1) child above

/-- Entries below an entry are nested too deep to be deleted with it. -/
def TooDeep (t : Tables) (id : Uuid) : Prop :=
  ∃ x, t.LevelsBelow 500 x id

/-- Entries of an organization are nested too deep to be deleted with it. It deletes its entries as
they are stored, so an entry goes with the first one on its way up. -/
def TooDeepWithin (t : Tables) (organization : Uuid) : Prop :=
  ∃ x first, first ∈ t.ownedBy organization ∧ t.LevelsBelow 499 x first ∧
    ∀ y, t.AtOrBelow x y → (t.ownedBy organization).idxOf first ≤ (t.ownedBy organization).idxOf y

theorem LevelsBelow.atOrBelow (h : t.LevelsBelow n a b) : t.AtOrBelow a b := by
  induction h with
  | refl => exact .refl
  | up h _ ih => exact .head h ih

namespace Sound

variable (hs : t.Sound)
include hs

/-- From an entry to its parent there are two references. -/
theorem refersIn_of_levelsBelow (h : t.LevelsBelow n a b) :
    t.RefersIn (2 * n) ⟨.entry, a⟩ ⟨.entry, b⟩ := by
  induction h with
  | refl => exact .refl _
  | up hchild _ ih =>
    obtain ⟨e, he, hparent⟩ := parentOf?_eq_some.mp hchild
    obtain ⟨hmem, rfl⟩ := entry?_spec he
    obtain ⟨folder, hfolder, htype, -⟩ := hs.parent e hmem _ hparent
    have hmarker := (hs.mem_folders _).mpr ⟨folder, hfolder, htype⟩
    exact (ih.head (refersTo_iff.mpr (.inr (.inr (.inl ⟨_, hmarker, rfl, rfl⟩))))).head
      (refersTo_iff.mpr (.inr (.inl ⟨e, hmem, _, hparent, rfl, rfl⟩)))

/-- A row that keys can refer to is an entry or a marker, by how far it is from an entry. -/
theorem levelsBelow_of_refersIn (hx : x.kind.referrers ≠ []) (h : t.RefersIn n x ⟨.entry, b⟩) :
    t.LevelsBelow (n / 2) x.id b ∧ (x.kind = .entry ↔ n % 2 = 0) ∧
      t.GoesWith x ⟨.entry, x.id⟩ := by
  induction n generalizing x with
  | zero =>
    cases h
    exact ⟨.refl b, by simp, .refl⟩
  | succ n ih =>
    obtain ⟨y, hxy, hy⟩ := h.exists_head
    obtain ⟨hbelow, heven, -⟩ := ih hxy.referrers_ne_nil hy
    obtain ⟨e, -, -, rfl⟩ | ⟨e, he, p, hp, rfl, rfl⟩ | ⟨id, -, rfl, rfl⟩ | ⟨id, -, rfl, rfl⟩ |
      ⟨c, -, rfl, -⟩ | ⟨r, -, rfl, -⟩ := refersTo_iff.mp hxy
    · exact absurd rfl (kind_ne_of_goesWith hy.goesWith nofun)
    · have hodd : n % 2 = 1 := by simpa using heven
      rw [show (n + 1) / 2 = n / 2 + 1 by omega]
      exact ⟨.up (hs.isChildOf_of_mem he hp) hbelow, by simp; omega, .refl⟩
    · have hn : n % 2 = 0 := heven.mp rfl
      rw [show (n + 1) / 2 = n / 2 by omega]
      exact ⟨hbelow, by simp; omega, .single hxy⟩
    · have hn : n % 2 = 0 := heven.mp rfl
      rw [show (n + 1) / 2 = n / 2 by omega]
      exact ⟨hbelow, by simp; omega, .single hxy⟩
    · exact absurd (RowKind.referrers_eq_nil.mpr (.inl rfl)) hx
    · exact absurd (RowKind.referrers_eq_nil.mpr (.inr rfl)) hx

/-- Every entry has a marker, which goes with no other entry directly. -/
theorem exists_marker (ha : (t.entry? a).isSome) :
    ∃ kind : RowKind, kind.referrers ≠ [] ∧ t.RefersTo ⟨kind, a⟩ ⟨.entry, a⟩ ∧
      ∀ b, t.BelongsTo ⟨kind, a⟩ b → b = a := by
  obtain ⟨e, he⟩ := Option.isSome_iff_exists.mp ha
  obtain ⟨type, htype⟩ := hs.entryType e (entry?_spec he).1
  cases type with
  | folder =>
    have hmarker := (hs.mem_folders a).mpr ⟨e, he, htype⟩
    exact ⟨.folder, by decide, refersTo_iff.mpr (.inr (.inr (.inl ⟨a, hmarker, rfl, rfl⟩))),
      fun b hb => (belongsTo_folder.mp hb).1⟩
  | table =>
    have hmarker := (hs.mem_tables a).mpr ⟨e, he, htype⟩
    exact ⟨.table, by decide, refersTo_iff.mpr (.inr (.inr (.inr (.inl ⟨a, hmarker, rfl, rfl⟩)))),
      fun b hb => (belongsTo_table.mp hb).1⟩

end Sound

/-! ### Deletions -/

namespace Sound

variable (hs : t.Sound)
include hs

/-- **The cascade from an entry takes its subtree out.** -/
theorem delete_entry_ok (hid : (t.entry? id).isSome) (h : t.delete .entry id = .ok t') :
    t' = t.discard (t.subtree id) := by
  obtain ⟨e, he⟩ := Option.isSome_iff_exists.mp hid
  obtain ⟨gone, rfl, hgone⟩ := mem_gone_iff_of_cascade h
    (List.mem_map.mpr ⟨e, entry?_spec he⟩)
  rw [hs.without_eq_discard (t.subtree id) fun x _ => ?_]
  · have hstays : ∀ o ∈ t.organizations, ⟨.organization, o.id⟩ ∉ gone := fun o _ hmem =>
      kind_ne_of_goesWith ((hgone _).mp hmem) nofun rfl
    rw [List.filter_eq_self.mpr fun o ho => by simpa using hstays o ho]
    rfl
  · rw [hgone, hs.goesWith_entry]
    refine exists_congr fun a => ?_
    rw [hs.mem_subtree, and_comm]
    exact and_congr_left fun _ => ⟨fun h => ⟨AtOrBelow.isSome h hid, h⟩, And.right⟩

/-- The cascade from an entry does not fail unless it has to. -/
theorem not_tooDeep_of_ok (hid : (t.entry? id).isSome) (h : t.delete .entry id = .ok t') :
    ¬ t.TooDeep id := by
  rintro ⟨a, hbelow⟩
  obtain ⟨e, he⟩ := Option.isSome_iff_exists.mp hid
  exact absurd (hs.ranked.lt_of_cascade_ok h (List.mem_map.mpr ⟨e, entry?_spec he⟩) nofun
    (by simp [RowKind.referrers_eq_nil]) (hs.refersIn_of_levelsBelow hbelow)) (by decide)

theorem tooDeep_of_error {fault : EngineFault} (h : t.delete .entry id = .error fault) :
    fault = .tooManyLevels ∧ t.TooDeep id := by
  obtain ⟨hfault, x, hx, -, hway⟩ := cascade_error h
  exact ⟨hfault, x.id, (hs.levelsBelow_of_refersIn hx hway).1⟩

/-- **An entry can be deleted unless entries below it are nested too deep**, and takes its subtree
with it. -/
theorem delete_entry (hid : (t.entry? id).isSome) :
    (t.TooDeep id ∧ t.delete .entry id = .error .tooManyLevels) ∨
      (¬ t.TooDeep id ∧ t.delete .entry id = .ok (t.discard (t.subtree id))) := by
  cases h : t.delete .entry id with
  | ok t' => exact .inr ⟨hs.not_tooDeep_of_ok hid h, by rw [hs.delete_entry_ok hid h]⟩
  | error fault =>
    obtain ⟨rfl, hdeep⟩ := hs.tooDeep_of_error h
    exact .inl ⟨hdeep, rfl⟩

/-- **The cascade from an organization takes out all it owns.** -/
theorem delete_organization_ok (hid : (t.organization? id).isSome)
    (h : t.delete .organization id = .ok t') : t' = t.withoutOrganization id := by
  obtain ⟨o, ho⟩ := Option.isSome_iff_exists.mp hid
  obtain ⟨gone, rfl, hgone⟩ := mem_gone_iff_of_cascade h
    (List.mem_map.mpr ⟨o, organization?_spec ho⟩)
  rw [hs.without_eq_discard (t.ownedBy id) fun x hx => ?_]
  · have howner : ∀ o : Organization, ⟨.organization, o.id⟩ ∈ gone ↔ o.id = id := fun o => by
      rw [hgone]
      refine ⟨fun h => ?_, fun h => h ▸ .refl⟩
      rcases Relation.ReflTransGen.cases_head h with h | ⟨y, hy, -⟩
      · exact (RowId.mk.inj h).2
      · exact absurd rfl hy.kind_ne
    simp only [howner]
    rw [Tables.withoutOrganization, List.filter_congr fun o _ => ?_]
    simp [bne, beq_eq_decide]
  · rw [hgone, hs.goesWith_organization, or_iff_right]
    rintro rfl
    exact hx rfl

end Sound

/-- The entries of an organization are deleted once it has gone itself, as they are stored. -/
theorem delete_organization_eq (hid : (t.organization? id).isSome) :
    t.delete .organization id =
      (t.ownedBy id).foldlM (cascade 999 .entry) (t.without [⟨.organization, id⟩]) := by
  obtain ⟨o, ho⟩ := Option.isSome_iff_exists.mp hid
  have hmem : id ∈ t.ids .organization := List.mem_map.mpr ⟨o, organization?_spec ho⟩
  have hkeys : RowKind.referrers .organization = [.entryOrganization] := by decide
  have hcascade : t.delete .organization id = cascade (999 + 1) .organization t id := rfl
  rw [hcascade, cascade, if_pos (by simpa using hmem), hkeys, List.foldlM_cons, ← erase_eq_without]
  exact bind_pure _

/-- What stands before a member of a list is met before it. -/
theorem idxOf_lt_idxOf {front back : List Uuid} (ha : a ∉ front) (hb : b ∈ front) :
    (front ++ a :: back).idxOf b < (front ++ a :: back).idxOf a := by
  rw [List.idxOf_append_of_mem hb, List.idxOf_append_of_notMem ha]
  exact Nat.lt_add_right _ (List.idxOf_lt_length_of_mem hb)

theorem idxOf_le_idxOf {front back : List Uuid} (hb : b ∉ front) :
    (front ++ a :: back).idxOf a ≤ (front ++ a :: back).idxOf b := by
  rw [List.idxOf_append_of_notMem hb]
  by_cases ha : a ∈ front
  · rw [List.idxOf_append_of_mem ha]
    exact Nat.le_add_right_of_le (List.idxOf_lt_length_of_mem ha).le
  · rw [List.idxOf_append_of_notMem ha, List.idxOf_cons_self]
    omega

/-- Nothing but itself leaves with the row of an organization. -/
theorem refersTo_without_organization :
    (t.without [⟨.organization, id⟩]).RefersTo x y ↔ t.RefersTo x y := by
  rw [refersTo_without, and_iff_left_of_imp]
  rintro h hx
  exact h.kind_ne (List.mem_singleton.mp hx ▸ rfl)

theorem goesWith_without_organization :
    (t.without [⟨.organization, id⟩]).GoesWith x y ↔ t.GoesWith x y :=
  ⟨goesWith_of_without,
    Relation.ReflTransGen.mono (fun _ _ h => refersTo_without_organization.mpr h) _ _⟩

theorem refersIn_without_organization :
    (t.without [⟨.organization, id⟩]).RefersIn n x y ↔ t.RefersIn n x y := by
  refine ⟨RefersIn.of_without, fun h => ?_⟩
  induction h with
  | refl => exact .refl _
  | tail _ hyz ih => exact ih.tail (refersTo_without_organization.mpr hyz)

theorem mem_ids_without_organization {kind : RowKind} (hkind : kind ≠ .organization)
    (h : other ∈ t.ids kind) : other ∈ (t.without [⟨.organization, id⟩]).ids kind :=
  mem_ids_without.mpr ⟨h, fun hmem => hkind (RowId.mk.inj (List.mem_singleton.mp hmem)).1⟩

namespace Sound

variable (hs : t.Sound)
include hs

/-- The cascade from an organization does not fail unless it has to. -/
theorem not_tooDeepWithin_of_ok (hid : (t.organization? id).isSome)
    (h : t.delete .organization id = .ok t') : ¬ t.TooDeepWithin id := by
  rintro ⟨a, first, howned, hbelow, hfirst⟩
  obtain ⟨e, he, hefirst, -⟩ := mem_ownedBy.mp howned
  have hmem : first ∈ t.ids .entry := List.mem_map.mpr ⟨e, he, hefirst⟩
  obtain ⟨kind, hkind, hmarker, honly⟩ := hs.exists_marker
    (AtOrBelow.isSome hbelow.atOrBelow (hefirst ▸ hs.entry?_of_mem he ▸ rfl))
  obtain ⟨front, back, hids, hfront⟩ := List.eq_append_cons_of_mem howned
  rw [delete_organization_eq hid, hids] at h
  refine absurd ((hs.ranked.without _).lt_of_rows_ok h
    (mem_ids_without_organization nofun hmem) nofun hkind
    (refersIn_without_organization.mpr ((hs.refersIn_of_levelsBelow hbelow).head hmarker))
    fun other hother hgoes => ?_) (by decide)
  -- what is stored before the first one on the way up is not on the way up
  obtain ⟨b, hb, hup⟩ := hs.goesWith_entry.mp (goesWith_without_organization.mp hgoes)
  obtain rfl := honly b hb
  have hle := hfirst other hup
  rw [hids] at hle
  exact absurd (idxOf_lt_idxOf hfront hother) (Nat.not_lt.mpr hle)

theorem tooDeepWithin_of_error {fault : EngineFault} (hid : (t.organization? id).isSome)
    (h : t.delete .organization id = .error fault) :
    fault = .tooManyLevels ∧ t.TooDeepWithin id := by
  have howned : ∀ x ∈ t.ownedBy id, x ∈ (t.without [⟨.organization, id⟩]).ids .entry :=
    fun x hx => by
      obtain ⟨e, he, hex, -⟩ := mem_ownedBy.mp hx
      exact mem_ids_without_organization nofun (List.mem_map.mpr ⟨e, he, hex⟩)
  rw [delete_organization_eq hid] at h
  obtain ⟨hfault, front, first, back, x, hids, hx, hway, hnone⟩ := rows_error howned h
  obtain ⟨hbelow, -, hself⟩ :=
    hs.levelsBelow_of_refersIn hx (refersIn_without_organization.mp hway)
  refine ⟨hfault, x.id, first, by rw [hids]; simp, hbelow, fun y hy => ?_⟩
  rw [hids]
  refine idxOf_le_idxOf fun hmem => hnone y hmem (goesWith_without_organization.mpr ?_)
  exact hself.trans (hs.goesWith_of_atOrBelow hy)

/-- **An organization can be deleted unless its entries are nested too deep**, and takes all it owns
with it. -/
theorem delete_organization (hid : (t.organization? id).isSome) :
    (t.TooDeepWithin id ∧ t.delete .organization id = .error .tooManyLevels) ∨
      (¬ t.TooDeepWithin id ∧ t.delete .organization id = .ok (t.withoutOrganization id)) := by
  cases h : t.delete .organization id with
  | ok t' =>
    exact .inr ⟨hs.not_tooDeepWithin_of_ok hid h, by rw [hs.delete_organization_ok hid h]⟩
  | error fault =>
    obtain ⟨rfl, hdeep⟩ := hs.tooDeepWithin_of_error hid h
    exact .inl ⟨hdeep, rfl⟩

end Sound
end TableStore.Tables
