import TableStore.Proofs.Browsing

/-!
# Paths

What a path is, told without the walk that computes it: it begins with what stands at a root, each
element is the parent of the next one, and the last one is the parent of the entry
(`Tables.LeadsTo`). There is one such way up, so that what stands on it are the ancestors of the
entry, each once.

**Paths lead to entries** (`Database.paths_lead_to_entries`), whether they are computed for an entry
or shown with it, and the path that a listing puts on each of the children is the one that is
computed for the child.
-/

namespace TableStore

variable {t : Tables} {id other : Uuid} {path : List PathElement}

namespace Tables

/-- A path to an entry: from a root downwards, each element the parent of what comes next. -/
inductive LeadsTo (t : Tables) : List PathElement → Uuid → Prop where
  | root {id : Uuid} (h : t.parentOf? id = some none) : LeadsTo t [] id
  | inside {path : List PathElement} {folder : PathElement} {id : Uuid}
      (above : LeadsTo t path folder.id) (h : t.parentOf? id = some (some folder.id)) :
      LeadsTo t (path ++ [folder]) id

namespace LeadsTo

/-- Read backwards, a path is the way up. -/
theorem ascent (h : t.LeadsTo path id) : t.Ascent id (id :: (path.map PathElement.id).reverse) := by
  induction h with
  | root hp => exact .root hp
  | inside _ hp ih =>
    rw [List.map_append, List.reverse_append]
    exact .up hp ih

/-- The entry and what stands above it are all different. -/
theorem nodup (h : t.LeadsTo path id) : id ∉ path.map PathElement.id ∧
    (path.map PathElement.id).Nodup := by
  obtain ⟨hid, hpath⟩ := List.nodup_cons.mp h.ascent.nodup
  exact ⟨fun hmem => hid (List.mem_reverse.mpr hmem), List.nodup_reverse.mp hpath⟩

/-- **What stands on a path are the ancestors of the entry.** -/
theorem mem_iff (h : t.LeadsTo path id) :
    other ∈ path.map PathElement.id ↔ other ≠ id ∧ t.AtOrBelow id other := by
  rw [← h.ascent.mem_iff, List.mem_cons, List.mem_reverse]
  constructor
  · intro hmem
    have hne : other ≠ id := fun heq => h.nodup.1 (heq ▸ hmem)
    exact ⟨hne, .inr hmem⟩
  · rintro ⟨hne, heq | hmem⟩
    · exact absurd heq hne
    · exact hmem

end LeadsTo

namespace Sound

variable (hs : t.Sound)
include hs

/-- What holds at the roots, and in each folder if it holds of the folder, holds of every entry: the
rows above an entry come to an end. -/
theorem parent_induction {motive : EntryRow → Prop}
    (root : ∀ row ∈ t.entries, row.parent = none → motive row)
    (below : ∀ row ∈ t.entries, ∀ folder, t.entry? folder.id = some folder →
      row.parent = some folder.id → folder.type = EntryType.folder.name →
      folder.organizationId = row.organizationId → motive folder → motive row)
    {row : EntryRow} (hrow : row ∈ t.entries) : motive row := by
  -- by induction on the way up to the root
  obtain ⟨chain, hchain⟩ := hs.rooted row hrow
  induction chain generalizing row with
  | nil => cases hchain
  | cons first above ih =>
    cases hp : row.parent with
    | none => exact root row hrow hp
    | some p =>
      obtain ⟨folder, hfolder, htype, howner⟩ := hs.parent row hrow p hp
      obtain ⟨hmem, rfl⟩ := entry?_spec hfolder
      have hparent : t.parentOf? row.id = some (some folder.id) :=
        parentOf?_eq_some.mpr ⟨row, hs.entry?_of_mem hrow, hp⟩
      have habove : t.Ascent folder.id above := by
        cases hchain with
        | root hroot => cases hroot.symm.trans hparent
        | up hup habove =>
          obtain rfl := Option.some_inj.mp (Option.some_inj.mp (hup.symm.trans hparent))
          exact habove
      exact below row hrow folder hfolder hp htype howner (ih hmem habove)

/-- The path of an entry leads to it. -/
theorem leadsTo_pathTo {row : EntryRow} (hrow : row ∈ t.entries) :
    t.LeadsTo (t.pathTo row.parent) row.id := by
  refine hs.parent_induction (motive := fun row => t.LeadsTo (t.pathTo row.parent) row.id)
    ?_ ?_ hrow
  · intro row hrow hp
    have hparent : t.parentOf? row.id = some none :=
      parentOf?_eq_some.mpr ⟨row, hs.entry?_of_mem hrow, hp⟩
    rw [hp]
    exact .root hparent
  · intro row hrow folder hfolder hp htype _ habove
    have hparent : t.parentOf? row.id = some (some folder.id) :=
      parentOf?_eq_some.mpr ⟨row, hs.entry?_of_mem hrow, hp⟩
    rw [hp, hs.pathTo_some hfolder htype]
    exact .inside habove hparent

/-- Each element of a path is a folder of the same organization, as it is stored. -/
theorem exists_of_mem_pathTo {row : EntryRow} (hrow : row ∈ t.entries) : ∀ x ∈ t.pathTo row.parent,
    ∃ folder, t.entry? x.id = some folder ∧ folder.type = EntryType.folder.name ∧
      folder.organizationId = row.organizationId ∧
      x = (folder.reread.entity .folder).toPathElement := by
  refine hs.parent_induction (motive := fun row => ∀ x ∈ t.pathTo row.parent,
    ∃ folder, t.entry? x.id = some folder ∧ folder.type = EntryType.folder.name ∧
      folder.organizationId = row.organizationId ∧
      x = (folder.reread.entity .folder).toPathElement) ?_ ?_ hrow
  · intro row _ hp x hx
    rw [hp] at hx
    cases hx
  · intro row _ folder hfolder hp htype howner ih x hx
    rw [hp, hs.pathTo_some hfolder htype, List.mem_append, List.mem_singleton] at hx
    rcases hx with hx | rfl
    · obtain ⟨above, habove, hfolder', howner', heq⟩ := ih x hx
      exact ⟨above, habove, hfolder', howner'.trans howner, heq⟩
    · exact ⟨folder, hfolder, htype, howner, rfl⟩

end Sound
end Tables

namespace Database

variable {db : Database}

/-- An entry is read as it is stored, with its path if that is asked for. -/
theorem perform_getEntry (hu : db.Usable) (hlocked : db.locked = none) {row : EntryRow}
    (hrow : row ∈ db.tables.entries) : ∃ (type : EntryType) (columns : Option (List Column)),
      row.type = type.name ∧
      (∀ env, (db.perform ⟨env, .getEntry row.id false⟩).result =
        .ok (.entry { row.reread.entity type with columns })) ∧
      ∀ env, (db.perform ⟨env, .getEntry row.id true⟩).result =
        .ok (.entry { row.reread.entity type with
          columns, path := some (db.tables.pathTo row.parent) }) := by
  obtain ⟨type, htype, hread⟩ := hu.sound.readEntry_of_some (hu.sound.entry?_of_mem hrow)
  obtain ⟨whole, hwhole⟩ := hu.sound.withColumns_ok (row.reread.entity type)
  rw [Tables.eq_of_withColumns hwhole] at hwhole
  refine ⟨type, whole.columns, htype, fun env => ?_, fun env => ?_⟩
  all_goals
    rw [perform_eq hu hlocked, Operation.meaning, Tables.readWhole, bind_of_ok hread rfl]
    rw [bind_of_ok hwhole rfl]
    rfl

/-- **Paths lead to entries.** Whatever has been called before, the path of an entry is computed,
and is what the entry is shown with: it leads from a root down to the entry, over all its ancestors
and each of them once. What stands on it are folders of the entry's organization, told as they are
read now. And wherever a listing with paths shows a child, the child has the path that is computed
for it. -/
theorem paths_lead_to_entries (history : List Call) :
    let db := fresh.after history
    (∀ row ∈ db.tables.entries, ∃ (entry : Entry) (path : List PathElement),
      (∀ env, (db.perform ⟨env, .computePath row.id⟩).result = .ok (.path path)) ∧
      (∀ env, (db.perform ⟨env, .getEntry row.id false⟩).result = .ok (.entry entry)) ∧
      (∀ env, (db.perform ⟨env, .getEntry row.id true⟩).result =
        .ok (.entry { entry with path := some path })) ∧
      db.tables.LeadsTo path row.id ∧ (path.map PathElement.id).Nodup ∧
      (∀ id, id ∈ path.map PathElement.id ↔ id ≠ row.id ∧ db.tables.AtOrBelow row.id id) ∧
      ∀ x ∈ path, x.type = .folder ∧ ∃ folder : Entry, folder.toPathElement = x ∧
        folder.organizationId = entry.organizationId ∧
        ∀ env, (db.perform ⟨env, .getEntry x.id false⟩).result = .ok (.entry folder)) ∧
    ∀ (env : Surroundings) (parent : Parent) (sort : List String) (offset : Nat)
      (limit : Option Nat) (page : ChildrenPage),
      (db.perform ⟨env, .listChildren parent sort offset limit true⟩).result = .ok (.page page) →
      ∀ child ∈ page.entries, ∃ path, child.path = some path ∧
        ∀ env, (db.perform ⟨env, .computePath child.id⟩).result = .ok (.path path) := by
  intro db
  have hu : db.Usable := usable_after history
  have hlocked : db.locked = none := locked_after history
  constructor
  · intro row hrow
    obtain ⟨type, columns, -, hplain, hpath⟩ := perform_getEntry hu hlocked hrow
    have hleads := hu.sound.leadsTo_pathTo hrow
    refine ⟨_, _, perform_computePath hu hlocked hrow, hplain, hpath, hleads, hleads.nodup.2,
      fun id => hleads.mem_iff, fun x hx => ?_⟩
    obtain ⟨folder, hfolder, htype, howner, hx⟩ := hu.sound.exists_of_mem_pathTo hrow x hx
    obtain ⟨hmem, hid⟩ := Tables.entry?_spec hfolder
    obtain ⟨type', columns', htype', hread, -⟩ := perform_getEntry hu hlocked hmem
    obtain rfl : type' = .folder := by
      refine Option.some_inj.mp ?_
      rw [← Tables.entryType_read?_name, ← htype', htype, Tables.entryType_read?_name]
    rw [hid] at hread
    exact ⟨by rw [hx]; rfl, { folder.reread.entity .folder with columns := columns' }, hx.symm,
      howner, hread⟩
  · intro env parent sort offset limit page hpage child hchild
    obtain ⟨t, hmeaning, -⟩ := meaning_of_perform hu hpage
    obtain ⟨page', hlisted, hreply, -⟩ := Operation.read_of_unchanged hmeaning
    obtain rfl := Reply.page.inj hreply
    obtain ⟨keys, size, rfl⟩ := hu.sound.listChildren_ok hlisted
    obtain ⟨row, hrow, rfl⟩ := List.mem_map.mp hchild
    have hmem : row ∈ db.tables.entries :=
      db.tables.childrenOf_subset parent
        (SortKey.mem_arrange.mp (List.mem_of_mem_drop (List.mem_of_mem_take hrow)))
    have hcomputed : ∀ env, (db.perform ⟨env, .computePath row.id⟩).result =
        .ok (.path (db.tables.pathTo row.parent)) := perform_computePath hu hlocked hmem
    exact ⟨db.tables.pathTo row.parent, rfl, hcomputed⟩

/-- A table in a folder that has been moved: it is listed with the path that is computed for it. -/
theorem path_after_a_move :
    let history : List Call :=
      [⟨.numbered 1, .createOrganization "org"⟩,
        ⟨.numbered 2, .createEntry ⟨1⟩ .folder none [] []⟩,
        ⟨.numbered 3, .createEntry ⟨1⟩ .folder none [("a", .null), ("b", .str "x")] []⟩,
        ⟨.numbered 4, .createEntry ⟨1⟩ .folder (some ⟨2⟩) [] []⟩,
        ⟨.numbered 5, .createEntry ⟨1⟩ .table (some ⟨4⟩) [] []⟩,
        ⟨.numbered 6, .moveEntry ⟨4⟩ (some ⟨3⟩)⟩]
    let db := fresh.after history
    let path : List PathElement :=
      [⟨⟨3⟩, .folder, ⟨[("b", .str "x")]⟩⟩, ⟨⟨4⟩, .folder, .empty⟩]
    (db.perform ⟨.numbered 7, .computePath ⟨5⟩⟩).result = .ok (.path path) ∧
      ∃ page child, (db.perform ⟨.numbered 7, .listChildren (.folder ⟨4⟩) [] 0 none true⟩).result =
        .ok (.page page) ∧ page.entries = [child] ∧ child.path = some path := by
  intro history db path
  have hpath : (db.perform ⟨.numbered 7, .computePath ⟨5⟩⟩).result = .ok (.path path) := by
    decide +kernel
  let table : Entry := ⟨⟨5⟩, ⟨1⟩, some ⟨4⟩, .table, .empty, ⟨0⟩, ⟨0⟩, some path, none⟩
  have hpage : ∃ page child, (db.perform ⟨.numbered 7, .listChildren (.folder ⟨4⟩) [] 0 none
      true⟩).result = .ok (.page page) ∧ page.entries = [child] ∧ child.id = ⟨5⟩ :=
    ⟨⟨[table], 1⟩, table, by decide +kernel, rfl, rfl⟩
  obtain ⟨page, child, hresult, hentries, hid⟩ := hpage
  obtain ⟨above, hchild, hcomputed⟩ := (paths_lead_to_entries history).2 (.numbered 7)
    (.folder ⟨4⟩) [] 0 none page hresult child (hentries ▸ List.mem_singleton_self child)
  have hsame : Except.ok (Reply.path above) = Except.ok (ε := CatalogError) (Reply.path path) := by
    rw [← hcomputed (.numbered 7), hid, hpath]
  obtain rfl := Reply.path.inj (Except.ok.inj hsame)
  exact ⟨hpath, page, child, hresult, hentries, hchild⟩

end Database
end TableStore
