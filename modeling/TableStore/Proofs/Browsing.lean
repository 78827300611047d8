import TableStore.Proofs.Pages

/-!
# Browsing

Who lists the root of an organization, then every folder found there, then every folder found in
these, and so on, finds the entries of the organization by their depth (`Database.found`). Entries
are at the depth that their path is long: it gets longer by one from a folder to what stands in it
(`Tables.Sound.pathTo_some`), so that what is found at a depth are all entries with a path of this
length (`Tables.Sound.mem_level`), each once (`Tables.Sound.level_nodup`).

**Browsing visits every entry once** (`Database.browsing_visits_every_entry_once`) and comes to an
end, since a path is shorter than there are entries.
-/

namespace TableStore

variable {t : Tables} {id organization : Uuid} {keys : List SortKey}

namespace Tables

/-! ### Depths -/

/-- The path of what stands in a folder is as long as the way up from the folder. -/
theorem Sound.length_pathTo (hs : t.Sound) {chain : List Uuid} (h : t.Ascent id chain) :
    (t.pathTo (some id)).length = chain.length := by
  induction h with
  | @root id hp =>
    obtain ⟨row, hrow, hparent⟩ := parentOf?_eq_some.mp hp
    obtain ⟨type, htype, -⟩ := hs.readEntry_of_some hrow
    rw [hs.pathTo_some hrow htype, hparent]
    rfl
  | @up id above chain hp _ ih =>
    obtain ⟨row, hrow, hparent⟩ := parentOf?_eq_some.mp hp
    obtain ⟨type, htype, -⟩ := hs.readEntry_of_some hrow
    rw [hs.pathTo_some hrow htype, hparent, List.length_append, ih]
    rfl

/-- How deep an entry stands. -/
def depth (t : Tables) (row : EntryRow) : Nat :=
  (t.pathTo row.parent).length

namespace Sound

variable (hs : t.Sound)
include hs

/-- What stands in a folder is one deeper than the folder. -/
theorem depth_child {folder row : EntryRow} (hfolder : t.entry? id = some folder)
    (hrow : row.parent = some id) : t.depth row = t.depth folder + 1 := by
  obtain ⟨type, htype, -⟩ := hs.readEntry_of_some hfolder
  rw [depth, hrow, hs.pathTo_some hfolder htype, List.length_append]
  rfl

/-- No entry is deeper than there are others. -/
theorem depth_lt {row : EntryRow} (hrow : row ∈ t.entries) : t.depth row < t.entries.length := by
  obtain ⟨chain, hchain⟩ := hs.rooted row hrow
  obtain ⟨type, htype, -⟩ := hs.readEntry_of_some (hs.entry?_of_mem hrow)
  have hlength := hs.length_pathTo hchain
  rw [hs.pathTo_some (hs.entry?_of_mem hrow) htype, List.length_append] at hlength
  have hle : chain.length ≤ t.entries.length := hchain.length_le_entries
  have hone : t.depth row + 1 = chain.length := hlength
  omega

end Sound

/-! ### Levels -/

/-- The rows that browsing finds at a depth. -/
def level (t : Tables) (keys : List SortKey) (organization : Uuid) : Nat → List EntryRow
  | 0 => SortKey.arrange keys (t.childrenOf (.root organization))
  | n + 1 =>
    ((t.level keys organization n).filter fun row => row.type == EntryType.folder.name).flatMap
      fun folder => SortKey.arrange keys (t.childrenOf (.folder folder.id))

theorem mem_childrenOf_root {row : EntryRow} :
    row ∈ t.childrenOf (.root organization) ↔
      row ∈ t.entries ∧ row.organizationId = organization ∧ row.parent = none := by
  simp [childrenOf]

theorem mem_childrenOf_folder {row : EntryRow} :
    row ∈ t.childrenOf (.folder id) ↔ row ∈ t.entries ∧ row.parent = some id := by
  simp [childrenOf]

namespace Sound

variable (hs : t.Sound)
include hs

/-- **What is found at a depth are the entries of the organization that stand there.** -/
theorem mem_level {n : Nat} {row : EntryRow} :
    row ∈ t.level keys organization n ↔
      row ∈ t.entries ∧ row.organizationId = organization ∧ t.depth row = n := by
  induction n generalizing row with
  | zero =>
    rw [level, SortKey.mem_arrange, mem_childrenOf_root]
    refine and_congr_right fun hrow => and_congr_right fun _ => ⟨fun hnone => ?_, fun hzero => ?_⟩
    · rw [depth, hnone]
      rfl
    · cases hp : row.parent with
      | none => rfl
      | some p =>
        obtain ⟨folder, hfolder, -, -⟩ := hs.parent row hrow p hp
        rw [hs.depth_child hfolder hp] at hzero
        cases hzero
  | succ n ih =>
    rw [level, List.mem_flatMap]
    constructor
    · rintro ⟨folder, hfolder, hchild⟩
      obtain ⟨hfolder, howner, hdepth⟩ := ih.mp (List.mem_of_mem_filter hfolder)
      obtain ⟨hrow, hparent⟩ := mem_childrenOf_folder.mp (SortKey.mem_arrange.mp hchild)
      have hthere : t.entry? folder.id = some folder := hs.entry?_of_mem hfolder
      obtain ⟨folder', hthere', -, hsame⟩ := hs.parent row hrow folder.id hparent
      obtain rfl := Option.some_inj.mp (hthere.symm.trans hthere')
      exact ⟨hrow, hsame.symm.trans howner,
        (hs.depth_child hthere hparent).trans (congrArg (· + 1) hdepth)⟩
    · rintro ⟨hrow, howner, hdepth⟩
      cases hp : row.parent with
      | none =>
        rw [depth, hp] at hdepth
        cases hdepth
      | some p =>
        -- the parent is a folder, and found one level above
        obtain ⟨folder, hfolder, htype, hsame⟩ := hs.parent row hrow p hp
        rw [hs.depth_child hfolder hp] at hdepth
        obtain ⟨hmem, rfl⟩ := entry?_spec hfolder
        refine ⟨folder, List.mem_filter.mpr ⟨ih.mpr ⟨hmem, hsame.trans howner, ?_⟩, ?_⟩, ?_⟩
        · exact Nat.succ.inj hdepth
        · simpa using htype
        · exact SortKey.mem_arrange.mpr (mem_childrenOf_folder.mpr ⟨hrow, hp⟩)

theorem arrange_childrenOf_nodup (parent : Parent) :
    (SortKey.arrange keys (t.childrenOf parent)).Nodup :=
  (SortKey.arrange_perm _ _).nodup_iff.mpr (hs.childrenOf_nodup parent).of_map

/-- Nothing is found twice at a depth: an entry has one parent. -/
theorem level_nodup (n : Nat) : (t.level keys organization n).Nodup := by
  induction n with
  | zero => exact hs.arrange_childrenOf_nodup _
  | succ n ih =>
    refine List.nodup_flatMap.mpr ⟨fun _ _ => hs.arrange_childrenOf_nodup _, ?_⟩
    refine (ih.filter _).imp_of_mem fun {a b} ha hb hne => ?_
    intro row hrow hrow'
    obtain ⟨-, hparent⟩ := mem_childrenOf_folder.mp (SortKey.mem_arrange.mp hrow)
    obtain ⟨-, hparent'⟩ := mem_childrenOf_folder.mp (SortKey.mem_arrange.mp hrow')
    have hid : a.id = b.id := Option.some_inj.mp (hparent.symm.trans hparent')
    exact hne (List.inj_on_of_nodup_map hs.entries_nodup
      (hs.mem_level.mp (List.mem_of_mem_filter ha)).1
      (hs.mem_level.mp (List.mem_of_mem_filter hb)).1 hid)

/-- All levels together are the entries of the organization. -/
theorem flatMap_level_perm :
    ((List.range t.entries.length).flatMap (t.level keys organization)).Perm
      (t.entries.filter fun row => row.organizationId == organization) := by
  have hnodup : ((List.range t.entries.length).flatMap (t.level keys organization)).Nodup := by
    refine List.nodup_flatMap.mpr ⟨fun n _ => hs.level_nodup n, ?_⟩
    refine List.nodup_range.imp fun {m n} hne => ?_
    intro row hm hn
    exact hne ((hs.mem_level.mp hm).2.2.symm.trans (hs.mem_level.mp hn).2.2)
  refine (List.perm_ext_iff_of_nodup hnodup (hs.entries_nodup.of_map.filter _)).mpr fun row => ?_
  rw [List.mem_flatMap, List.mem_filter, beq_iff_eq]
  constructor
  · rintro ⟨n, -, hrow⟩
    obtain ⟨hmem, howner, -⟩ := hs.mem_level.mp hrow
    exact ⟨hmem, howner⟩
  · rintro ⟨hmem, howner⟩
    exact ⟨t.depth row, List.mem_range.mpr (hs.depth_lt hmem), hs.mem_level.mpr ⟨hmem, howner, rfl⟩⟩

end Sound
end Tables

/-! ### Browsing -/

namespace Database

/-- All pages of a parent that can be asked for, of any size, are windows of these entries. Asking
for them changes nothing. -/
def Lists (db : Database) (sort : List String) (path : Bool) (parent : Parent)
    (entries : List Entry) : Prop :=
  ∀ (env : Surroundings) (limit : Option Nat) (size offset : Nat),
    Catalog.checkLimit env.limits limit = .ok size → size ≤ Json.maxSigned →
    offset ≤ Query.maxOffset →
    let outcome := db.perform ⟨env, .listChildren parent sort offset limit path⟩
    outcome.result = .ok (.page ⟨(entries.drop offset).take size, entries.length⟩) ∧
      outcome.state = db

/-- What browsing finds at a depth: what is listed of the root, and then what is listed of the
folders that have been found. -/
def found (listing : Parent → List Entry) (organization : Uuid) : Nat → List Entry
  | 0 => listing (.root organization)
  | n + 1 =>
    ((found listing organization n).filter Entry.isFolder).flatMap fun folder =>
      listing (.folder folder.id)

/-- All that browsing has found after so many steps. -/
def visited (listing : Parent → List Entry) (organization : Uuid) (steps : Nat) : List Entry :=
  (List.range steps).flatMap (found listing organization)

end Database

namespace Tables

/-- What the pages of a parent show. -/
def listing (t : Tables) (keys : List SortKey) (path : Bool) (parent : Parent) : List Entry :=
  (SortKey.arrange keys (t.childrenOf parent)).map (t.listed path)

namespace Sound

variable (hs : t.Sound)
include hs

theorem isFolder_listed {row : EntryRow} (hrow : row ∈ t.entries) (path : Bool) :
    (t.listed path row).isFolder = (row.type == EntryType.folder.name) := by
  obtain ⟨type, htype⟩ := hs.entryType row hrow
  rw [listed, htype, entryType_read?_name]
  cases type <;> rfl

/-- Browsing finds the levels. -/
theorem found_eq (path : Bool) (n : Nat) :
    Database.found (t.listing keys path) organization n =
      (t.level keys organization n).map (t.listed path) := by
  induction n with
  | zero => rfl
  | succ n ih =>
    have hfolders : (t.level keys organization n).filter (Entry.isFolder ∘ t.listed path) =
        (t.level keys organization n).filter fun row => row.type == EntryType.folder.name :=
      List.filter_congr fun row hrow => hs.isFolder_listed (hs.mem_level.mp hrow).1 path
    rw [Database.found, ih, List.filter_map, hfolders, List.flatMap_map, level, List.map_flatMap]
    rfl

end Sound
end Tables

namespace Database

variable {db : Database}

/-- The path of an entry is computed as it is stored. -/
theorem perform_computePath (hu : db.Usable) (hlocked : db.locked = none) {row : EntryRow}
    (hrow : row ∈ db.tables.entries) (env : Surroundings) :
    (db.perform ⟨env, .computePath row.id⟩).result = .ok (.path (db.tables.pathTo row.parent)) := by
  obtain ⟨type, -, hread⟩ := hu.sound.readEntry_of_some (hu.sound.entry?_of_mem hrow)
  rw [perform_eq hu hlocked, Operation.meaning, hread]
  rfl

/-- **Browsing visits every entry once.** Whatever has been called before, and however listings are
sorted, who goes through all pages of the root of an organization, and then through all pages of
every folder that is found, comes to an end and has found the entries of the organization, each of
them once, and nothing else. Each is found at the depth that its path is long. -/
theorem browsing_visits_every_entry_once (history : List Call) (organization : Uuid)
    (sort : List String) (path : Bool)
    (horganization : ((fresh.after history).tables.organization? organization).isSome = true)
    {keys : List SortKey} (hkeys : SortKey.readAll sort = .ok keys)
    (hfew : (SortKey.effectiveKeys keys).length ≤ maxSortTerms) :
    let db := fresh.after history
    let own := db.tables.entries.filter fun row => row.organizationId == organization
    ∃ listing : Parent → List Entry,
      db.Lists sort path (.root organization) (listing (.root organization)) ∧
      (∀ n, ∀ folder ∈ found listing organization n, folder.isFolder = true →
        db.Lists sort path (.folder folder.id) (listing (.folder folder.id))) ∧
      (visited listing organization db.tables.entries.length).Perm
        (own.map (db.tables.listed path)) ∧
      ((visited listing organization db.tables.entries.length).map Entry.id).Nodup ∧
      (∀ n, db.tables.entries.length ≤ n → found listing organization n = []) ∧
      ∀ n, ∀ e ∈ found listing organization n, ∀ env : Surroundings, ∃ above,
        (db.perform ⟨env, .computePath e.id⟩).result = .ok (.path above) ∧ above.length = n := by
  intro db own
  have hu : db.Usable := usable_after history
  have hs : db.tables.Sound := hu.sound
  have hlists : ∀ parent, db.tables.HasParent parent →
      db.Lists sort path parent (db.tables.listing keys path parent) := by
    intro parent hparent env limit size offset hlimit hsize hoffset
    obtain ⟨hstate, hresult⟩ :=
      perform_listChildren hu (locked_after history) path hparent hkeys hlimit hsize hoffset
    refine ⟨hresult.trans ?_, hstate⟩
    rw [if_pos hfew, Tables.shown, Tables.window, Tables.listing, List.map_take, List.map_drop,
      List.length_map, (SortKey.arrange_perm _ _).length_eq]
  have hvisited : (visited (db.tables.listing keys path) organization
      db.tables.entries.length).Perm (own.map (db.tables.listed path)) := by
    rw [visited, funext (hs.found_eq path), ← List.map_flatMap]
    exact hs.flatMap_level_perm.map _
  refine ⟨db.tables.listing keys path, hlists _ (Option.isSome_iff_exists.mp horganization),
    fun n folder hfolder hfound => hlists _ ?_, hvisited, ?_, fun n hn => ?_,
    fun n e he env => ?_⟩
  · rw [hs.found_eq] at hfolder
    obtain ⟨row, hrow, rfl⟩ := List.mem_map.mp hfolder
    have hmem := (hs.mem_level.mp hrow).1
    rw [hs.isFolder_listed hmem] at hfound
    exact ⟨row, hs.entry?_of_mem hmem, beq_iff_eq.mp hfound⟩
  · refine (hvisited.map Entry.id).nodup_iff.mpr ?_
    rw [List.map_map]
    exact hs.entries_nodup.sublist (List.filter_sublist.map _)
  · rw [hs.found_eq, List.map_eq_nil_iff, List.eq_nil_iff_forall_not_mem]
    intro row hrow
    obtain ⟨hmem, -, rfl⟩ := hs.mem_level.mp hrow
    exact Nat.not_lt.mpr hn (hs.depth_lt hmem)
  · rw [hs.found_eq] at he
    obtain ⟨row, hrow, rfl⟩ := List.mem_map.mp he
    obtain ⟨hmem, -, rfl⟩ := hs.mem_level.mp hrow
    exact ⟨_, perform_computePath hu (locked_after history) hmem env, rfl⟩

/-- A table in a folder in a folder is found after two steps. -/
theorem browsing_visits_every_entry_once_nested :
    let history : List Call :=
      [⟨.numbered 1, .createOrganization "org"⟩,
        ⟨.numbered 2, .createEntry ⟨1⟩ .folder none [] []⟩,
        ⟨.numbered 3, .createEntry ⟨1⟩ .folder (some ⟨2⟩) [] []⟩,
        ⟨.numbered 4, .createEntry ⟨1⟩ .table (some ⟨3⟩) [] []⟩]
    ∃ listing : Parent → List Entry,
      (fresh.after history).Lists ["type:desc"] true (.root ⟨1⟩) (listing (.root ⟨1⟩)) ∧
      ((visited listing ⟨1⟩ 3).map Entry.id).Perm [⟨2⟩, ⟨3⟩, ⟨4⟩] ∧ found listing ⟨1⟩ 3 = [] := by
  intro history
  have horganization : ((fresh.after history).tables.organization? ⟨1⟩).isSome = true := by
    decide +kernel
  have hkeys : SortKey.readAll ["type:desc"] = .ok [⟨.type, .desc⟩] := by decide +kernel
  obtain ⟨listing, hroot, -, hvisited, -, hend, -⟩ :=
    browsing_visits_every_entry_once history ⟨1⟩ ["type:desc"] true horganization hkeys (by decide)
  have hlength : (fresh.after history).tables.entries.length = 3 := by decide +kernel
  have hids : (((fresh.after history).tables.entries.filter fun row =>
      row.organizationId == ⟨1⟩).map ((fresh.after history).tables.listed true)).map Entry.id =
        [⟨2⟩, ⟨3⟩, ⟨4⟩] := by decide +kernel
  rw [hlength] at hvisited hend
  exact ⟨listing, hroot, hids ▸ hvisited.map Entry.id, hend 3 (Nat.le_refl 3)⟩

end Database
end TableStore
