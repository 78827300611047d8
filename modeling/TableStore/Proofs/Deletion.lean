import TableStore.Proofs.Survival

/-!
# Deletion

Only one row is named when an entry or an organization is deleted; everything else goes because it
refers to something that goes. **Deletions are exact** (`Database.deletion_is_exact`): what is there
can be deleted, unless entries are nested too deep for the engine to follow the references, and then
nothing is deleted. What is left are the rows that were there before, as they were, without the
entry, everything below it and the markers, columns and records of these entries.

Entries can be nested as deep as one likes (`Database.levelsBelow_nested`), so there are some that
can't be deleted (`Database.deep_folders_are_not_deleted`).
-/

namespace TableStore

namespace Tables

variable {t : Tables} {id other : Uuid}

/-- What is left when entries are taken out. -/
theorem discard_eq (gone : List Uuid) :
    t.discard gone = { t with
      entries := t.entries.filter fun e => e.id ∉ gone
      folders := t.folders.filter fun folder => folder ∉ gone
      tables := t.tables.filter fun table => table ∉ gone
      columns := t.columns.filter fun c => c.tableId ∉ gone
      records := t.records.filter fun r => r.tableId ∉ gone } := by
  have hkeep : ∀ x : Uuid, (!gone.contains x) = decide (x ∉ gone) := fun x => by simp
  simp only [discard, hkeep]

namespace Sound

variable (hs : t.Sound)
include hs

theorem organization?_of_mem {o : Organization} (ho : o ∈ t.organizations) :
    t.organization? o.id = some o :=
  find?_key_of_mem hs.organizations_nodup ho

/-- The entries that stay when those of an organization go are the entries of the others. -/
theorem filter_ownedBy :
    t.entries.filter (fun e => e.id ∉ t.ownedBy id) =
      t.entries.filter fun e => e.organizationId ≠ id := by
  refine List.filter_congr fun e he => ?_
  rw [decide_eq_decide, mem_ownedBy, not_iff_not]
  constructor
  · rintro ⟨other, hmem, hid, howner⟩
    rwa [List.inj_on_of_nodup_map hs.entries_nodup he hmem hid.symm]
  · intro howner
    exact ⟨e, he, rfl, howner⟩

/-- What is left when an organization is taken out. -/
theorem withoutOrganization_eq :
    t.withoutOrganization id = {
      organizations := t.organizations.filter fun o => o.id ≠ id
      entries := t.entries.filter fun e => e.organizationId ≠ id
      folders := t.folders.filter fun folder => folder ∉ t.ownedBy id
      tables := t.tables.filter fun table => table ∉ t.ownedBy id
      columns := t.columns.filter fun c => c.tableId ∉ t.ownedBy id
      records := t.records.filter fun r => r.tableId ∉ t.ownedBy id } := by
  have hne : ∀ o : Organization, (o.id != id) = decide (o.id ≠ id) := fun o => by
    rw [Bool.eq_iff_iff, bne_iff_ne, decide_eq_true_iff]
  simp only [Tables.withoutOrganization, discard_eq, hs.filter_ownedBy, hne]

end Sound
end Tables

namespace Database

open Tables

variable {db : Database} {id : Uuid}

/-- An entry that is there is deleted with what it has to take along, or nothing is. -/
theorem perform_deleteEntry (hu : db.Usable) (hlocked : db.locked = none) (env : Surroundings)
    {e : EntryRow} (he : db.tables.entry? id = some e) :
    let outcome := db.perform ⟨env, .deleteEntry id⟩
    (db.tables.TooDeep id ∧ outcome.result = .error .storage ∧ outcome.state = db) ∨
      (¬ db.tables.TooDeep id ∧ outcome.result = .ok .nothing ∧
        outcome.state = { db with tables := db.tables.discard (db.tables.subtree id) }) := by
  intro outcome
  refine (hu.sound.dropEntry_eq he).imp (fun h => ?_) fun h => ⟨h.1, ?_⟩
  · have hresult : outcome.result = .error .storage := by
      rw [perform_eq hu hlocked, Operation.meaning, h.2]
      rfl
    exact ⟨h.1, hresult, perform_error hu hresult⟩
  · exact perform_of_meaning hu hlocked (by rw [Operation.meaning, h.2]; rfl)

/-- An organization that is there is deleted with what it owns, or nothing is. -/
theorem perform_deleteOrganization (hu : db.Usable) (hlocked : db.locked = none)
    (env : Surroundings) {o : Organization} (ho : db.tables.organization? id = some o) :
    let outcome := db.perform ⟨env, .deleteOrganization id⟩
    (db.tables.TooDeepWithin id ∧ outcome.result = .error .storage ∧ outcome.state = db) ∨
      (¬ db.tables.TooDeepWithin id ∧ outcome.result = .ok .nothing ∧
        outcome.state = { db with tables := db.tables.withoutOrganization id }) := by
  intro outcome
  refine (hu.sound.dropOrganization_eq ho).imp (fun h => ?_) fun h => ⟨h.1, ?_⟩
  · have hresult : outcome.result = .error .storage := by
      rw [perform_eq hu hlocked, Operation.meaning, h.2]
      rfl
    exact ⟨h.1, hresult, perform_error hu hresult⟩
  · exact perform_of_meaning hu hlocked (by rw [Operation.meaning, h.2]; rfl)

/-- What can be deleted is there. -/
theorem exists_of_deleted (hu : db.Usable) {env : Surroundings} {reply : Reply} :
    ((db.perform ⟨env, .deleteEntry id⟩).result = .ok reply →
        ∃ e, db.tables.entry? id = some e) ∧
      ((db.perform ⟨env, .deleteOrganization id⟩).result = .ok reply →
        ∃ o, db.tables.organization? id = some o) := by
  constructor
  · intro h
    obtain ⟨t, hdoes, -⟩ := perform_ok hu h
    cases hdoes with
    | read hread => cases hread
    | deleteEntry hdropped => exact (found_bind_ok hdropped).imp fun _ he => he.1
  · intro h
    obtain ⟨t, hdoes, -⟩ := perform_ok hu h
    cases hdoes with
    | read hread => cases hread
    | deleteOrganization hdropped => exact (found_bind_ok hdropped).imp fun _ ho => ho.1

/-- What is left when an entry is deleted, and when nothing is. -/
theorem deleteEntry_cases (hu : db.Usable) (hlocked : db.locked = none) (env : Surroundings)
    (id : Uuid) :
    let outcome := db.perform ⟨env, .deleteEntry id⟩
    (outcome.result = .ok .nothing ↔
        (∃ e ∈ db.tables.entries, e.id = id) ∧ ¬ db.tables.TooDeep id) ∧
      (outcome.result = .ok .nothing →
        outcome.state = { db with tables := db.tables.discard (db.tables.subtree id) }) ∧
      ((∃ e ∈ db.tables.entries, e.id = id) → db.tables.TooDeep id →
        outcome.result = .error .storage ∧ outcome.state = db) := by
  intro outcome
  have hfound : (∃ e ∈ db.tables.entries, e.id = id) → ∃ e, db.tables.entry? id = some e := by
    rintro ⟨e, he, rfl⟩
    exact ⟨e, hu.sound.entry?_of_mem he⟩
  have hresult : outcome.result = .ok .nothing → ∃ e, db.tables.entry? id = some e :=
    (exists_of_deleted hu).1
  refine ⟨⟨fun h => ?_, fun ⟨hthere, hshallow⟩ => ?_⟩, fun h => ?_, fun hthere hdeep => ?_⟩
  · obtain ⟨e, he⟩ := hresult h
    rcases perform_deleteEntry hu hlocked env he with ⟨-, hfailed, -⟩ | ⟨hshallow, -⟩
    · cases hfailed.symm.trans h
    · exact ⟨⟨e, entry?_spec he⟩, hshallow⟩
  · obtain ⟨e, he⟩ := hfound hthere
    rcases perform_deleteEntry hu hlocked env he with ⟨hdeep, -⟩ | ⟨-, hok, -⟩
    · exact absurd hdeep hshallow
    · exact hok
  · obtain ⟨e, he⟩ := hresult h
    rcases perform_deleteEntry hu hlocked env he with ⟨-, hfailed, -⟩ | ⟨-, -, hstate⟩
    · cases hfailed.symm.trans h
    · exact hstate
  · obtain ⟨e, he⟩ := hfound hthere
    rcases perform_deleteEntry hu hlocked env he with ⟨-, hfailed⟩ | ⟨hshallow, -⟩
    · exact hfailed
    · exact absurd hdeep hshallow

/-- What is left when an organization is deleted, and when nothing is. -/
theorem deleteOrganization_cases (hu : db.Usable) (hlocked : db.locked = none) (env : Surroundings)
    (id : Uuid) :
    let outcome := db.perform ⟨env, .deleteOrganization id⟩
    (outcome.result = .ok .nothing ↔
        (∃ o ∈ db.tables.organizations, o.id = id) ∧ ¬ db.tables.TooDeepWithin id) ∧
      (outcome.result = .ok .nothing →
        outcome.state = { db with tables := db.tables.withoutOrganization id }) ∧
      ((∃ o ∈ db.tables.organizations, o.id = id) → db.tables.TooDeepWithin id →
        outcome.result = .error .storage ∧ outcome.state = db) := by
  intro outcome
  have hfound : (∃ o ∈ db.tables.organizations, o.id = id) →
      ∃ o, db.tables.organization? id = some o := by
    rintro ⟨o, ho, rfl⟩
    exact ⟨o, hu.sound.organization?_of_mem ho⟩
  have hresult : outcome.result = .ok .nothing → ∃ o, db.tables.organization? id = some o :=
    (exists_of_deleted hu).2
  refine ⟨⟨fun h => ?_, fun ⟨hthere, hshallow⟩ => ?_⟩, fun h => ?_, fun hthere hdeep => ?_⟩
  · obtain ⟨o, ho⟩ := hresult h
    rcases perform_deleteOrganization hu hlocked env ho with ⟨-, hfailed, -⟩ | ⟨hshallow, -⟩
    · cases hfailed.symm.trans h
    · exact ⟨⟨o, organization?_spec ho⟩, hshallow⟩
  · obtain ⟨o, ho⟩ := hfound hthere
    rcases perform_deleteOrganization hu hlocked env ho with ⟨hdeep, -⟩ | ⟨-, hok, -⟩
    · exact absurd hdeep hshallow
    · exact hok
  · obtain ⟨o, ho⟩ := hresult h
    rcases perform_deleteOrganization hu hlocked env ho with ⟨-, hfailed, -⟩ | ⟨-, -, hstate⟩
    · cases hfailed.symm.trans h
    · exact hstate
  · obtain ⟨o, ho⟩ := hfound hthere
    rcases perform_deleteOrganization hu hlocked env ho with ⟨-, hfailed⟩ | ⟨hshallow, -⟩
    · exact hfailed
    · exact absurd hdeep hshallow

/-- **Deletions are exact.** Whatever has been called before, an entry can be deleted exactly if it
is there and no entry stands five hundred levels below it. What is left are all rows as they were,
without the entry, its descendants, their markers, and the columns and records of those that are
tables. An organization can be deleted exactly if it is there and none of its entries stands four
hundred and ninety-nine levels below the entry that it goes with, and what is left are all rows as
they were, without the organization, its entries, and what belongs to them. Where entries are nested
deeper than that, the engine refuses to delete anything. -/
theorem deletion_is_exact (history : List Call) (env : Surroundings) (id : Uuid) :
    let db := fresh.after history
    let entry := db.perform ⟨env, .deleteEntry id⟩
    let organization := db.perform ⟨env, .deleteOrganization id⟩
    ((entry.result = .ok .nothing ↔
        (∃ e ∈ db.tables.entries, e.id = id) ∧ ¬ db.tables.TooDeep id) ∧
      (entry.result = .ok .nothing →
        ∃ gone : List Uuid, (∀ x, x ∈ gone ↔ db.tables.AtOrBelow x id) ∧
          entry.state = { db with tables := { db.tables with
            entries := db.tables.entries.filter fun e => e.id ∉ gone
            folders := db.tables.folders.filter fun folder => folder ∉ gone
            tables := db.tables.tables.filter fun table => table ∉ gone
            columns := db.tables.columns.filter fun c => c.tableId ∉ gone
            records := db.tables.records.filter fun r => r.tableId ∉ gone } }) ∧
      ((∃ e ∈ db.tables.entries, e.id = id) → db.tables.TooDeep id →
        entry.result = .error .storage ∧ entry.state = db)) ∧
      (organization.result = .ok .nothing ↔
        (∃ o ∈ db.tables.organizations, o.id = id) ∧ ¬ db.tables.TooDeepWithin id) ∧
      (organization.result = .ok .nothing →
        ∃ gone : List Uuid,
          (∀ x, x ∈ gone ↔ ∃ e ∈ db.tables.entries, e.id = x ∧ e.organizationId = id) ∧
          organization.state = { db with tables := {
            organizations := db.tables.organizations.filter fun o => o.id ≠ id
            entries := db.tables.entries.filter fun e => e.organizationId ≠ id
            folders := db.tables.folders.filter fun folder => folder ∉ gone
            tables := db.tables.tables.filter fun table => table ∉ gone
            columns := db.tables.columns.filter fun c => c.tableId ∉ gone
            records := db.tables.records.filter fun r => r.tableId ∉ gone } }) ∧
      ((∃ o ∈ db.tables.organizations, o.id = id) → db.tables.TooDeepWithin id →
        organization.result = .error .storage ∧ organization.state = db) := by
  intro db entry organization
  have hu : db.Usable := usable_after history
  have hlocked : db.locked = none := locked_after history
  obtain ⟨hiff, hleft, hdeep⟩ := deleteEntry_cases hu hlocked env id
  obtain ⟨hiff', hleft', hdeep'⟩ := deleteOrganization_cases hu hlocked env id
  refine ⟨⟨hiff, fun h => ⟨db.tables.subtree id, fun x => ?_, ?_⟩, hdeep⟩, hiff',
    fun h => ⟨db.tables.ownedBy id, fun x => mem_ownedBy, ?_⟩, hdeep'⟩
  · obtain ⟨e, he, rfl⟩ := (hiff.mp h).1
    have hsome : (db.tables.entry? e.id).isSome :=
      Option.isSome_of_eq_some (hu.sound.entry?_of_mem he)
    rw [hu.sound.mem_subtree]
    exact ⟨And.right, fun hbelow => ⟨AtOrBelow.isSome hbelow hsome, hbelow⟩⟩
  · rw [← discard_eq]
    exact hleft h
  · rw [← hu.sound.withoutOrganization_eq]
    exact hleft' h

/-! ### Nested folders -/

/-- The row of a new folder without properties. -/
def folderRow (env : Surroundings) (organization : Uuid) (parent : Option Uuid) : EntryRow :=
  ⟨env.fresh 0, organization, EntryType.folder.name, parent, .empty, env.now, env.now⟩

/-- A new folder at the root of an organization or in one of its folders is made. -/
theorem perform_createFolder (hu : db.Usable) (hlocked : db.locked = none) {env : Surroundings}
    {organization : Uuid} {parent : Option Uuid}
    (ho : ∃ o, db.tables.organization? organization = some o)
    (hparent : db.tables.CanHold organization parent)
    (hnew : db.tables.entry? (env.fresh 0) = none) :
    (db.perform ⟨env, .createEntry organization .folder parent [] []⟩).state =
      { db with
        tables := db.tables.addEntry (folderRow env organization parent) .folder [] } := by
  have hfails : FailsOnly (fun _ => False)
      (Meaning.createEntry env db.tables organization .folder parent [] []) := by
    refine createEntry_fails hu.sound env (.ok Properties.empty) nofun (fun hnone => ?_)
      (checkParent_holds hu.sound hparent) fun properties columns _ hcolumns _ _ =>
        storeEntry_fails (fun htaken => ?_) (fun _ _ hne => hne (Except.ok.inj hcolumns).symm)
          fun _ hrepeated => ?_
    · obtain ⟨o, ho⟩ := ho
      cases ho.symm.trans hnone
    · simp [hnew] at htaken
    · rw [← Except.ok.inj hcolumns] at hrepeated
      exact hrepeated (by simpa [columnRows] using hu.sound.columns_nodup)
  obtain ⟨⟨entry, after⟩, hmade⟩ := hfails.exists_ok
  have hafter : after =
      db.tables.addEntry (folderRow env organization parent) .folder [] := by
    obtain ⟨properties, hproperties, h⟩ := bind_ok hmade
    obtain ⟨columns, hcolumns, h⟩ := bind_ok h
    obtain ⟨owner, -, h⟩ := bind_ok h
    obtain ⟨⟨⟩, -, h⟩ := bind_ok h
    obtain ⟨read, h, -⟩ := andRead_ok h
    obtain ⟨row, h, -⟩ := andRead_ok h
    obtain ⟨-, -, -, -, rfl⟩ := storeEntry_ok (mapError_ok h)
    obtain rfl := Except.ok.inj hproperties
    obtain rfl := Except.ok.inj hcolumns
    rfl
  rw [← hafter]
  exact (perform_of_meaning hu hlocked (by rw [Operation.meaning, hmade]; rfl)).2

/-- The folder at a depth, counted from zero. -/
def nestedFolder (depth : Nat) : Uuid :=
  ⟨BitVec.ofNat 128 (depth + 2)⟩

/-- The parent of the folder at a depth. -/
def nestedParent : Nat → Option Uuid
  | 0 => none
  | depth + 1 => some (nestedFolder depth)

/-- Its row. -/
def nestedRow (depth : Nat) : EntryRow :=
  folderRow (.numbered (depth + 2)) ⟨1⟩ (nestedParent depth)

/-- The calls that make an organization and so many folders, each in the one before. -/
def nestedFolders : Nat → List Call
  | 0 => [⟨.numbered 1, .createOrganization "org"⟩]
  | depth + 1 =>
    nestedFolders depth ++
      [⟨.numbered (depth + 2), .createEntry ⟨1⟩ .folder (nestedParent depth) [] []⟩]

theorem nestedFolder_inj {m n : Nat} (hm : m < 1000) (hn : n < 1000)
    (h : nestedFolder m = nestedFolder n) : m = n := by
  have hbits := congrArg (fun u : Uuid => u.bits.toNat) h
  simp only [nestedFolder, BitVec.toNat_ofNat] at hbits
  omega

/-- What these calls leave. -/
theorem after_nestedFolders {n : Nat} (hn : n ≤ 1000) :
    let db := fresh.after (nestedFolders n)
    (∃ o, db.tables.organization? ⟨1⟩ = some o) ∧
      db.tables.entries = (List.range n).map nestedRow := by
  induction n with
  | zero => exact ⟨⟨_, rfl⟩, rfl⟩
  | succ n ih =>
    intro db
    obtain ⟨howner, hentries⟩ := ih (Nat.le_of_succ_le hn)
    have hu := usable_after (nestedFolders n)
    have hparent : (fresh.after (nestedFolders n)).tables.CanHold ⟨1⟩ (nestedParent n) := by
      intro p hp
      cases n with
      | zero => cases hp
      | succ n =>
        obtain rfl := Option.some_inj.mp hp
        have hmem : nestedRow n ∈ (fresh.after (nestedFolders (n + 1))).tables.entries := by
          rw [hentries]
          exact List.mem_map_of_mem (List.mem_range.mpr n.lt_succ_self)
        exact ⟨_, hu.sound.entry?_of_mem hmem, rfl, rfl⟩
    have hnew : (fresh.after (nestedFolders n)).tables.entry? (nestedFolder n) = none := by
      refine entry?_eq_none.mpr fun e he hid => ?_
      rw [hentries] at he
      obtain ⟨m, hm, rfl⟩ := List.mem_map.mp he
      have hlt := List.mem_range.mp hm
      exact absurd (nestedFolder_inj (by omega) (by omega) hid) (Nat.ne_of_lt hlt)
    have hstep : db = _ := (after_append _ _ _).trans
      (perform_createFolder hu (locked_after _) howner hparent hnew)
    rw [hstep]
    refine ⟨howner, ?_⟩
    rw [List.range_succ, List.map_append, ← hentries]
    rfl

section Nested

variable {n depth : Nat} (hn : n ≤ 1000)
include hn

theorem mem_nested (hdepth : depth < n) :
    nestedRow depth ∈ (fresh.after (nestedFolders n)).tables.entries := by
  rw [(after_nestedFolders hn).2]
  exact List.mem_map_of_mem (List.mem_range.mpr hdepth)

theorem ownedBy_nested :
    (fresh.after (nestedFolders n)).tables.ownedBy ⟨1⟩ = (List.range n).map nestedFolder := by
  have howned : ∀ e ∈ (List.range n).map nestedRow, (e.organizationId == ⟨1⟩) = true := by
    intro e he
    obtain ⟨depth, -, rfl⟩ := List.mem_map.mp he
    rfl
  rw [ownedBy, (after_nestedFolders hn).2, List.filter_eq_self.mpr howned, List.map_map]
  rfl

/-- Entries can be nested many levels below another. -/
theorem levelsBelow_nested (hdepth : depth < n) :
    (fresh.after (nestedFolders n)).tables.LevelsBelow depth (nestedFolder depth)
      (nestedFolder 0) := by
  induction depth with
  | zero => exact .refl _
  | succ depth ih =>
    exact .up
      (parentOf?_eq_some.mpr ⟨_, (sound_after _).entry?_of_mem (mem_nested hn hdepth), rfl⟩)
      (ih (Nat.lt_of_succ_lt hdepth))

/-- Many folders, each in the one before, are too deep for the organization that owns them. -/
theorem tooDeepWithin_nested (hdeep : 499 < n) :
    (fresh.after (nestedFolders n)).tables.TooDeepWithin ⟨1⟩ := by
  refine ⟨nestedFolder 499, nestedFolder 0, ?_, levelsBelow_nested hn hdeep, fun y _ => ?_⟩
  · rw [ownedBy_nested hn]
    exact List.mem_map_of_mem (List.mem_range.mpr (by omega))
  · -- the topmost folder was made first
    obtain ⟨k, rfl⟩ := Nat.exists_eq_add_one_of_ne_zero (Nat.ne_zero_of_lt hdeep)
    rw [ownedBy_nested hn, List.range_succ_eq_map, List.map_cons, List.idxOf_cons_self]
    exact Nat.zero_le _

/-- Neither the topmost of so many folders nor the organization that owns them can be deleted. -/
theorem not_deleted_nested (hdeep : 500 < n) (env : Surroundings) :
    let db := fresh.after (nestedFolders n)
    let entry := db.perform ⟨env, .deleteEntry (nestedFolder 0)⟩
    let organization := db.perform ⟨env, .deleteOrganization ⟨1⟩⟩
    ((∃ e ∈ db.tables.entries, e.id = nestedFolder 0) ∧
      entry.result = .error .storage ∧ entry.state = db) ∧
      (∃ o ∈ db.tables.organizations, o.id = ⟨1⟩) ∧
      organization.result = .error .storage ∧ organization.state = db := by
  intro db entry organization
  have hu : db.Usable := usable_after _
  have hlocked : db.locked = none := locked_after _
  have hentry : ∃ e ∈ db.tables.entries, e.id = nestedFolder 0 :=
    ⟨nestedRow 0, mem_nested hn (Nat.zero_lt_of_lt hdeep), rfl⟩
  have howner : ∃ o ∈ db.tables.organizations, o.id = ⟨1⟩ :=
    (after_nestedFolders hn).1.imp fun _ ho => organization?_spec ho
  have hbelow : db.tables.TooDeep (nestedFolder 0) := ⟨_, levelsBelow_nested hn hdeep⟩
  exact ⟨⟨hentry, (deleteEntry_cases hu hlocked env _).2.2 hentry hbelow⟩, howner,
    (deleteOrganization_cases hu hlocked env _).2.2 howner
      (tooDeepWithin_nested hn (Nat.lt_of_succ_lt hdeep))⟩

end Nested

/-- The topmost of five hundred and one folders, each in the one before, is there, and so is the
organization that owns them. Neither can be deleted. -/
theorem deep_folders_are_not_deleted :
    let db := fresh.after (nestedFolders 501)
    let entry := db.perform ⟨.numbered 600, .deleteEntry (nestedFolder 0)⟩
    let organization := db.perform ⟨.numbered 600, .deleteOrganization ⟨1⟩⟩
    ((∃ e ∈ db.tables.entries, e.id = nestedFolder 0) ∧
      entry.result = .error .storage ∧ entry.state = db) ∧
      (∃ o ∈ db.tables.organizations, o.id = ⟨1⟩) ∧
      organization.result = .error .storage ∧ organization.state = db :=
  not_deleted_nested (by decide) (by decide) _

end Database
end TableStore
