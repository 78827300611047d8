import TableStore.Proofs.History

/-!
# The forest of entries

In every database that a history leaves, the entries of an organization stand in a forest: each has
a folder of the same organization as its parent, or is a root, and leads up to a root; columns and
records belong to tables (`Tables.Forest`). An entry that stays stays what it is and with its
organization (`Tables.Keeps`): one step keeps this (`Operation.Does.keeps`), and so does a history
that never deletes the entry (`Database.forest_after_history`).
-/

namespace TableStore

namespace Tables

/-- Organizations own forests of entries, whose tables own columns and records. -/
structure Forest (t : Tables) : Prop where
  /-- No two entries have the same identifier. -/
  nodup : (t.entries.map EntryRow.id).Nodup
  owner : ∀ e ∈ t.entries, ∃ o ∈ t.organizations, o.id = e.organizationId
  parent : ∀ e ∈ t.entries, ∀ p, e.parent = some p →
    ∃ folder ∈ t.entries, folder.id = p ∧ folder.type = EntryType.folder.name ∧
      folder.organizationId = e.organizationId
  /-- Every entry leads up to a root, and nothing is met twice on the way. -/
  rooted : ∀ e ∈ t.entries, ∃ chain, t.Ascent e.id chain ∧ chain.Nodup
  column : ∀ c ∈ t.columns, ∃ table ∈ t.entries,
    table.id = c.tableId ∧ table.type = EntryType.table.name
  record : ∀ r ∈ t.records, ∃ table ∈ t.entries,
    table.id = r.tableId ∧ table.type = EntryType.table.name

/-- Entries that are there before and after are of the same type and organization. -/
def Keeps (t after : Tables) : Prop :=
  ∀ id e e', t.entry? id = some e → after.entry? id = some e' →
    e'.type = e.type ∧ e'.organizationId = e.organizationId

variable {t after : Tables} {id : Uuid}

theorem IsEntry.exists_mem {type : EntryType} (h : t.IsEntry id type) :
    ∃ e ∈ t.entries, e.id = id ∧ e.type = type.name := by
  obtain ⟨e, he, htype⟩ := h
  obtain ⟨hm, hid⟩ := entry?_spec he
  exact ⟨e, hm, hid, htype⟩

/-- Sound tables hold forests. -/
theorem Sound.forest (hs : t.Sound) : t.Forest where
  nodup := hs.entries_nodup
  owner := fun e he => by
    obtain ⟨o, ho⟩ := hs.owner e he
    exact ⟨o, organization?_spec ho⟩
  parent := fun e he p hp => by
    obtain ⟨folder, hf, htype, howner⟩ := hs.parent e he p hp
    obtain ⟨hm, hid⟩ := entry?_spec hf
    exact ⟨folder, hm, hid, htype, howner⟩
  rooted := fun e he => (hs.rooted e he).imp fun _ h => ⟨h, h.nodup⟩
  column := fun c hc => (hs.columnTable c hc).exists_mem
  record := fun r hr => (hs.recordTable r hr).exists_mem

/-! ### What changes keep -/

theorem keeps_of_entries (h : after.entries = t.entries) : t.Keeps after := by
  intro id e e' he he'
  have hsame : after.entry? id = t.entry? id :=
    congrArg (List.find? fun e : EntryRow => e.id == id) h
  obtain rfl := Option.some_inj.mp (he'.symm.trans (hsame.trans he))
  exact ⟨rfl, rfl⟩

theorem keeps_addEntry {row : EntryRow} {type : EntryType} {columns : List ColumnRow}
    (hnew : t.entry? row.id = none) : t.Keeps (t.addEntry row type columns) := by
  intro id e e' he he'
  rw [entry?_addEntry_of_some hnew he] at he'
  obtain rfl := Option.some_inj.mp he'
  exact ⟨rfl, rfl⟩

theorem keeps_modifyEntry {f : EntryRow → EntryRow} (hid : ∀ e, (f e).id = e.id)
    (horganization : ∀ e, (f e).organizationId = e.organizationId)
    (htype : ∀ e, (f e).type = e.type) : t.Keeps (t.modifyEntry id f) := by
  intro x e e' he he'
  rw [entry?_modifyEntry_of_some hid he] at he'
  obtain rfl := Option.some_inj.mp he'
  split
  · exact ⟨htype e, horganization e⟩
  · exact ⟨rfl, rfl⟩

theorem Sound.keeps_discard (hs : t.Sound) (gone : List Uuid) : t.Keeps (t.discard gone) := by
  intro id e e' he he'
  rw [hs.entry?_discard] at he'
  split at he'
  · cases he'
  · rw [he] at he'
    obtain rfl := Option.some_inj.mp he'
    exact ⟨rfl, rfl⟩

end Tables

open Tables

/-- An operation keeps what the entries are that it does not delete. -/
theorem Operation.Does.keeps {env : Surroundings} {t after : Tables} {op : Operation}
    (hs : t.Sound) (h : op.Does env t after) : t.Keeps after := by
  cases h with
  | read => exact keeps_of_entries rfl
  | createOrganization h =>
    obtain ⟨-, rfl⟩ := storeOrganization_ok h
    exact keeps_of_entries rfl
  | renameOrganization h =>
    obtain rfl := renameOrganization_ok h
    exact keeps_of_entries rfl
  | deleteOrganization h =>
    obtain rfl := hs.dropOrganization_ok h
    exact hs.keeps_discard _
  | createEntry _ _ _ _ h =>
    obtain ⟨hnew, -, -, -, rfl⟩ := storeEntry_ok h
    exact keeps_addEntry hnew
  | moveEntry h =>
    obtain ⟨old, -, -, rfl, -⟩ := moveEntry_ok h
    exact keeps_modifyEntry (EntryRow.movedTo_id _ _) (fun _ => rfl) fun _ => rfl
  | updateProperties _ h =>
    obtain ⟨old, -, -, rfl⟩ := changeProperties_ok h
    exact keeps_modifyEntry (EntryRow.withProperties_id _ _) (fun _ => rfl) fun _ => rfl
  | deleteEntry h =>
    obtain rfl := hs.dropEntry_ok h
    exact hs.keeps_discard _
  | createColumn _ _ _ h =>
    obtain ⟨-, -, rfl⟩ := storeColumn_ok h
    exact keeps_of_entries rfl
  | updateColumn _ _ _ h =>
    obtain ⟨old, -, -, rfl⟩ := changeColumn_ok h
    exact keeps_of_entries rfl
  | deleteColumn _ _ h =>
    obtain ⟨old, -, rfl⟩ := dropColumn_ok h
    exact keeps_of_entries rfl
  | reorderColumns => exact keeps_of_entries rfl
  | insertRecords h =>
    obtain ⟨-, rows, rfl⟩ := hs.insertRecords _ (storeRecords_ok h)
    exact keeps_of_entries rfl

namespace Database

variable {db : Database}

theorem keeps_perform (hu : db.Usable) (call : Call) :
    db.tables.Keeps (db.perform call).state.tables := by
  cases h : (db.perform call).result with
  | error e =>
    rw [perform_error hu h]
    exact keeps_of_entries rfl
  | ok reply =>
    obtain ⟨t, hdoes, hstate⟩ := perform_ok hu h
    rw [hstate]
    exact hdoes.keeps hu.sound

/-- An entry that is there all the time stays what it is. -/
theorem keeps_after (hu : db.Usable) (later : List Call) (id : Uuid)
    (hthere : ∀ n, ((db.after (later.take n)).tables.entry? id).isSome = true) :
    ∃ e e', db.tables.entry? id = some e ∧ (db.after later).tables.entry? id = some e' ∧
      e'.type = e.type ∧ e'.organizationId = e.organizationId := by
  -- an entry with this identifier that is made anew could be anything, so it is asked for after
  -- every call
  induction later generalizing db with
  | nil =>
    obtain ⟨e, he⟩ := Option.isSome_iff_exists.mp (hthere 0)
    exact ⟨e, e, he, he, rfl, rfl⟩
  | cons call rest ih =>
    obtain ⟨e, he⟩ := Option.isSome_iff_exists.mp (hthere 0)
    obtain ⟨e', e'', he', he'', htype, howner⟩ :=
      ih (hu.perform call).1 fun n => hthere (n + 1)
    obtain ⟨htype', howner'⟩ := keeps_perform hu call id e e' he he'
    exact ⟨e, e'', he, he'', htype.trans htype', howner.trans howner'⟩

/-- **Histories leave forests.** Whatever is called, the entries are a forest after it, and an entry
keeps its type and its organization as long as it is there. -/
theorem forest_after_history (history : List Call) :
    (fresh.after history).tables.Forest ∧
      ∀ (later : List Call) (id : Uuid),
        (∀ n, ((fresh.after (history ++ later.take n)).tables.entry? id).isSome = true) →
        ∃ e e', (fresh.after history).tables.entry? id = some e ∧
          (fresh.after (history ++ later)).tables.entry? id = some e' ∧
          e'.type = e.type ∧ e'.organizationId = e.organizationId := by
  refine ⟨(sound_after history).forest, fun later id hthere => ?_⟩
  simp only [after_append] at hthere ⊢
  exact keeps_after (usable_after history) later id hthere

/-- A folder that moves into another while the organization is renamed is there all the time. -/
theorem forest_after_history_moved :
    let history : List Call :=
      [⟨.numbered 1, .createOrganization "org"⟩,
        ⟨.numbered 2, .createEntry ⟨1⟩ .folder none [] []⟩,
        ⟨.numbered 3, .createEntry ⟨1⟩ .folder none [] []⟩]
    let later : List Call :=
      [⟨.numbered 4, .moveEntry ⟨3⟩ (some ⟨2⟩)⟩, ⟨.numbered 4, .renameOrganization ⟨1⟩ "other"⟩]
    ∃ e e', (fresh.after history).tables.entry? ⟨3⟩ = some e ∧
      (fresh.after (history ++ later)).tables.entry? ⟨3⟩ = some e' ∧
      e'.type = e.type ∧ e'.organizationId = e.organizationId :=
  (forest_after_history _).2 _ _ fun n => match n with
    | 0 => rfl
    | 1 => rfl
    | n + 2 => by
      rw [List.take_of_length_le (Nat.le_add_left 2 n)]
      rfl

end Database
end TableStore
