import TableStore.Proofs.ColumnLists
import TableStore.Proofs.RecordQueries

/-!
# What outlives operations

A table with some of its columns and records (`Tables.Holds`) goes only with what is deleted: the
table, an entry above it, its organization or one of these columns. An operation that deletes none
of them spares it (`Operation.Spares`), and whatever else it does, the table with these columns and
records is there afterwards (`Operation.Does.holds`). By induction on the calls it outlives every
history in which the calls that succeed spare it (`Database.holds_after`).
-/

namespace TableStore

namespace Tables

variable {t after : Tables} {table id other : Uuid} {columns : List Uuid} {records : List RecordRow}

/-- A table with some of its columns and records. -/
structure Holds (t : Tables) (table : Uuid) (columns : List Uuid) (records : List RecordRow) :
    Prop where
  isTable : t.IsEntry table .table
  columns : ∀ c ∈ columns, c ∈ t.columnOrder table
  records : ∀ r ∈ records, r ∈ t.records ∧ r.tableId = table

/-! ### What goes with entries -/

theorem Sound.notMem_subtree (hs : t.Sound) (h : ¬ t.AtOrBelow table id) :
    table ∉ t.subtree id := fun hmem => h (hs.mem_subtree.mp hmem).2

theorem Sound.notMem_ownedBy_of_ne (hs : t.Sound) {e : EntryRow} (he : t.entry? table = some e)
    (h : e.organizationId ≠ id) : table ∉ t.ownedBy id := fun hmem => by
  obtain ⟨f, hf, rfl, howner⟩ := mem_ownedBy.mp hmem
  rw [hs.entry?_of_mem hf] at he
  exact h (Option.some_inj.mp he ▸ howner)

end Tables

open Tables

namespace Operation

variable {env : Surroundings} {t after : Tables} {op : Operation} {table : Uuid}
  {columns : List Uuid} {records : List RecordRow}

/-- The operation does not delete a table, an entry above it, its organization, or one of some
columns. -/
def Spares (t : Tables) (table : Uuid) (columns : List Uuid) : Operation → Prop
  | .deleteEntry id => ¬ t.AtOrBelow table id
  | .deleteOrganization id => ∀ e, t.entry? table = some e → e.organizationId ≠ id
  | .deleteColumn _ column => column ∉ columns
  | _ => True

/-! ### One operation -/

/-- A table that is spared stays, with all its records. -/
theorem Does.keeps_table (hs : t.Sound) (h : op.Does env t after)
    (htable : t.IsEntry table .table) (hspares : op.Spares t table columns) :
    after.IsEntry table .table ∧ ∀ r ∈ t.records, r.tableId = table → r ∈ after.records := by
  have hdiscard : ∀ gone, table ∉ gone → (t.discard gone).IsEntry table .table ∧
      ∀ r ∈ t.records, r.tableId = table → r ∈ (t.discard gone).records := fun gone hgone =>
    ⟨(hs.isEntry_discard _).mpr ⟨htable, hgone⟩, fun r hr hown =>
      List.mem_filter.mpr ⟨hr, by simpa [hown] using hgone⟩⟩
  cases h with
  | deleteOrganization h =>
    obtain rfl := hs.dropOrganization_ok h
    obtain ⟨e, he, -⟩ := htable
    exact hdiscard _ (hs.notMem_ownedBy_of_ne he (hspares e he))
  | deleteEntry h =>
    obtain rfl := hs.dropEntry_ok h
    exact hdiscard _ (hs.notMem_subtree hspares)
  | createEntry _ _ _ _ h =>
    obtain ⟨hnew, -, -, -, rfl⟩ := storeEntry_ok h
    exact ⟨(isEntry_addEntry hnew rfl _).mpr (.inl htable), fun _ hr _ => hr⟩
  | moveEntry h =>
    obtain ⟨old, -, -, rfl, -⟩ := moveEntry_ok h
    exact ⟨(isEntry_modifyEntry (EntryRow.movedTo_id _ _) (fun _ => rfl) _).mpr htable,
      fun _ hr _ => hr⟩
  | updateProperties _ h =>
    obtain ⟨old, -, -, rfl⟩ := changeProperties_ok h
    exact ⟨(isEntry_modifyEntry (EntryRow.withProperties_id _ _) (fun _ => rfl) _).mpr htable,
      fun _ hr _ => hr⟩
  | insertRecords h =>
    obtain rfl := insertRecords_ok (storeRecords_ok h)
    exact ⟨htable, fun _ hr _ => List.mem_append_left _ hr⟩
  -- all the others leave the entries and the records alone
  | read => exact ⟨htable, fun _ hr _ => hr⟩
  | createOrganization h =>
    obtain ⟨-, rfl⟩ := storeOrganization_ok h
    exact ⟨htable, fun _ hr _ => hr⟩
  | renameOrganization h =>
    obtain rfl := renameOrganization_ok h
    exact ⟨htable, fun _ hr _ => hr⟩
  | createColumn _ _ _ h =>
    obtain ⟨-, -, rfl⟩ := storeColumn_ok h
    exact ⟨htable, fun _ hr _ => hr⟩
  | updateColumn _ _ _ h =>
    obtain ⟨old, -, -, rfl⟩ := changeColumn_ok h
    exact ⟨htable, fun _ hr _ => hr⟩
  | deleteColumn _ _ h =>
    obtain ⟨old, -, rfl⟩ := dropColumn_ok h
    exact ⟨htable, fun _ hr _ => hr⟩
  | reorderColumns => exact ⟨htable, fun _ hr _ => hr⟩

theorem landing_le (index : Option Int) (count : Nat) : landing index count ≤ count := by
  cases index with
  | none => exact Nat.le_refl _
  | some k => exact Nat.min_le_right _ _

/-- A column that is spared stays. -/
theorem Does.keeps_column (hs : t.Sound) (h : op.Does env t after)
    (htable : t.IsEntry table .table) (hspares : op.Spares t table columns) {c : Uuid}
    (hc : c ∈ columns) (hmem : c ∈ t.columnOrder table) : c ∈ after.columnOrder table := by
  rw [h.columnOrder hs (h.keeps_table hs htable hspares).1]
  cases h with
  | read hread => exact onColumns_of_isReading hread _ ▸ hmem
  | @createEntry organization type parent members definitions _ _ _ _ _ _ _ _ h =>
    obtain ⟨hnew, -⟩ := storeEntry_ok h
    cases type with
    | folder => exact hmem
    | table =>
      rw [onColumns, if_neg]
      · exact hmem
      · rintro rfl
        exact not_isEntry_of_none hnew _ htable
  | createColumn =>
    rw [onColumns]
    split
    · exact List.mem_insertIdx (landing_le _ _) |>.mpr (.inr hmem)
    · exact hmem
  | @updateColumn _ column changes =>
    rw [onColumns]
    split
    · refine (List.mem_insertIdx (Nat.le_trans (landing_le _ _) List.le_length_erase)).mpr ?_
      rw [or_iff_not_imp_left]
      exact fun hne => (List.mem_erase_of_ne hne).mpr hmem
    · exact hmem
  | @deleteColumn _ column =>
    have hne : c ≠ column := fun heq => absurd (heq ▸ hc) hspares
    rw [onColumns]
    split
    · exact (List.mem_erase_of_ne hne).mpr hmem
    · exact hmem
  | @reorderColumns _ requested =>
    rw [onColumns]
    split
    · rw [List.mem_append, List.mem_eraseDups, List.mem_filter, List.mem_filter]
      by_cases hr : c ∈ requested
      · exact .inl ⟨hr, List.contains_iff_mem.mpr hmem⟩
      · exact .inr ⟨hmem, by simpa using hr⟩
    · exact hmem
  | _ => exact hmem

/-- **What is spared outlives the operation.** -/
theorem Does.holds (hs : t.Sound) (h : op.Does env t after) (hspares : op.Spares t table columns)
    (hholds : t.Holds table columns records) : after.Holds table columns records := by
  obtain ⟨htable, hrecords⟩ := h.keeps_table hs hholds.isTable hspares
  exact ⟨htable, fun c hc => h.keeps_column hs hholds.isTable hspares hc (hholds.columns c hc),
    fun r hr => (hholds.records r hr).imp_left fun hmem => hrecords r hmem (hholds.records r hr).2⟩

end Operation

/-! ### Many calls -/

namespace Database

/-- The calls that succeed spare a table and some of its columns, each in the database that the ones
before it leave. -/
def SparedBy (table : Uuid) (columns : List Uuid) (db : Database) : List Call → Prop
  | [] => True
  | call :: rest =>
    (∀ reply, (db.perform call).result = .ok reply →
        call.operation.Spares db.tables table columns) ∧
      SparedBy table columns (db.perform call).state rest

variable {db : Database} {table : Uuid} {columns : List Uuid} {records : List RecordRow}

theorem holds_perform (hu : db.Usable) {call : Call}
    (hspares : ∀ reply, (db.perform call).result = .ok reply →
      call.operation.Spares db.tables table columns)
    (hholds : db.tables.Holds table columns records) :
    (db.perform call).state.tables.Holds table columns records := by
  cases h : (db.perform call).result with
  | error e =>
    rw [perform_error hu h]
    exact hholds
  | ok reply =>
    obtain ⟨t, hdoes, hstate⟩ := perform_ok hu h
    rw [hstate]
    exact hdoes.holds hu.sound (hspares reply h) hholds

/-- **What is spared outlives a history.** -/
theorem holds_after (hu : db.Usable) {later : List Call} (hspared : db.SparedBy table columns later)
    (hholds : db.tables.Holds table columns records) :
    (db.after later).tables.Holds table columns records := by
  induction later generalizing db with
  | nil => exact hholds
  | cons call rest ih =>
    exact ih (hu.perform call).1 hspared.2 (holds_perform hu hspared.1 hholds)

end Database
end TableStore
