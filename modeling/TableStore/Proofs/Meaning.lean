import TableStore.Catalog.Operation
import TableStore.Proofs.ColumnRequests
import TableStore.Proofs.EntryRequests
import TableStore.Proofs.Readers

/-!
# What operations mean

Every operation of the catalog as a plain function of the tables (`Operation.meaning`): a reply with
the tables that are left, or a failure. **Operations do what they mean**: on sound tables that can
be written, the program of an operation ends as its meaning says (`Operation.meets`), or, where a
guarded column refuses an index, fails and changes nothing. What is to be known of an operation can
be read off its meaning from here on; programs, requests and statements do not appear any more.
-/

namespace TableStore

namespace Meaning

variable (env : Surroundings) (t : Tables)

/-! ### Entries -/

/-- Whether a new entry of an organization can have this parent. One in another organization is as
good as missing. -/
def checkParent (organization : Uuid) : Option Uuid → Except CatalogError Unit
  | some id => do
    let folder ← t.readFolder id
    if folder.organizationId ≠ organization then .error (.entryNotFound id) else .ok ()
  | none => .ok ()

/-- Makes an entry. -/
def createEntry (organization : Uuid) (type : EntryType) (parent : Option Uuid)
    (properties : Members Json) (columns : List ColumnDefinition) :
    Except CatalogError (Entry × Tables) := do
  let properties ← Catalog.checkProperties properties
  let columns ← columns.mapM Catalog.checkDefinition
  let _ ← t.readOrganization organization
  checkParent t organization parent
  let stored := t.storeEntry organization type parent properties columns env.now env.fresh
  let stored := stored.mapError (CatalogError.ofCreation organization parent)
  andRead (andRead stored fun row _ => row.toEntry) fun entry after => after.withColumns entry

/-- A window of children that all have the same path. -/
def childrenPage (organization : Uuid) (folder : Option Uuid) (keys : List SortKey)
    (limit offset : Nat) (path : Bool) (above : List PathElement) :
    Except CatalogError ChildrenPage := do
  let page ← t.readChildren organization folder keys limit offset
  return ⟨if path then page.1.map fun e => { e with path := some above } else page.1, page.2⟩

/-- A window of the children of a root or a folder. -/
def listChildren (parent : Parent) (sort : List String) (offset : Nat) (limit : Option Nat)
    (path : Bool) : Except CatalogError ChildrenPage := do
  let keys ← (SortKey.readAll sort).mapError .invalidSort
  let limit ← Catalog.checkLimit env.limits limit
  let offset ← Catalog.checkOffset offset
  match parent with
  | .root organization => do
    let _ ← t.readOrganization organization
    childrenPage t organization none keys limit offset path []
  | .folder id => do
    let folder ← t.readFolder id
    childrenPage t folder.organizationId (some id) keys limit offset path
      (if path then t.pathTo folder.parent ++ [folder.toPathElement] else [])

/-- Whether a move of an entry would be accepted. -/
def validateMove (entry : Entry) : Option Uuid → Except CatalogError Unit
  | none => .ok ()
  | some destination =>
    if destination = entry.id then .error (.cycleDetected entry.id destination)
    else do
      let folder ← t.readFolder destination
      if folder.organizationId ≠ entry.organizationId then
        .error (.organizationMismatch entry.id destination)
      else if (t.pathTo folder.parent).any fun above => above.id == entry.id then
        .error (.cycleDetected entry.id destination)
      else .ok ()

/-- Moves an entry. -/
def moveEntry (id : Uuid) (destination : Option Uuid) : Except CatalogError (Entry × Tables) :=
  let moved := (t.moveEntry id destination env.now).mapError (CatalogError.entryMissing id)
  andRead (andRead moved fun row _ => row.toEntry) fun _ after => after.readWhole id false

/-- Changes the properties of an entry. -/
def updateProperties (id : Uuid) (properties : Members Json) :
    Except CatalogError (Entry × Tables) := do
  let update ← Catalog.checkUpdate properties
  let changed := (t.changeProperties id update env.now).mapError (CatalogError.entryMissing id)
  andRead (andRead changed fun row _ => row.toEntry) fun _ after => after.readWhole id false

/-! ### Columns and records -/

/-- Makes a column. -/
def createColumn (table : Uuid) (definition : ColumnDefinition) (index : Option Int) :
    Except CatalogError (Column × Tables) := do
  let index ← Catalog.checkIndex index
  let column ← Catalog.checkDefinition definition
  let _ ← t.readTable table
  let stored := (t.storeColumn table column index env.now (env.fresh 0)).mapError
    (CatalogError.ofColumnCreation table)
  andRead stored fun row _ => row.toColumn

/-- Changes a column of a table. -/
def updateColumn (table column : Uuid) (changes : ColumnChanges) :
    Except CatalogError (Column × Tables) := do
  let update ← Catalog.checkChanges changes
  let _ ← t.readTable table
  let _ ← t.readTableColumn table column
  let changed := (t.changeColumn column update env.now).mapError (CatalogError.columnMissing column)
  andRead changed fun row _ => row.toColumn

/-- Deletes a column of a table. -/
def deleteColumn (table column : Uuid) : Except CatalogError (Unit × Tables) := do
  let _ ← t.readTable table
  let _ ← t.readTableColumn table column
  (t.dropColumn column).mapError (CatalogError.columnMissing column)

/-- Brings the named columns of a table to the front. -/
def reorderColumns (table : Uuid) (columns : List Uuid) :
    Except CatalogError (List Column × Tables) := do
  let _ ← t.readTable table
  andRead (.ok (t.reorderColumns table columns)) fun rows _ => rows.mapM ColumnRow.toColumn

/-- Reads records as a plan says. -/
def selectRecords (plan : Query.SelectPlan) : Except CatalogError (Catalog.QueryResult × Tables) :=
  if Oversized plan then .error .storage
  else .ok (.rows ((t.selectRecords plan).map fun row => row.map Sql.Value.toJson), t)

/-- Carries out a query on the records of a table. -/
def executeQuery (table : Uuid) (document : Json) :
    Except CatalogError (Catalog.QueryResult × Tables) := do
  let query ← (Query.decode env.limits document).mapError CatalogError.ofQuery
  let _ ← t.readTable table
  let columns ← t.readColumns table
  let plan ← (Query.compile table columns env.now env.fresh query).mapError CatalogError.ofQuery
  match plan with
  | .insert plan =>
    asPart (fun _ => .inserted plan.recordIds)
      ((t.storeRecords plan).mapError CatalogError.ofStore)
  | .select plan => selectRecords t plan

variable {t} in
theorem selectRecords_ok {plan : Query.SelectPlan} {result : Catalog.QueryResult} {after : Tables}
    (h : selectRecords t plan = .ok (result, after)) :
    ¬ Oversized plan ∧ after = t ∧
      result = .rows ((t.selectRecords plan).map fun row => row.map Sql.Value.toJson) := by
  rw [selectRecords] at h
  split at h
  case isTrue => cases h
  case isFalse hsize =>
    obtain ⟨rfl, rfl⟩ := Prod.mk.inj (Except.ok.inj h)
    exact ⟨hsize, rfl, rfl⟩

variable {t} in
/-- A parent that passes the check is a folder of the organization. -/
theorem checkParent_ok (hs : t.Sound) {organization : Uuid} {parent : Option Uuid}
    (h : checkParent t organization parent = .ok ()) :
    t.CanHold organization parent := by
  rintro p rfl
  obtain ⟨folder, hfolder, h⟩ := bind_ok h
  obtain ⟨row, hrow, htype, rfl⟩ := hs.readFolder_ok hfolder
  refine ⟨row, hrow, htype, ?_⟩
  by_contra hne
  rw [if_pos (show (row.reread.entity .folder).organizationId ≠ organization from hne)] at h
  cases h

variable {t} in
theorem isParent_of_canHold (hs : t.Sound) {organization : Uuid} {parent : Option Uuid}
    (h : t.CanHold organization parent) : t.isParent parent = true := by
  cases parent with
  | none => rfl
  | some p =>
    obtain ⟨folder, hrow, htype, -⟩ := h p rfl
    exact List.contains_iff_mem.mpr ((hs.mem_folders p).mpr ⟨folder, hrow, htype⟩)

/-- Reading leaves the tables as they are. -/
def unchanged {α : Type} (f : α → Reply) (r : Except CatalogError α) :
    Except CatalogError (Reply × Tables) :=
  asPart f (r.map fun a => (a, t))

end Meaning

/-- The reply of a query. -/
def Reply.ofQuery : Catalog.QueryResult → Reply
  | .inserted ids => .inserted ids
  | .rows answer => .rows answer

/-- What an operation means: a reply with the tables that are left, or a failure. -/
def Operation.meaning (env : Surroundings) (t : Tables) :
    Operation → Except CatalogError (Reply × Tables)
  | .createOrganization name =>
    asPart .organization
      ((t.storeOrganization ⟨env.fresh 0, name, env.now, env.now⟩).mapError CatalogError.ofStore)
  | .getOrganization id => Meaning.unchanged t .organization (t.readOrganization id)
  | .listOrganizations =>
    Meaning.unchanged t .organizations (.ok (Tables.sortByKeys
      (fun o => [(.time o.createdAt, .asc), (.uuid o.id, .asc)]) t.organizations))
  | .renameOrganization id name =>
    asPart .organization
      ((t.renameOrganization id name env.now).mapError (CatalogError.organizationMissing id))
  | .deleteOrganization id =>
    asPart (fun _ => .nothing)
      ((t.dropOrganization id).mapError (CatalogError.organizationMissing id))
  | .createEntry organization type parent properties columns =>
    asPart .entry (Meaning.createEntry env t organization type parent properties columns)
  | .getEntry id path => Meaning.unchanged t .entry (t.readWhole id path)
  | .computePath id =>
    Meaning.unchanged t .path do return t.pathTo (← t.readEntry id).parent
  | .listChildren parent sort offset limit path =>
    Meaning.unchanged t .page (Meaning.listChildren env t parent sort offset limit path)
  | .validateMove id destination =>
    Meaning.unchanged t (fun _ => .nothing) do Meaning.validateMove t (← t.readEntry id) destination
  | .moveEntry id destination => asPart .entry (Meaning.moveEntry env t id destination)
  | .updateProperties id properties =>
    asPart .entry (Meaning.updateProperties env t id properties)
  | .deleteEntry id =>
    asPart (fun _ => .nothing) ((t.dropEntry id).mapError (CatalogError.entryMissing id))
  | .listColumns table =>
    Meaning.unchanged t .columns do
      let _ ← t.readTable table
      t.readColumns table
  | .createColumn table definition index =>
    asPart .column (Meaning.createColumn env t table definition index)
  | .updateColumn table column changes =>
    asPart .column (Meaning.updateColumn env t table column changes)
  | .deleteColumn table column =>
    asPart (fun _ => .nothing) (Meaning.deleteColumn t table column)
  | .reorderColumns table columns =>
    asPart .columns (Meaning.reorderColumns t table columns)
  | .query table document =>
    asPart Reply.ofQuery (Meaning.executeQuery env t table document)

/-! ### What has been written can be read -/

namespace Tables

variable {t after : Tables} {id table : Uuid} {now : Timestamp}

theorem storeEntry_toEntry {organization : Uuid} {type : EntryType} {parent : Option Uuid}
    {properties : Properties} {columns : List NewColumn} {fresh : Nat → Uuid} {row : EntryRow}
    (h : t.storeEntry organization type parent properties columns now fresh = .ok (row, after)) :
    row.toEntry = .ok (row.entity type) := by
  obtain ⟨-, -, -, rfl, -⟩ := storeEntry_ok h
  exact toEntry_of_type rfl

theorem Linked.moveEntry_toEntry (hl : t.Linked) {destination : Option Uuid} {row : EntryRow}
    (h : t.moveEntry id destination now = .ok (row, after)) : ∃ entry, row.toEntry = .ok entry := by
  obtain ⟨old, hold, rfl, -⟩ := moveEntry_ok h
  exact toEntry_ok (hl.entryType old (entry?_spec hold).1)

theorem Linked.moveEntry_readWhole (hl : t.Linked) {destination : Option Uuid} {row : EntryRow}
    (h : t.moveEntry id destination now = .ok (row, after)) :
    ∃ entry, after.readWhole id false = .ok entry := by
  have hlinked := hl.moveEntry h
  obtain ⟨old, hold, -, rfl, -⟩ := moveEntry_ok h
  exact hlinked.readWhole_ok false (entry?_modifyEntry_of_some (EntryRow.movedTo_id _ _) hold)

theorem Sound.changeProperties_toEntry (hs : t.Sound) {update : PropertiesUpdate} {row : EntryRow}
    (h : t.changeProperties id update now = .ok (row, after)) :
    ∃ entry, row.toEntry = .ok entry := by
  obtain ⟨old, hold, rfl, -⟩ := changeProperties_ok h
  exact toEntry_ok (hs.entryType old (entry?_spec hold).1)

theorem Sound.changeProperties_readWhole (hs : t.Sound) {update : PropertiesUpdate}
    {row : EntryRow} (h : t.changeProperties id update now = .ok (row, after)) :
    ∃ entry, after.readWhole id false = .ok entry := by
  have hsound := hs.changeProperties h
  obtain ⟨old, hold, -, rfl⟩ := changeProperties_ok h
  exact hsound.readWhole_ok false
    (entry?_modifyEntry_of_some (EntryRow.withProperties_id _ _) hold)

theorem storeColumn_toColumn {column : NewColumn} {index : Option Nat} {row : ColumnRow}
    (h : t.storeColumn table column index now id = .ok (row, after)) :
    ∃ c, row.toColumn = .ok c := by
  obtain ⟨-, rfl, -⟩ := storeColumn_ok h
  exact toColumn_ok ⟨column.type, rfl⟩

theorem Sound.changeColumn_toColumn (hs : t.Sound) {update : ColumnUpdate} {row : ColumnRow}
    (h : t.changeColumn id update now = .ok (row, after)) : ∃ c, row.toColumn = .ok c := by
  obtain ⟨old, hold, rfl, -⟩ := changeColumn_ok h
  exact toColumn_ok (revise_type update now old (hs.columnType old (column?_spec hold).1))

theorem Sound.reorderColumns_toColumn (hs : t.Sound) {columns : List Uuid} {rows : List ColumnRow}
    (h : t.reorderColumns table columns = (rows, after)) :
    ∃ cs, rows.mapM ColumnRow.toColumn = .ok cs := by
  obtain ⟨rfl, rfl⟩ := Prod.mk.inj h
  exact (hs.reorderColumns columns).readColumns_ok table

end Tables

/-! ### Operations do what they mean -/

section Meets

open Program

variable {db : Database} (hs : db.tables.Sound) (hw : db.readOnly = false) (env : Surroundings)

/-- A program that only reads leaves the tables. -/
theorem meets_unchanged {α : Type} {p : Program α} {r : Except CatalogError α} (f : α → Reply)
    (h : p.Reads db r) :
    (p >>= fun a => pure (f a)).Meets db (Meaning.unchanged db.tables f r) :=
  (Meets.of_reads h).as_part fun a _ => ends_pure (f a)

/-- Programs that check a parent before anything else. -/
theorem meets_checkParent {α : Type} {organization : Uuid} {k : Unit → Program α}
    {m : Except CatalogError (α × Tables)} (parent : Option Uuid)
    (hk : Meaning.checkParent db.tables organization parent = .ok () → (k ()).Meets db m) :
    Program.Meets (match parent with
      | some id => do
        let folder ← Catalog.getFolder id
        if folder.organizationId ≠ organization then do
          let r ← Program.fail (.entryNotFound id)
          k r
        else k ()
      | none => k ()) db (Meaning.checkParent db.tables organization parent >>= fun _ => m) := by
  cases parent with
  | none => exact hk rfl
  | some id =>
    rw [Meaning.checkParent, bind_assoc]
    refine Meets.bind_reads reads_getFolder fun folder hfolder => ?_
    rw [Meaning.checkParent, hfolder] at hk
    by_cases howner : folder.organizationId ≠ organization
    · rw [if_pos howner, if_pos howner]
      exact .inl (Ends.bind_error (ends_fail _))
    · rw [if_neg howner, if_neg howner]
      exact hk (if_neg howner)

include hs

theorem reads_validateMove (entry : Entry) (destination : Option Uuid) :
    (Catalog.validateMove entry destination).Reads db
      (Meaning.validateMove db.tables entry destination) := by
  cases destination with
  | none => exact .pure ()
  | some destination =>
    refine .ite (fun _ => .fail _) fun _ => reads_getFolder.bind fun folder hfolder => ?_
    refine .ite (fun _ => Ends.bind_error (ends_fail _)) fun _ => ?_
    obtain ⟨row, hrow, hparent⟩ :=
      hs.exists_of_readEntry (Tables.Sound.readEntry_of_readFolder hfolder)
    exact (reads_pathOf hs hrow hparent).bind fun _ _ => .ite (fun _ => .fail _) fun _ => .pure ()

omit hs in
theorem reads_childrenPage (organization : Uuid) (folder : Option Uuid) (keys : List SortKey)
    (limit offset : Nat) (path : Bool) (above : List PathElement) :
    Program.Reads (do
      let (entries, total) ← Stored.listChildren organization folder keys offset limit
      let entries := if path then entries.map fun e => { e with path := some above } else entries
      return (⟨entries, total⟩ : ChildrenPage)) db
      (Meaning.childrenPage db.tables organization folder keys limit offset path above) :=
  (reads_listChildren organization folder keys limit offset).bind fun _ _ => .pure _

theorem reads_children (parent : Parent) (sort : List String) (offset : Nat)
    (limit : Option Nat) (path : Bool) :
    (Catalog.listChildren env parent sort offset limit path).Reads db
      (Meaning.listChildren env db.tables parent sort offset limit path) := by
  refine (Reads.ofExcept _).bind fun keys _ => (Reads.ofExcept_id _).bind fun limit _ =>
    (Reads.ofExcept_id _).bind fun offset _ => ?_
  cases parent with
  | root organization =>
    exact reads_getOrganization.bind fun _ _ =>
      reads_childrenPage organization none keys limit offset path []
  | folder id =>
    refine reads_getFolder.bind fun folder hfolder => ?_
    obtain ⟨row, hrow, hparent⟩ :=
      hs.exists_of_readEntry (Tables.Sound.readEntry_of_readFolder hfolder)
    cases path with
    | false => exact reads_childrenPage _ (some id) keys limit offset false []
    | true =>
      exact Ends.bind (reads_pathOf hs hrow hparent)
        (reads_childrenPage _ (some id) keys limit offset true _)

include hw

/-- A new entry is stored as a whole, and read with its columns. -/
theorem meets_createEntry (organization : Uuid) (type : EntryType) (parent : Option Uuid)
    (properties : Members Json) (columns : List ColumnDefinition) :
    (Catalog.createEntry env organization type parent properties columns).Meets db
      (Meaning.createEntry env db.tables organization type parent properties columns) := by
  refine Meets.bind_reads (.ofExcept_id _) fun properties _ =>
    Meets.bind_reads (.ofExcept_id _) fun columns _ =>
      Meets.bind_reads reads_getOrganization fun owner howner => ?_
  refine meets_checkParent parent fun hparent => ?_
  -- what has been read before is what the store asks of the organization and the parent
  have hfound := Tables.readOrganization_ok howner
  have hfolder := Meaning.checkParent_ok hs hparent
  have hserved := serves_createEntry hs hw type properties columns env.now env.fresh
    (Option.isSome_iff_exists.mpr ⟨owner, hfound⟩) (Meaning.isParent_of_canHold hs hfolder)
  refine Meets.and_reads (Meets.and_reads (Meets.request hserved rfl) fun row after hrow =>
    ⟨.ofExcept_id _, _, Tables.storeEntry_toEntry (mapError_ok hrow)⟩) fun entry after hentry => ?_
  · obtain ⟨row, hrow, hread⟩ := andRead_ok hentry
    have hsound := hs.storeEntry ⟨owner, hfound⟩ hfolder (mapError_ok hrow)
    obtain rfl := Except.ok.inj
      (hread.symm.trans (Tables.storeEntry_toEntry (mapError_ok hrow)))
    refine ⟨?_, hsound.withColumns_ok _⟩
    refine Ends.bind (ends_note _ _) ?_
    cases type with
    | folder => exact ends_pure _
    | table => exact reads_listColumns.bind fun columns _ => .pure _

omit hs in
/-- A move ends as it means, whether or not ways up lead to roots. -/
theorem ends_moveEntry (hl : db.tables.Linked) (id : Uuid) (destination : Option Uuid) :
    (Catalog.moveEntry env id destination).Ends db
      (answerOf (Meaning.moveEntry env db.tables id destination))
      (db.left (Meaning.moveEntry env db.tables id destination)) := by
  have hserved : db.serve (Request.moveEntry id destination env.now) = _ :=
    serve_moveEntry hl hw destination
  cases hm : db.tables.moveEntry id destination env.now with
  | error e =>
    rw [hm] at hserved
    rw [Meaning.moveEntry, hm]
    exact Ends.bind_error (Ends.bind_error (ends_request hserved))
  | ok x =>
    obtain ⟨row, after⟩ := x
    obtain ⟨entry, hentry⟩ := hl.moveEntry_toEntry hm
    obtain ⟨whole, hwhole⟩ := hl.moveEntry_readWhole hm
    have hvalue : Meaning.moveEntry env db.tables id destination = .ok (whole, after) := by
      simp only [Meaning.moveEntry, hm, Except.mapError, andRead, Bind.bind, Except.bind, hentry,
        Except.map, hwhole]
    have hstored : (Stored.moveEntry id destination env.now).Ends db (.ok entry)
        { db with tables := after } := by
      rw [hm] at hserved
      refine Ends.bind (ends_request hserved) ?_
      exact hentry ▸ Reads.ofExcept_id row.toEntry
    have hread : (Catalog.getEntry id false).Reads { db with tables := after }
        (after.readWhole id false) :=
      reads_getEntry.bind fun entry _ => (reads_withColumns entry).bind fun whole _ => .pure whole
    rw [hwhole] at hread
    rw [hvalue]
    exact Ends.bind hstored (Ends.bind (ends_note _ _) hread)

theorem meets_updateProperties (id : Uuid) (properties : Members Json) :
    (Catalog.updateProperties env id properties).Meets db
      (Meaning.updateProperties env db.tables id properties) := by
  refine Meets.bind_reads (.ofExcept_id _) fun update _ => ?_
  have hserved : db.Serves (Request.updateEntryProperties id update env.now) _ :=
    serves_updateEntryProperties hw update
  refine Meets.and_reads (Meets.and_reads (Meets.request hserved rfl) fun row after hrow =>
    ⟨.ofExcept_id _, hs.changeProperties_toEntry (mapError_ok hrow)⟩) fun entry after hentry => ?_
  obtain ⟨row, hrow, -⟩ := andRead_ok hentry
  exact ⟨reads_getWhole (hs.changeProperties (mapError_ok hrow)) false,
    hs.changeProperties_readWhole (mapError_ok hrow)⟩

theorem meets_createColumn (table : Uuid) (definition : ColumnDefinition) (index : Option Int) :
    (Catalog.createColumn env table definition index).Meets db
      (Meaning.createColumn env db.tables table definition index) := by
  refine Meets.bind_reads (.ofExcept_id _) fun index _ => Meets.bind_reads (.ofExcept_id _)
    fun column _ => Meets.bind_reads reads_requireTable fun entry hentry => ?_
  have hserved : db.Serves (Request.createColumn table column index env.now (env.fresh 0)) _ :=
    serves_createColumn hs hw column index (hs.readTable_ok hentry)
  exact Meets.and_then (Meets.and_reads (Meets.request hserved rfl) fun row after hrow =>
    ⟨.ofExcept_id _, Tables.storeColumn_toColumn (mapError_ok hrow)⟩)
    fun c _ => Ends.bind (ends_note _ _) (ends_pure c)

theorem meets_updateColumn (table column : Uuid) (changes : ColumnChanges) :
    (Catalog.updateColumn env table column changes).Meets db
      (Meaning.updateColumn env db.tables table column changes) := by
  refine Meets.bind_reads (.ofExcept_id _) fun update _ => Meets.bind_reads reads_requireTable
    fun entry _ => Meets.bind_reads reads_tableColumn fun c _ => ?_
  have hserved : db.Serves (Request.updateColumn column update env.now) _ :=
    serves_updateColumn hs hw update
  exact Meets.and_reads (Meets.request hserved rfl) fun row after hrow =>
    ⟨.ofExcept_id _, hs.changeColumn_toColumn (mapError_ok hrow)⟩

theorem meets_deleteColumn (table column : Uuid) :
    (Catalog.deleteColumn table column).Meets db
      (Meaning.deleteColumn db.tables table column) := by
  refine Meets.bind_reads reads_requireTable fun entry _ =>
    Meets.bind_reads reads_tableColumn fun c _ => ?_
  have hserved : db.Serves (Request.deleteColumn column) _ := serves_deleteColumn hs hw
  exact Meets.and_then (Meets.request hserved rfl) fun _ _ => ends_note _ _

theorem meets_reorderColumns (table : Uuid) (columns : List Uuid) :
    (Catalog.reorderColumns table columns).Meets db
      (Meaning.reorderColumns db.tables table columns) := by
  refine Meets.bind_reads reads_requireTable fun entry _ => ?_
  have hserved : db.Serves (Request.reorderColumns table columns) _ :=
    serves_reorderColumns hs hw columns
  exact Meets.and_reads (Meets.request hserved rfl) fun rows after hrows =>
    ⟨.ofExcept_id _, hs.reorderColumns_toColumn (Except.ok.inj hrows)⟩

omit hs in
theorem meets_executeQuery (table : Uuid) (document : Json) :
    (Catalog.executeQuery env table document).Meets db
      (Meaning.executeQuery env db.tables table document) := by
  refine Meets.bind_reads (.ofExcept _) fun query _ => Meets.bind_reads reads_requireTable
    fun entry _ => Meets.bind_reads reads_listColumns fun columns _ =>
      Meets.bind_reads (.ofExcept _) fun plan _ => ?_
  refine Meets.after_note ?_
  cases plan with
  | insert plan =>
    have hserved : db.Serves (Request.insertRecords plan) _ := serves_insertRecords hw plan
    exact (Meets.request hserved rfl).as_part fun _ _ => Ends.bind (ends_note _ _) (ends_pure _)
  | select plan =>
    have hread : (Stored.selectRecords plan).Reads db _ := Reads.request (serve_selectRecords plan)
    have hmeets := Meets.of_reads
      (hread.bind fun rows _ => .pure (Catalog.QueryResult.rows rows))
    simp only [Meaning.selectRecords]
    by_cases hsize : Oversized plan
    · rw [if_pos hsize] at hmeets ⊢
      exact hmeets
    · rw [if_neg hsize] at hmeets ⊢
      exact hmeets

/-- **Operations do what they mean.** On sound tables that can be written, an operation ends as its
meaning says, or is refused by a guarded column and changes nothing. -/
theorem Operation.meets (op : Operation) :
    (op.program env).Meets db (op.meaning env db.tables) := by
  cases op with
  | createOrganization name =>
    have hserved : db.Serves (Request.createOrganization (env.fresh 0) name env.now) _ :=
      serves_createOrganization hw (env.fresh 0) name env.now
    exact (Meets.request hserved rfl).as_part fun _ _ => ends_pure _
  | getOrganization id => exact meets_unchanged .organization reads_getOrganization
  | listOrganizations =>
    have hread : Stored.listOrganizations.Reads db _ := Reads.request serve_listOrganizations
    exact meets_unchanged .organizations hread
  | renameOrganization id name =>
    have hserved : db.Serves (Request.renameOrganization id name env.now) _ :=
      serves_renameOrganization hw id name env.now
    exact (Meets.request hserved rfl).as_part fun _ _ => ends_pure _
  | deleteOrganization id =>
    have hserved : db.Serves (Request.deleteOrganization id) _ := serves_deleteOrganization hw id
    exact (Meets.request hserved rfl).as_part fun _ _ => ends_pure _
  | createEntry organization type parent properties columns =>
    exact (meets_createEntry hs hw env organization type parent properties columns).as_part
      fun _ _ => ends_pure _
  | getEntry id path => exact meets_unchanged .entry (reads_getWhole hs path)
  | computePath id =>
    refine meets_unchanged .path (reads_getEntry.bind fun entry hentry => ?_)
    obtain ⟨row, hrow, hparent⟩ := hs.exists_of_readEntry hentry
    exact reads_pathOf hs hrow hparent
  | listChildren parent sort offset limit path =>
    exact meets_unchanged .page (reads_children hs env parent sort offset limit path)
  | validateMove id destination =>
    have hread : (Operation.program env (.validateMove id destination)).Reads db
        (db.tables.readEntry id >>= fun entry =>
          Meaning.validateMove db.tables entry destination >>= fun _ => .ok .nothing) :=
      reads_getEntry.bind fun entry _ =>
        (reads_validateMove hs entry destination).bind fun _ _ => .pure _
    -- the program checks and then replies, its meaning checks both in one
    have hmeaning : Operation.meaning env db.tables (.validateMove id destination) =
        (db.tables.readEntry id >>= fun entry =>
          Meaning.validateMove db.tables entry destination >>= fun _ => .ok .nothing).map
            fun reply => (reply, db.tables) := by
      simp only [Operation.meaning, Meaning.unchanged]
      cases db.tables.readEntry id with
      | error e => rfl
      | ok entry =>
        change asPart (fun _ => Reply.nothing)
            ((Meaning.validateMove db.tables entry destination).map fun a => (a, db.tables)) =
          (Meaning.validateMove db.tables entry destination >>= fun _ =>
            Except.ok Reply.nothing).map fun reply => (reply, db.tables)
        cases Meaning.validateMove db.tables entry destination <;> rfl
    exact hmeaning ▸ Meets.of_reads hread
  | moveEntry id destination =>
    have hmoved : (Catalog.moveEntry env id destination).Meets db _ :=
      .inl (ends_moveEntry hw env hs.linked id destination)
    exact hmoved.as_part fun _ _ => ends_pure _
  | updateProperties id properties =>
    exact (meets_updateProperties hs hw env id properties).as_part fun _ _ => ends_pure _
  | deleteEntry id =>
    have hserved : db.Serves (Request.deleteEntry id) _ := serves_deleteEntry hw
    exact (Meets.and_then (Meets.request hserved rfl) fun _ _ => ends_note _ _).as_part
      fun _ _ => ends_pure _
  | listColumns table =>
    exact meets_unchanged .columns (reads_requireTable.bind fun _ _ => reads_listColumns)
  | createColumn table definition index =>
    exact (meets_createColumn hs hw env table definition index).as_part fun _ _ => ends_pure _
  | updateColumn table column changes =>
    exact (meets_updateColumn hs hw env table column changes).as_part fun _ _ => ends_pure _
  | deleteColumn table column =>
    exact (meets_deleteColumn hs hw table column).as_part fun _ _ => ends_pure _
  | reorderColumns table columns =>
    exact (meets_reorderColumns hs hw table columns).as_part fun _ _ => ends_pure _
  | query table document =>
    refine (meets_executeQuery hw env table document).as_part fun r _ => ?_
    cases r <;> exact ends_pure _

end Meets
end TableStore
