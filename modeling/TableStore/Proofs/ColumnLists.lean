import TableStore.Proofs.Failures
import TableStore.Proofs.History

/-!
# Columns as plain lists

The columns of a table, by index, are a plain list of identifiers, and `Operation.onColumns` says
what a successful operation makes of this list: inserting, erasing, putting the named members in
front. `Operation.Does.columnOrder` shows that the stored rows follow the list, one case for each
thing that operations do; the indices stay the numbers from zero on because the tables stay sound.
The operations that change lists do succeed, under `Operation.OrderAccepted`.

**Stored columns are lists.** After every history the rows of a table are numbered without gaps, and
one more call changes their list as the plain list operation does, or not at all
(`Database.columns_are_lists`).
-/

namespace TableStore

/-- Where a column lands that is asked for an index among so many others: past the end, or without
an index, it is the end. -/
def landing (index : Option Int) (count : Nat) : Nat :=
  match index with
  | some k => min k.toNat count
  | none => count

/-- The list of the columns of a table after an operation that succeeds and does not delete the
table, given the list before it. -/
def Operation.onColumns (env : Surroundings) (table : Uuid) (l : List Uuid) : Operation → List Uuid
  | .createEntry _ .table _ _ definitions =>
    if table = env.fresh 0 then (List.range definitions.length).map fun i => env.fresh (i + 1)
    else l
  | .createColumn owner _ index =>
    if table = owner then l.insertIdx (landing index l.length) (env.fresh 0) else l
  | .updateColumn owner column changes =>
    if table = owner ∧ changes.index.isSome then
      (l.erase column).insertIdx (landing changes.index (l.length - 1)) column
    else l
  | .deleteColumn owner column => if table = owner then l.erase column else l
  | .reorderColumns owner requested =>
    if table = owner then
      (requested.filter fun c => l.contains c).eraseDups ++ l.filter fun c => !requested.contains c
    else l
  | _ => l

/-- What has to hold for an operation that changes the list of a table to succeed. -/
def Operation.OrderAccepted (env : Surroundings) (t : Tables) : Operation → Prop
  | .createEntry organization .table parent members definitions =>
    (∃ p, Catalog.checkProperties members = .ok p) ∧
      (∀ d ∈ definitions, ∃ c, Catalog.checkDefinition d = .ok c) ∧
      (∃ o, t.organization? organization = some o) ∧ t.CanHold organization parent ∧
      t.entry? (env.fresh 0) = none ∧
      (t.columns.map ColumnRow.id ++
        (List.range definitions.length).map fun i => env.fresh (i + 1)).Nodup
  | .createColumn table definition index =>
    (∃ k, Catalog.checkIndex index = .ok k) ∧ (∃ c, Catalog.checkDefinition definition = .ok c) ∧
      t.IsEntry table .table ∧ t.column? (env.fresh 0) = none
  | .updateColumn table column changes =>
    (∃ u, Catalog.checkChanges changes = .ok u) ∧ t.IsEntry table .table ∧
      column ∈ t.columnOrder table
  | .deleteColumn table column => t.IsEntry table .table ∧ column ∈ t.columnOrder table
  | .reorderColumns table _ => t.IsEntry table .table
  | _ => False

namespace Tables

variable {t after : Tables} {table other : Uuid} {now : Timestamp}

/-! ### Lists after changes -/

/-- An order that is written is the order of the table. -/
theorem columnOrder_withOrder {target : ColumnOrder} (hn : target.Nodup)
    (hp : ((t.rowsOf table).map ColumnRow.id).Perm target) :
    (t.withOrder table target).columnOrder table = target :=
  (ordered_withOrder hp hn).columnOrder_eq

theorem columnOrder_withOrder_of_ne {target : ColumnOrder} (hne : other ≠ table) :
    (t.withOrder table target).columnOrder other = t.columnOrder other :=
  columnOrder_congr (rowsOf_withOrder_of_ne hne)

theorem columnOrder_discard {gone : List Uuid} (h : table ∉ gone) :
    (t.discard gone).columnOrder table = t.columnOrder table :=
  columnOrder_congr (rowsOf_discard.trans (if_neg h))

theorem Sound.columnOrder_modifyColumn (hs : t.Sound) {id : Uuid} (f : ColumnRow → ColumnRow)
    (hid : ∀ c, (f c).id = c.id) (htable : ∀ c, (f c).tableId = c.tableId)
    (hindex : ∀ c, (f c).index = c.index) :
    (t.modifyColumn id f).columnOrder table = t.columnOrder table :=
  (ordered_modifyColumn f hid htable hindex (hs.ordered table)).columnOrder_eq

/-- What is no table has no columns. -/
theorem Sound.columnOrder_eq_nil (hs : t.Sound) (h : ¬ t.IsEntry table .table) :
    t.columnOrder table = [] :=
  List.length_eq_zero_iff.mp ((columnOrder_perm.length_eq).trans (by simp [hs.rowsOf_eq_nil h]))

theorem columnRows_sorted {fresh : Nat → Uuid} (columns : List NewColumn) (position : Nat) :
    (columnRows table now fresh position columns).Pairwise fun a b => a.index ≤ b.index := by
  induction columns generalizing position with
  | nil => exact List.Pairwise.nil
  | cons c rest ih =>
    refine List.pairwise_cons.mpr ⟨fun d hd => ?_, ih (position + 1)⟩
    obtain ⟨-, -, i, -, -, hindex⟩ := columnRows_spec hd
    rw [hindex]
    show (position : Int) ≤ ((position + 1 + i : Nat) : Int)
    omega

theorem map_name_columnRows {fresh : Nat → Uuid} (columns : List NewColumn) (position : Nat) :
    (columnRows table now fresh position columns).map ColumnRow.name =
      columns.map NewColumn.name := by
  induction columns generalizing position with
  | nil => rfl
  | cons c rest ih => simp [columnRows, ih]

/-- A new table has the columns it was made with, in their order. -/
theorem Sound.columnsOf_storeEntry (hs : t.Sound) {organization : Uuid} {type : EntryType}
    {parent : Option Uuid} {properties : Properties} {columns : List NewColumn} {row : EntryRow}
    {fresh : Nat → Uuid}
    (h : t.storeEntry organization type parent properties columns now fresh = .ok (row, after)) :
    after.columnsOf table =
      if table = fresh 0 then columnRows (fresh 0) now (fun i => fresh (i + 1)) 0 columns
      else t.columnsOf table := by
  obtain ⟨hnew, -, -, -, rfl⟩ := storeEntry_ok h
  have htables : ∀ c ∈ columnRows (fresh 0) now (fun i => fresh (i + 1)) 0 columns,
      c.tableId = fresh 0 := fun c hc => (columnRows_spec hc).1
  split
  case isTrue h =>
    subst h
    -- the new rows stand in the order of their indices already, so sorting keeps them
    have hrows : (t.addEntry ⟨fresh 0, organization, type.name, parent, properties, now, now⟩ type
        (columnRows (fresh 0) now (fun i => fresh (i + 1)) 0 columns)).rowsOf (fresh 0) = _ :=
      rowsOf_addEntry_self hs hnew htables
    rw [rowsOf] at hrows
    rw [columnsOf, hrows]
    exact List.mergeSort_of_pairwise ((columnRows_sorted columns 0).imp fun h => by simpa using h)
  case isFalse h => exact columnsOf_congr (rowsOf_addEntry_of_ne htables h)

theorem Sound.columnOrder_storeColumn (hs : t.Sound) {id : Uuid} {column : NewColumn}
    {index : Option Nat} {row : ColumnRow}
    (h : t.storeColumn other column index now id = .ok (row, after)) :
    after.columnOrder table =
      if table = other then
        (t.columnOrder table).insertIdx
          (ColumnOrder.clampPosition index (t.columnOrder table).length) id
      else t.columnOrder table := by
  obtain ⟨hnew, -, rfl⟩ := storeColumn_ok h
  have hmem : id ∉ t.columnOrder other := hs.notMem_columnOrder hnew
  split
  case isTrue h =>
    subst h
    rw [← ColumnOrder.place_of_notMem hmem]
    exact columnOrder_withOrder (ColumnOrder.nodup_place (hs.ordered table).nodup)
      (addColumn_perm (ColumnOrder.place_perm_append hmem))
  case isFalse h =>
    exact (columnOrder_withOrder_of_ne h).trans (columnOrder_congr (rowsOf_append_of_ne h))

theorem Sound.columnOrder_changeColumn (hs : t.Sound) {id : Uuid} {update : ColumnUpdate}
    {row old : ColumnRow} (h : t.changeColumn id update now = .ok (row, after))
    (hold : t.column? id = some old) :
    after.columnOrder table =
      if table = old.tableId ∧ update.index.isSome then
        ((t.columnOrder table).erase id).insertIdx
          (ColumnOrder.clampPosition update.index ((t.columnOrder table).length - 1)) id
      else t.columnOrder table := by
  obtain ⟨found, hfound, -, rfl⟩ := changeColumn_ok h
  obtain rfl := Option.some_inj.mp (hfound.symm.trans hold)
  have hkeep : ∀ table, (t.modifyColumn id (update.revise now found)).columnOrder table =
      t.columnOrder table := fun table =>
    hs.columnOrder_modifyColumn (update.revise now found) (fun _ => rfl) (fun _ => rfl) fun _ => rfl
  by_cases htable : table = found.tableId
  · subst htable
    have hp := orderAfter_perm hs hold update.index
    have hn := (hs.ordered found.tableId).nodup
    have hafter : ((t.modifyColumn id (update.revise now found)).withOrder found.tableId
        (t.orderAfter found update.index)).columnOrder found.tableId =
          t.orderAfter found update.index :=
      columnOrder_withOrder (hp.nodup_iff.mpr hn)
        (columnOrder_perm.symm.trans ((List.Perm.of_eq (hkeep _)).trans hp.symm))
    rw [hafter, orderAfter, (column?_spec hold).2,
      ColumnOrder.place_of_mem hn (mem_columnOrder hold)]
    simp
  · rw [if_neg fun h => htable h.1, columnOrder_withOrder_of_ne htable, hkeep]

theorem Sound.columnOrder_dropColumn (hs : t.Sound) {id : Uuid} {u : Unit} {old : ColumnRow}
    (h : t.dropColumn id = .ok (u, after)) (hold : t.column? id = some old) :
    after.columnOrder table =
      if table = old.tableId then (t.columnOrder table).erase id else t.columnOrder table := by
  obtain ⟨found, hfound, rfl⟩ := dropColumn_ok h
  obtain rfl := Option.some_inj.mp (hfound.symm.trans hold)
  obtain ⟨-, rfl⟩ := column?_spec hold
  split
  case isTrue h =>
    subst h
    exact columnOrder_withOrder ((hs.ordered _).nodup.erase _) (deleteColumn_perm (hs.ordered _))
  case isFalse h =>
    exact (columnOrder_withOrder_of_ne h).trans
      (columnOrder_congr (hs.rowsOf_deleteColumn_of_ne hold h))

theorem Sound.columnOrder_reorderColumns (hs : t.Sound) (columns : List Uuid) :
    (t.reorderColumns other columns).2.columnOrder table =
      if table = other then
        (columns.filter fun c => (t.columnOrder table).contains c).eraseDups ++
          (t.columnOrder table).filter fun c => !columns.contains c
      else t.columnOrder table := by
  split
  case isTrue h =>
    subst h
    rw [← ColumnOrder.reorder_eq]
    exact columnOrder_withOrder (ColumnOrder.nodup_reorder (hs.ordered table).nodup)
      (columnOrder_perm.symm.trans (ColumnOrder.reorder_perm (hs.ordered table).nodup).symm)
  case isFalse h => exact columnOrder_withOrder_of_ne h

end Tables

open Tables

/-! ### Lists after operations -/

namespace Operation

variable {env : Surroundings} {t after : Tables} {op : Operation} {table : Uuid}

theorem onColumns_of_isReading (h : op.isReading = true) (l : List Uuid) :
    op.onColumns env table l = l := by
  cases op <;> first | rfl | cases h

/-- The position that an index asks for is where the column lands. -/
theorem clampPosition_of_checkIndex {index : Option Int} {position : Option Nat}
    (h : Catalog.checkIndex index = .ok position) (count : Nat) :
    ColumnOrder.clampPosition position count = landing index count ∧
      position.isSome = index.isSome := by
  match index with
  | none =>
    obtain rfl := Except.ok.inj h
    exact ⟨rfl, rfl⟩
  | some (.ofNat n) =>
    obtain rfl := Except.ok.inj h
    exact ⟨rfl, rfl⟩
  | some (.negSucc n) => cases h

/-- Definitions keep their names. -/
theorem name_of_checkDefinitions {definitions : List ColumnDefinition} {columns : List NewColumn}
    (h : definitions.mapM Catalog.checkDefinition = .ok columns) :
    columns.map NewColumn.name = definitions.map ColumnDefinition.name :=
  map_of_mapM_ok _ _ (fun _ _ hc => (Catalog.checkDefinition_ok hc).1) h

theorem columnOrder_storeEntry (hs : t.Sound) {organization : Uuid} {type : EntryType}
    {parent : Option Uuid} {properties : Properties} {columns : List NewColumn} {row : EntryRow}
    (h : t.storeEntry organization type parent properties columns env.now env.fresh =
      .ok (row, after)) :
    after.columnOrder table =
      if table = env.fresh 0 then (List.range columns.length).map fun i => env.fresh (i + 1)
      else t.columnOrder table := by
  rw [Tables.columnOrder, hs.columnsOf_storeEntry h]
  split
  · rw [map_id_columnRows, List.range_eq_range']
  · rfl

/-- **Stored columns follow the list.** -/
theorem Does.columnOrder (hs : t.Sound) (h : op.Does env t after)
    (htable : after.IsEntry table .table) :
    after.columnOrder table = op.onColumns env table (t.columnOrder table) := by
  cases h with
  | read hread => rw [onColumns_of_isReading hread]
  | createOrganization h =>
    obtain ⟨-, rfl⟩ := storeOrganization_ok h
    exact columnOrder_congr rfl
  | renameOrganization h =>
    obtain rfl := renameOrganization_ok h
    exact columnOrder_congr rfl
  | deleteOrganization h =>
    obtain rfl := hs.dropOrganization_ok h
    exact columnOrder_discard ((hs.isEntry_discard _).mp htable).2
  | @createEntry organization type parent members definitions properties columns row after _
      hcolumns _ _ h =>
    rw [columnOrder_storeEntry hs h]
    cases type with
    | folder =>
      -- a new folder is no table
      refine if_neg fun hself => ?_
      obtain ⟨hnew, -, -, -, rfl⟩ := storeEntry_ok h
      rcases (isEntry_addEntry hnew rfl _).mp htable with hold | ⟨-, hne⟩
      · exact not_isEntry_of_none hnew _ (hself ▸ hold)
      · cases hne
    | table =>
      rw [length_of_mapM_ok hcolumns]
      rfl
  | moveEntry h =>
    obtain ⟨old, -, -, rfl, -⟩ := moveEntry_ok h
    exact columnOrder_congr rfl
  | updateProperties _ h =>
    obtain ⟨old, -, -, rfl⟩ := changeProperties_ok h
    exact columnOrder_congr rfl
  | deleteEntry h =>
    obtain rfl := hs.dropEntry_ok h
    exact columnOrder_discard ((hs.isEntry_discard _).mp htable).2
  | createColumn hindex _ _ h =>
    rw [hs.columnOrder_storeColumn h, (clampPosition_of_checkIndex hindex _).1]
    rfl
  | updateColumn hupdate hold hown h =>
    obtain ⟨hlanding, hsome⟩ :=
      clampPosition_of_checkIndex (Catalog.checkChanges_ok hupdate).1 _
    rw [hs.columnOrder_changeColumn h hold, hown, hlanding, hsome]
    rfl
  | deleteColumn hold hown h =>
    rw [hs.columnOrder_dropColumn h hold, hown]
    rfl
  | reorderColumns => exact hs.columnOrder_reorderColumns _
  | insertRecords h =>
    obtain ⟨-, rows, rfl⟩ := hs.insertRecords _ (storeRecords_ok h)
    exact columnOrder_congr rfl

/-- The columns of a new table have the names they were given. -/
theorem Does.map_name_columnsOf (hs : t.Sound) {organization : Uuid} {type : EntryType}
    {parent : Option Uuid} {members : Members Json} {definitions : List ColumnDefinition}
    (h : (Operation.createEntry organization type parent members definitions).Does env t after) :
    (after.columnsOf (env.fresh 0)).map ColumnRow.name =
      definitions.map ColumnDefinition.name := by
  cases h with
  | read hread => cases hread
  | createEntry _ hcolumns _ _ h =>
    rw [hs.columnsOf_storeEntry h, if_pos rfl, map_name_columnRows,
      name_of_checkDefinitions hcolumns]

/-! ### Success -/

/-- An operation on a list that is accepted does succeed. -/
theorem OrderAccepted.succeeds (hs : t.Sound) (h : op.OrderAccepted env t) :
    ∃ x, op.meaning env t = .ok x := by
  -- each way to fail is excluded by something that is accepted
  have hcolumn : ∀ {table column : Uuid}, column ∈ t.columnOrder table →
      FailsOnly (fun _ => False) (t.readTableColumn table column) := fun hmem => by
    obtain ⟨c, hc, hown⟩ := hs.column?_of_mem_columnOrder hmem
    exact readTableColumn_holds hs hc hown
  match op, h with
  | .createEntry organization .table parent members definitions,
    ⟨hproperties, hdefinitions, ⟨o, ho⟩, hcan, hnew, hn⟩ =>
    refine FailsOnly.exists_ok (createEntry_fails hs env (.of_ok hproperties)
      (fun d hd => .of_ok (hdefinitions d hd)) (fun hnone => ?_) (checkParent_holds hs hcan)
      fun properties columns _ hcolumns _ _ => storeEntry_fails (fun htaken => ?_)
        (fun _ htype => by cases htype) fun _ hrepeated => hrepeated ?_).asPart
    · rw [hnone] at ho
      cases ho
    · simp [hnew] at htaken
    · rwa [List.map_append, map_id_columnRows, length_of_mapM_ok hcolumns,
        ← List.range_eq_range']
  | .createColumn table definition index, ⟨hindex, hdefinition, htable, hnew⟩ =>
    exact FailsOnly.exists_ok (createColumn_fails hs env (.of_ok hindex) (.of_ok hdefinition)
      (fun h => h htable) fun htaken => by simp [hnew] at htaken).asPart
  | .updateColumn table column changes, ⟨hchanges, htable, hmem⟩ =>
    exact FailsOnly.exists_ok (updateColumn_fails hs env (.of_ok hchanges) (fun h => h htable)
      (hcolumn hmem)).asPart
  | .deleteColumn table column, ⟨htable, hmem⟩ =>
    rw [meaning]
    exact FailsOnly.exists_ok (deleteColumn_fails hs (fun h => h htable) (hcolumn hmem)).asPart
  | .reorderColumns table columns, htable =>
    exact FailsOnly.exists_ok (reorderColumns_fails hs fun h => h htable).asPart

end Operation

namespace Database

/-- **Stored columns are lists.** Whatever has been called before, after one more call the rows of
every table are numbered from zero on without gaps, and their list is what the plain list operation
makes of the list before; it is the same if the call fails, and empty where there is no table. What
is accepted does succeed, and a new table has its columns as they were given. -/
theorem columns_are_lists (history : List Call) (call : Call) :
    let before := (fresh.after history).tables
    let result := ((fresh.after history).perform call).result
    let after := ((fresh.after history).perform call).state.tables
    (∀ table,
      (after.columnsOf table).map ColumnRow.index =
          (List.range (after.columnsOf table).length).map Int.ofNat ∧
        (∀ e, result = .error e → after.columnOrder table = before.columnOrder table) ∧
        (∀ reply, result = .ok reply → after.IsEntry table .table →
          after.columnOrder table =
            call.operation.onColumns call.surroundings table (before.columnOrder table)) ∧
        (¬ after.IsEntry table .table → after.columnOrder table = [])) ∧
      (call.operation.OrderAccepted call.surroundings before → ∃ reply, result = .ok reply) ∧
      ∀ organization parent members definitions,
        call.operation = .createEntry organization .table parent members definitions →
        ∀ reply, result = .ok reply →
          (after.columnsOf (call.surroundings.fresh 0)).map ColumnRow.name =
            definitions.map ColumnDefinition.name := by
  intro before result after
  have hu := usable_after history
  have hafter : after.Sound := (hu.perform call).1.sound
  have hdoes : ∀ reply, result = .ok reply →
      call.operation.Does call.surroundings before after := fun reply hreply => by
    obtain ⟨t, hdoes, hstate⟩ := perform_ok hu hreply
    obtain rfl : after = t := congrArg Database.tables hstate
    exact hdoes
  refine ⟨fun table => ⟨(hafter.ordered table).indices_eq, fun e he => ?_,
    fun reply hreply htable => (hdoes reply hreply).columnOrder hu.sound htable,
    hafter.columnOrder_eq_nil⟩, fun haccepted => ?_, ?_⟩
  · exact congrArg (fun db : Database => db.tables.columnOrder table) (perform_error hu he)
  · obtain ⟨x, hx⟩ := haccepted.succeeds hu.sound
    refine ⟨x.1, ?_⟩
    exact (perform_eq hu (locked_after history) call).trans (by rw [hx]; rfl)
  · intro organization parent members definitions hcall reply hreply
    exact (hcall ▸ hdoes reply hreply).map_name_columnsOf hu.sound

end Database
end TableStore
