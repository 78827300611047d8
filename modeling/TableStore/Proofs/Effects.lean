import TableStore.Proofs.Meaning

/-!
# What operations do to the tables

`Operation.Does` lists what an operation that succeeds does to the tables, with everything it has
checked before: one case for each operation that changes something, and one for those that only
read. Whatever succeeds does one of these things (`Operation.does_of_meaning`), so what operations
keep is shown by going through the cases; that tables stay sound (`Operation.Does.sound`) is the
first example.
-/

namespace TableStore

/-! ### Checks that were passed -/

namespace Catalog

theorem checkDefinition_ok {d : ColumnDefinition} {column : NewColumn}
    (h : checkDefinition d = .ok column) :
    column.name = d.name ∧ checkType d.type = .ok column.type ∧
      checkProperties d.properties = .ok column.properties := by
  obtain ⟨type, htype, h⟩ := bind_ok h
  obtain ⟨properties, hproperties, h⟩ := bind_ok h
  obtain rfl := Except.ok.inj h
  exact ⟨rfl, htype, hproperties⟩

theorem checkChanges_ok {changes : ColumnChanges} {update : ColumnUpdate}
    (h : checkChanges changes = .ok update) :
    checkIndex changes.index = .ok update.index ∧
      changes.type.mapM checkType = .ok update.type ∧
      changes.properties.mapM checkUpdate = .ok update.properties ∧
      update.name = changes.name := by
  obtain ⟨index, hindex, h⟩ := bind_ok h
  obtain ⟨type, htype, h⟩ := bind_ok h
  obtain ⟨properties, hproperties, h⟩ := bind_ok h
  obtain rfl := Except.ok.inj h
  exact ⟨hindex, htype, hproperties, rfl⟩

end Catalog

/-! ### Effects -/

/-- The operation does not change anything, unless it is a query that stores records. -/
def Operation.isReading : Operation → Bool
  | .getOrganization _ | .listOrganizations | .getEntry _ _ | .computePath _
  | .listChildren _ _ _ _ _ | .validateMove _ _ | .listColumns _ | .query _ _ => true
  | _ => false

/-- What an operation does to the tables when it succeeds. -/
inductive Operation.Does (env : Surroundings) (t : Tables) : Operation → Tables → Prop where
  | read {op : Operation} (hread : op.isReading = true) : Does env t op t
  | createOrganization {name : String} {row : Organization} {after : Tables}
      (h : t.storeOrganization ⟨env.fresh 0, name, env.now, env.now⟩ = .ok (row, after)) :
      Does env t (.createOrganization name) after
  | renameOrganization {id : Uuid} {name : String} {row : Organization} {after : Tables}
      (h : t.renameOrganization id name env.now = .ok (row, after)) :
      Does env t (.renameOrganization id name) after
  | deleteOrganization {id : Uuid} {after : Tables} (h : t.dropOrganization id = .ok ((), after)) :
      Does env t (.deleteOrganization id) after
  | createEntry {organization : Uuid} {type : EntryType} {parent : Option Uuid}
      {members : Members Json} {definitions : List ColumnDefinition} {properties : Properties}
      {columns : List NewColumn} {row : EntryRow} {after : Tables}
      (hproperties : Catalog.checkProperties members = .ok properties)
      (hcolumns : definitions.mapM Catalog.checkDefinition = .ok columns)
      (howner : ∃ o, t.organization? organization = some o)
      (hparent : t.CanHold organization parent)
      (h : t.storeEntry organization type parent properties columns env.now env.fresh =
        .ok (row, after)) :
      Does env t (.createEntry organization type parent members definitions) after
  | moveEntry {id : Uuid} {destination : Option Uuid} {row : EntryRow} {after : Tables}
      (h : t.moveEntry id destination env.now = .ok (row, after)) :
      Does env t (.moveEntry id destination) after
  | updateProperties {id : Uuid} {members : Members Json} {update : PropertiesUpdate}
      {row : EntryRow} {after : Tables} (hupdate : Catalog.checkUpdate members = .ok update)
      (h : t.changeProperties id update env.now = .ok (row, after)) :
      Does env t (.updateProperties id members) after
  | deleteEntry {id : Uuid} {after : Tables} (h : t.dropEntry id = .ok ((), after)) :
      Does env t (.deleteEntry id) after
  | createColumn {table : Uuid} {definition : ColumnDefinition} {index : Option Int}
      {position : Option Nat} {column : NewColumn} {row : ColumnRow} {after : Tables}
      (hindex : Catalog.checkIndex index = .ok position)
      (hcolumn : Catalog.checkDefinition definition = .ok column) (htable : t.IsEntry table .table)
      (h : t.storeColumn table column position env.now (env.fresh 0) = .ok (row, after)) :
      Does env t (.createColumn table definition index) after
  | updateColumn {table column : Uuid} {changes : ColumnChanges} {update : ColumnUpdate}
      {old row : ColumnRow} {after : Tables} (hupdate : Catalog.checkChanges changes = .ok update)
      (hold : t.column? column = some old) (htable : old.tableId = table)
      (h : t.changeColumn column update env.now = .ok (row, after)) :
      Does env t (.updateColumn table column changes) after
  | deleteColumn {table column : Uuid} {old : ColumnRow} {after : Tables}
      (hold : t.column? column = some old) (htable : old.tableId = table)
      (h : t.dropColumn column = .ok ((), after)) : Does env t (.deleteColumn table column) after
  | reorderColumns {table : Uuid} {columns : List Uuid} :
      Does env t (.reorderColumns table columns) (t.reorderColumns table columns).2
  | insertRecords {table : Uuid} {document : Json} {plan : Query.InsertPlan} {count : Nat}
      {after : Tables} (h : t.storeRecords plan = .ok (count, after)) :
      Does env t (.query table document) after

namespace Operation

variable {env : Surroundings} {t after : Tables} {reply : Reply}

/-- Reading answers what has been read and leaves the tables as they are. -/
theorem read_of_unchanged {α : Type} {f : α → Reply} {r : Except CatalogError α}
    (h : Meaning.unchanged t f r = .ok (reply, after)) :
    ∃ a, r = .ok a ∧ f a = reply ∧ after = t := by
  obtain ⟨a, h, hreply⟩ := asPart_ok h
  obtain ⟨b, hr, hpair⟩ := map_ok h
  obtain ⟨rfl, rfl⟩ := Prod.mk.inj hpair
  exact ⟨b, hr, hreply, rfl⟩

theorem unchanged_ok {α : Type} {f : α → Reply} {r : Except CatalogError α}
    (h : Meaning.unchanged t f r = .ok (reply, after)) : after = t := by
  obtain ⟨-, -, -, heq⟩ := read_of_unchanged h
  exact heq

/-- Whatever succeeds does one of the things that operations do. -/
theorem does_of_meaning (hs : t.Sound) {op : Operation}
    (h : op.meaning env t = .ok (reply, after)) : op.Does env t after := by
  cases op with
  | createOrganization name =>
    obtain ⟨row, h, -⟩ := asPart_ok h
    exact .createOrganization (mapError_ok h)
  | renameOrganization id name =>
    obtain ⟨row, h, -⟩ := asPart_ok h
    exact .renameOrganization (mapError_ok h)
  | deleteOrganization id =>
    rw [meaning] at h
    obtain ⟨⟨⟩, h, -⟩ := asPart_ok h
    exact .deleteOrganization (mapError_ok h)
  | createEntry organization type parent members definitions =>
    obtain ⟨entry, h, -⟩ := asPart_ok h
    obtain ⟨properties, hproperties, h⟩ := bind_ok h
    obtain ⟨columns, hcolumns, h⟩ := bind_ok h
    obtain ⟨owner, howner, h⟩ := bind_ok h
    obtain ⟨⟨⟩, hparent, h⟩ := bind_ok h
    obtain ⟨read, h, -⟩ := andRead_ok h
    obtain ⟨row, h, -⟩ := andRead_ok h
    exact .createEntry hproperties hcolumns ⟨owner, Tables.readOrganization_ok howner⟩
      (Meaning.checkParent_ok hs hparent) (mapError_ok h)
  | moveEntry id destination =>
    obtain ⟨entry, h, -⟩ := asPart_ok h
    rw [Meaning.moveEntry] at h
    obtain ⟨read, h, -⟩ := andRead_ok h
    obtain ⟨row, h, -⟩ := andRead_ok h
    exact .moveEntry (mapError_ok h)
  | updateProperties id members =>
    obtain ⟨entry, h, -⟩ := asPart_ok h
    obtain ⟨update, hupdate, h⟩ := bind_ok h
    obtain ⟨read, h, -⟩ := andRead_ok h
    obtain ⟨row, h, -⟩ := andRead_ok h
    exact .updateProperties hupdate (mapError_ok h)
  | deleteEntry id =>
    rw [meaning] at h
    obtain ⟨⟨⟩, h, -⟩ := asPart_ok h
    exact .deleteEntry (mapError_ok h)
  | createColumn table definition index =>
    obtain ⟨c, h, -⟩ := asPart_ok h
    obtain ⟨position, hindex, h⟩ := bind_ok h
    obtain ⟨column, hcolumn, h⟩ := bind_ok h
    obtain ⟨entry, htable, h⟩ := bind_ok h
    obtain ⟨row, h, -⟩ := andRead_ok h
    exact .createColumn hindex hcolumn (hs.readTable_ok htable) (mapError_ok h)
  | updateColumn table column changes =>
    obtain ⟨c, h, -⟩ := asPart_ok h
    obtain ⟨update, hupdate, h⟩ := bind_ok h
    obtain ⟨entry, -, h⟩ := bind_ok h
    obtain ⟨found, hfound, h⟩ := bind_ok h
    obtain ⟨row, h, -⟩ := andRead_ok h
    obtain ⟨old, hold, htable⟩ := hs.readTableColumn_ok hfound
    exact .updateColumn hupdate hold htable (mapError_ok h)
  | deleteColumn table column =>
    rw [meaning] at h
    obtain ⟨⟨⟩, h, -⟩ := asPart_ok h
    obtain ⟨entry, -, h⟩ := bind_ok h
    obtain ⟨found, hfound, h⟩ := bind_ok h
    obtain ⟨old, hold, htable⟩ := hs.readTableColumn_ok hfound
    exact .deleteColumn hold htable (mapError_ok h)
  | reorderColumns table columns =>
    obtain ⟨cs, h, -⟩ := asPart_ok h
    obtain ⟨entry, -, h⟩ := bind_ok h
    obtain ⟨rows, h, -⟩ := andRead_ok h
    obtain rfl : (t.reorderColumns table columns).2 = after :=
      congrArg Prod.snd (Except.ok.inj h)
    exact .reorderColumns
  | query table document =>
    obtain ⟨result, h, -⟩ := asPart_ok h
    obtain ⟨query, -, h⟩ := bind_ok h
    obtain ⟨entry, -, h⟩ := bind_ok h
    obtain ⟨columns, -, h⟩ := bind_ok h
    obtain ⟨plan, -, h⟩ := bind_ok h
    cases plan with
    | insert plan =>
      obtain ⟨count, h, -⟩ := asPart_ok h
      exact .insertRecords (mapError_ok h)
    | select plan =>
      obtain ⟨-, rfl, -⟩ := Meaning.selectRecords_ok h
      exact .read rfl
  -- all the others only read
  | _ => exact unchanged_ok h ▸ .read rfl

/-- **Operations keep tables sound.** -/
theorem Does.sound (hs : t.Sound) {op : Operation} (h : op.Does env t after) : after.Sound := by
  cases h with
  | read => exact hs
  | createOrganization h => exact hs.storeOrganization h
  | renameOrganization h => exact hs.renameOrganization h
  | deleteOrganization h => exact hs.dropOrganization h
  | createEntry _ _ howner hparent h => exact hs.storeEntry howner hparent h
  | moveEntry h => exact hs.moveEntry h
  | updateProperties _ h => exact hs.changeProperties h
  | deleteEntry h => exact hs.dropEntry h
  | createColumn _ _ htable h => exact hs.storeColumn htable h
  | updateColumn _ _ _ h => exact hs.changeColumn h
  | deleteColumn _ _ h => exact hs.dropColumn h
  | reorderColumns => exact hs.reorderColumns _
  | insertRecords h => exact hs.storeRecords h

end Operation
end TableStore
