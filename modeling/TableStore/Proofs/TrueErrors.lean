import TableStore.Proofs.Failures
import TableStore.Proofs.History

/-!
# Errors that are true

An error that names something stored says something about the tables: that the thing is missing,
that it is of another kind, that it belongs elsewhere, that it stands below what is to be moved into
it. `CatalogError.TrueOf` says when this is so. The errors of arguments say nothing of this kind
(`CatalogError.aboutStored`).

All errors are true but for one case: a folder that is to be made with columns is refused by a
broken reference, which is then blamed on the parent or on the organization (`Operation.Misblamed`).
**Misblaming is all there is**: an error is not true exactly in this case (`errors_untrue_iff`).
-/

namespace TableStore

/-- What an error says of the tables that an operation was called on. -/
def CatalogError.TrueOf (t : Tables) (op : Operation) : CatalogError → Prop
  | .organizationNotFound id => ∀ o ∈ t.organizations, o.id ≠ id
  | .entryNotFound id =>
    (∀ e ∈ t.entries, e.id ≠ id) ∨
      -- the parent of a new entry may be hidden in another organization
      ∃ organization type members definitions,
        op = .createEntry organization type (some id) members definitions ∧
          ∃ e ∈ t.entries, e.id = id ∧ e.organizationId ≠ organization
  | .tableNotFound id => ∀ e ∈ t.entries, e.id = id → e.type ≠ EntryType.table.name
  | .columnNotFound id => ∀ c ∈ t.columns, c.id ≠ id
  | .notAFolder id => ∃ e ∈ t.entries, e.id = id ∧ e.type ≠ EntryType.folder.name
  | .wrongTable column table => ∃ c ∈ t.columns, c.id = column ∧ c.tableId ≠ table
  | .cycleDetected entry destination => t.AtOrBelow destination entry
  | .organizationMismatch entry destination =>
    ∃ e ∈ t.entries, ∃ d ∈ t.entries,
      e.id = entry ∧ d.id = destination ∧ e.organizationId ≠ d.organizationId
  | _ => True

/-- The error says something about what is stored. -/
def CatalogError.aboutStored : CatalogError → Bool
  | .organizationNotFound _ | .entryNotFound _ | .tableNotFound _ | .columnNotFound _
  | .notAFolder _ | .wrongTable _ _ | .cycleDetected _ _ | .organizationMismatch _ _ => true
  | _ => false

/-- Making a folder with columns, where nothing else is wrong. -/
def Operation.Misblamed (env : Surroundings) (t : Tables) : Operation → Prop
  | .createEntry organization .folder parent members definitions =>
    definitions ≠ [] ∧ (∃ p, Catalog.checkProperties members = .ok p) ∧
      (∀ d ∈ definitions, ∃ c, Catalog.checkDefinition d = .ok c) ∧
      (∃ o, t.organization? organization = some o) ∧ t.CanHold organization parent ∧
      t.entry? (env.fresh 0) = none ∧ t.column? (env.fresh 1) = none
  | _ => False

/-! ### Errors of arguments -/

section Arguments

/-- A result fails with errors that find fault with the input, and say nothing about what is
stored. -/
def Quiet {α : Type} (r : Except CatalogError α) : Prop :=
  FailsOnly (fun e => e.kind = .invalidInput ∧ e.aboutStored = false) r

theorem quiet_checkProperties (members : Members Json) : Quiet (Catalog.checkProperties members) :=
  .mapError fun _ _ => ⟨rfl, rfl⟩

theorem quiet_checkUpdate (members : Members Json) : Quiet (Catalog.checkUpdate members) :=
  .mapError fun _ _ => ⟨rfl, rfl⟩

theorem quiet_checkIndex (index : Option Int) : Quiet (Catalog.checkIndex index) := by
  match index with
  | none => exact .ok none
  | some (.ofNat n) => exact .ok (some n)
  | some (.negSucc n) => exact .error ⟨rfl, rfl⟩

theorem quiet_checkType (name : String) : Quiet (Catalog.checkType name) := by
  rw [Catalog.checkType]
  cases ColumnType.read? name with
  | none => exact .error ⟨rfl, rfl⟩
  | some type => exact .ok type

theorem quiet_checkDefinition (d : ColumnDefinition) : Quiet (Catalog.checkDefinition d) :=
  (quiet_checkType d.type).bind fun _ _ => (quiet_checkProperties d.properties).bind fun _ _ =>
    .ok _

theorem quiet_checkChanges (c : ColumnChanges) : Quiet (Catalog.checkChanges c) := by
  refine (quiet_checkIndex c.index).bind fun index _ => FailsOnly.bind ?_ fun type _ =>
    FailsOnly.bind ?_ fun properties _ => .ok _
  · cases c.type with
    | none => exact .ok none
    | some name => exact (quiet_checkType name).map
  · cases c.properties with
    | none => exact .ok none
    | some members => exact (quiet_checkUpdate members).map

theorem quiet_checkLimit (limits : Query.Limits) (limit : Option Nat) :
    Quiet (Catalog.checkLimit limits limit) := by
  cases limit with
  | none => exact .ok limits.default
  | some limit =>
    rw [Catalog.checkLimit]
    split
    · exact .error ⟨rfl, rfl⟩
    · exact .ok limit

theorem quiet_checkOffset (offset : Nat) : Quiet (Catalog.checkOffset offset) := by
  rw [Catalog.checkOffset]
  split
  · exact .error ⟨rfl, rfl⟩
  · exact .ok offset

end Arguments

/-! ### Errors of operations -/

section Operations

variable {t : Tables} {op : Operation} {id : Uuid}

namespace CatalogError

theorem trueOf_of_quiet {e : CatalogError} (h : e.kind = .invalidInput ∧ e.aboutStored = false) :
    e.TrueOf t op := by
  have habout := h.2
  cases e <;> trivial

theorem organizationNotFound_true (h : t.organization? id = none) :
    (organizationNotFound id).TrueOf t op :=
  Tables.organization?_eq_none.mp h

theorem entryNotFound_true (h : t.entry? id = none) : (entryNotFound id).TrueOf t op :=
  .inl (Tables.entry?_eq_none.mp h)

theorem tableNotFound_true (hs : t.Sound) (h : ¬ t.IsEntry id .table) :
    (tableNotFound id).TrueOf t op := by
  rintro e he rfl htype
  exact h ⟨e, hs.entry?_of_mem he, htype⟩

theorem columnNotFound_true (h : t.column? id = none) : (columnNotFound id).TrueOf t op :=
  Tables.column?_eq_none.mp h

theorem notAFolder_true {row : EntryRow} (hrow : t.entry? id = some row)
    (htype : row.type ≠ EntryType.folder.name) : (notAFolder id).TrueOf t op := by
  obtain ⟨hm, hid⟩ := Tables.entry?_spec hrow
  exact ⟨row, hm, hid, htype⟩

theorem notAFolder_true_of_table (h : t.IsEntry id .table) : (notAFolder id).TrueOf t op := by
  obtain ⟨row, hrow, htype⟩ := h
  exact notAFolder_true hrow (by rw [htype]; simp [EntryType.name])

theorem wrongTable_true {table : Uuid} {row : ColumnRow} (hrow : t.column? id = some row)
    (hne : row.tableId ≠ table) : (wrongTable id table).TrueOf t op := by
  obtain ⟨hm, hid⟩ := Tables.column?_spec hrow
  exact ⟨row, hm, hid, hne⟩

theorem organizationMismatch_true {destination : Uuid} {e d : EntryRow} (he : t.entry? id = some e)
    (hd : t.entry? destination = some d) (hne : e.organizationId ≠ d.organizationId) :
    (organizationMismatch id destination).TrueOf t op := by
  obtain ⟨hem, heid⟩ := Tables.entry?_spec he
  obtain ⟨hdm, hdid⟩ := Tables.entry?_spec hd
  exact ⟨e, hem, d, hdm, heid, hdid, hne⟩

end CatalogError

open CatalogError

variable (hs : t.Sound) (env : Surroundings)
include hs

theorem readFolder_true (id : Uuid) : FailsOnly (TrueOf t op) (t.readFolder id) :=
  readFolder_fails hs entryNotFound_true notAFolder_true_of_table

theorem readTableColumn_true (table column : Uuid) :
    FailsOnly (TrueOf t op) (t.readTableColumn table column) :=
  readTableColumn_fails hs columnNotFound_true fun _ => wrongTable_true

/-- What is said of a move that is refused. -/
theorem moveEntry_true (destination : Option Uuid) :
    FailsOnly (TrueOf t op) (Meaning.moveEntry env t id destination) := by
  refine moveEntry_fails hs env entryNotFound_true fun old folder hold _ => ?_
  exact checkDestination_fails entryNotFound_true (fun row => notAFolder_true)
    (fun row hrow hne => organizationMismatch_true hold hrow hne.symm)
    fun row hrow => (hs.mem_ancestry hrow).mp

theorem validateMove_true {entry : Entry} (destination : Option Uuid)
    (hentry : t.readEntry id = .ok entry) :
    FailsOnly (TrueOf t op) (Meaning.validateMove t entry destination) := by
  obtain ⟨row, hrow, -, heq⟩ := hs.readEntry_ok hentry
  have hid : entry.id = id := (congrArg Entry.id heq).trans (Tables.entry?_spec hrow).2
  have howner : entry.organizationId = row.organizationId := congrArg Entry.organizationId heq
  refine validateMove_fails hs (fun _ => Relation.ReflTransGen.refl)
    (fun d _ => readFolder_true hs d) (fun d folder _ hfolder hne => ?_) fun d _ h => h
  exact organizationMismatch_true (hid ▸ hrow) hfolder (howner ▸ hne.symm)

/-- What is said of an entry that is not made is true, or the entry is misblamed. -/
theorem createEntry_true (organization : Uuid) (type : EntryType) (parent : Option Uuid)
    (members : Members Json) (definitions : List ColumnDefinition) :
    let op := Operation.createEntry organization type parent members definitions
    FailsOnly (fun e => e.TrueOf t op ∨ op.Misblamed env t)
      (Meaning.createEntry env t organization type parent members definitions) := by
  intro op
  refine createEntry_fails hs env
    ((quiet_checkProperties members).mono fun _ h => .inl (trueOf_of_quiet h))
    (fun d _ => (quiet_checkDefinition d).mono fun _ h => .inl (trueOf_of_quiet h))
    (fun h => .inl (organizationNotFound_true h)) ?_ ?_
  · refine checkParent_fails hs (fun p _ h => .inl (entryNotFound_true h))
      (fun p _ h => .inl (notAFolder_true_of_table h)) fun p row hp hrow hne => ?_
    obtain ⟨hm, hid⟩ := Tables.entry?_spec hrow
    exact .inl (.inr ⟨organization, type, members, definitions, hp ▸ rfl, row, hm, hid, hne⟩)
  · intro properties columns hproperties hcolumns howner hcan
    refine storeEntry_fails (fun _ => .inl trivial) (fun hnew hfolder hne => ?_)
      fun _ _ => .inl trivial
    split
    case isTrue => exact .inl trivial
    case isFalse hcolumn =>
      subst hfolder
      refine .inr ⟨?_, ⟨properties, hproperties⟩, ?_, howner, hcan, hnew, by simpa using hcolumn⟩
      · rintro rfl
        exact hne (Except.ok.inj hcolumns).symm
      · exact exists_of_mapM_ok hcolumns

/-- Every error is true, or it misblames. -/
theorem Operation.meaning_true (op : Operation) :
    FailsOnly (fun e => e.TrueOf t op ∨ op.Misblamed env t) (op.meaning env t) := by
  have hleft : ∀ {α : Type} {r : Except CatalogError α}, FailsOnly (TrueOf t op) r →
      FailsOnly (fun e => e.TrueOf t op ∨ op.Misblamed env t) r := fun h => h.mono fun _ => .inl
  have hquiet : ∀ {α : Type} {r : Except CatalogError α}, Quiet r → FailsOnly (TrueOf t op) r :=
    fun h => h.mono fun _ => trueOf_of_quiet
  cases op with
  | createOrganization name => exact hleft (storeOrganization_fails trivial).asPart
  | getOrganization id =>
    exact hleft (readOrganization_fails organizationNotFound_true).map.asPart
  | listOrganizations => exact .ok _
  | renameOrganization id name => exact hleft (found_fails organizationNotFound_true).asPart
  | deleteOrganization id =>
    rw [meaning]
    exact hleft (dropOrganization_fails hs organizationNotFound_true fun _ _ => trivial).asPart
  | createEntry organization type parent members definitions =>
    exact (createEntry_true hs env organization type parent members definitions).asPart
  | getEntry id path => exact hleft (readWhole_fails hs path entryNotFound_true).map.asPart
  | computePath id =>
    exact hleft ((readEntry_fails hs entryNotFound_true).bind fun _ _ => .ok _).map.asPart
  | listChildren parent sort offset limit path =>
    exact hleft (listChildren_fails hs env (fun _ => trivial) (hquiet (quiet_checkLimit _ _))
      (hquiet (quiet_checkOffset _)) (fun _ _ => organizationNotFound_true)
      (fun _ _ => readFolder_true hs _) fun _ _ _ _ _ _ _ _ => trivial).map.asPart
  | validateMove id destination =>
    rw [meaning]
    exact hleft ((readEntry_fails hs entryNotFound_true).bind fun _ hentry =>
      validateMove_true hs destination hentry).map.asPart
  | moveEntry id destination => exact hleft (moveEntry_true hs env destination).asPart
  | updateProperties id members =>
    exact hleft (updateProperties_fails hs env (hquiet (quiet_checkUpdate members))
      entryNotFound_true).asPart
  | deleteEntry id =>
    rw [meaning]
    exact hleft (dropEntry_fails hs entryNotFound_true fun _ _ => trivial).asPart
  | listColumns table =>
    exact hleft ((readTable_fails hs (tableNotFound_true hs)).bind fun _ _ =>
      .of_ok (hs.readColumns_ok table)).map.asPart
  | createColumn table definition index =>
    exact hleft (createColumn_fails hs env (hquiet (quiet_checkIndex index))
      (hquiet (quiet_checkDefinition definition)) (tableNotFound_true hs) fun _ => trivial).asPart
  | updateColumn table column changes =>
    exact hleft (updateColumn_fails hs env (hquiet (quiet_checkChanges changes))
      (tableNotFound_true hs) (readTableColumn_true hs table column)).asPart
  | deleteColumn table column =>
    rw [meaning]
    exact hleft (deleteColumn_fails hs (tableNotFound_true hs)
      (readTableColumn_true hs table column)).asPart
  | reorderColumns table columns =>
    exact hleft (reorderColumns_fails hs (tableNotFound_true hs)).asPart
  | query table document =>
    refine hleft (executeQuery_fails hs env (fun e => ?_) (tableNotFound_true hs)
      (fun _ _ _ _ _ _ _ => storeRecords_fails (fun _ => trivial) (fun _ => trivial)
        fun _ => trivial) fun _ _ _ _ _ _ _ _ => trivial).asPart
    cases e <;> trivial

omit hs in
theorem columns_ne_nil {definitions : List ColumnDefinition} {columns : List NewColumn}
    (h : definitions.mapM Catalog.checkDefinition = .ok columns) (hne : definitions ≠ []) :
    columns ≠ [] := by
  rintro rfl
  exact hne (List.length_eq_zero_iff.mp (length_of_mapM_ok h).symm)

/-- A folder is not made with columns, and what is said of it is not true. -/
theorem Operation.Misblamed.untrue (h : op.Misblamed env t) :
    ∃ e, op.meaning env t = .error e ∧ ¬ e.TrueOf t op := by
  match op, h with
  | .createEntry organization .folder parent members definitions,
    ⟨hne, hproperties, hdefinitions, howner, hcan, hnew, hcolumn⟩ =>
    obtain ⟨o, ho⟩ := howner
    -- nothing else can be wrong, so the broken reference is what is reported
    have hfails : FailsOnly
        (fun e => e = CatalogError.ofCreation organization parent .foreignKeyViolation)
        (Meaning.createEntry env t organization .folder parent members definitions) := by
      refine createEntry_fails hs env (.of_ok hproperties) (fun d hd => .of_ok (hdefinitions d hd))
        (fun hnone => ?_) (checkParent_holds hs hcan) fun properties columns _ hcolumns _ _ =>
          storeEntry_fails (fun htaken => ?_) (fun _ _ _ => ?_) fun hnil => ?_
      · rw [hnone] at ho
        cases ho
      · simp [hnew] at htaken
      · simp [hcolumn]
      · exact absurd (hnil rfl) (columns_ne_nil hcolumns hne)
    cases hm : Operation.meaning env t
      (.createEntry organization .folder parent members definitions) with
    | ok x =>
      cases does_of_meaning hs hm with
      | read hread => cases hread
      | createEntry _ hcolumns _ _ hstored =>
        obtain ⟨-, hfolder, -⟩ := Tables.storeEntry_ok hstored
        exact absurd (hfolder rfl) (columns_ne_nil hcolumns hne)
    | error e =>
      refine ⟨e, rfl, ?_⟩
      rw [hfails e (asPart_error hm)]
      cases parent with
      | none =>
        intro htrue
        obtain ⟨hmem, hid⟩ := Tables.organization?_spec ho
        exact htrue o hmem hid
      | some p =>
        rintro ⟨e, he, hid, htype⟩
        obtain ⟨folder, hfolder, hname, -⟩ := hcan p rfl
        have hfound := hs.entry?_of_mem he
        rw [hid, hfolder] at hfound
        exact htype (Option.some_inj.mp hfound ▸ hname)

end Operations

namespace Database

/-- **Errors are true, but for folders with columns.** Whatever has been called before, a call fails
with an error that is not true of the tables exactly if it is misblamed. -/
theorem errors_untrue_iff (history : List Call) (call : Call) :
    (∃ e, ((fresh.after history).perform call).result = .error e ∧
        ¬ e.TrueOf (fresh.after history).tables call.operation) ↔
      call.operation.Misblamed call.surroundings (fresh.after history).tables := by
  have hs := sound_after history
  rw [perform_eq (usable_after history) (locked_after history)]
  constructor
  · rintro ⟨e, he, huntrue⟩
    cases hm : call.operation.meaning call.surroundings (fresh.after history).tables with
    | ok x =>
      rw [hm] at he
      cases he
    | error e' =>
      rw [hm] at he
      obtain rfl := Except.error.inj he
      exact (call.operation.meaning_true hs call.surroundings e' hm).resolve_left huntrue
  · intro h
    obtain ⟨e, hm, huntrue⟩ := h.untrue hs
    exact ⟨e, by rw [hm]; rfl, huntrue⟩

/-- A folder with a column is refused since its organization were missing, or its parent were not a
folder, although they are what they are said not to be. -/
theorem misblamed_folder :
    let db := fresh.after [⟨.numbered 1, .createOrganization "org"⟩,
      ⟨.numbered 2, .createEntry ⟨1⟩ .folder none [] []⟩]
    let create (parent : Option Uuid) : Call :=
      ⟨.numbered 3, .createEntry ⟨1⟩ .folder parent [] [⟨"x", "string", []⟩]⟩
    (db.perform (create none)).result = .error (.organizationNotFound ⟨1⟩) ∧
      ¬ (CatalogError.organizationNotFound ⟨1⟩).TrueOf db.tables (create none).operation ∧
      (db.perform (create (some ⟨2⟩))).result = .error (.notAFolder ⟨2⟩) ∧
      ¬ (CatalogError.notAFolder ⟨2⟩).TrueOf db.tables (create (some ⟨2⟩)).operation := by
  refine ⟨rfl, fun h => h ⟨⟨1⟩, "org", ⟨0⟩, ⟨0⟩⟩ (List.mem_singleton.mpr rfl) rfl, rfl, ?_⟩
  rintro ⟨e, he, -, htype⟩
  obtain rfl := List.mem_singleton.mp he
  exact htype rfl

end Database
end TableStore
