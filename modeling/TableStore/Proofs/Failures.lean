import TableStore.Proofs.Effects

/-!
# How operations fail

`FailsOnly P r` says that a result fails only with errors that satisfy `P`. The rules follow how
meanings are put together, and every reader and every operation has one lemma that says which errors
it can give and what has to be so of the tables when it does. With `P` false everywhere such a lemma
says when an operation succeeds.
-/

namespace TableStore

variable {α β : Type} {P : CatalogError → Prop} {t : Tables} {id organization table column : Uuid}

/-- A result fails only with errors that satisfy a condition. -/
def FailsOnly (P : CatalogError → Prop) (r : Except CatalogError α) : Prop :=
  ∀ e, r = .error e → P e

namespace FailsOnly

theorem ok (a : α) : FailsOnly P (.ok a) := by
  rintro e h
  cases h

theorem error {e : CatalogError} (h : P e) : FailsOnly P (.error e : Except CatalogError α) := by
  rintro e' he
  obtain rfl := Except.error.inj he
  exact h

theorem bind {r : Except CatalogError α} {f : α → Except CatalogError β} (hr : FailsOnly P r)
    (hf : ∀ a, r = .ok a → FailsOnly P (f a)) : FailsOnly P (r >>= f) := by
  intro e h
  rcases bind_error h with h | ⟨a, ha, h⟩
  · exact hr e h
  · exact hf a ha e h

theorem mapError {ε : Type} {r : Except ε α} {f : ε → CatalogError}
    (h : ∀ e, r = .error e → P (f e)) : FailsOnly P (r.mapError f) := by
  intro e he
  obtain ⟨e', hr, rfl⟩ := mapError_error he
  exact h e' hr

theorem map {r : Except CatalogError α} {f : α → β} (hr : FailsOnly P r) :
    FailsOnly P (r.map f) := by
  intro e h
  cases r with
  | error e' => exact hr e (congrArg _ (Except.error.inj h))
  | ok a => cases h

theorem asPart {m : Except CatalogError (α × Tables)} {f : α → β} (hm : FailsOnly P m) :
    FailsOnly P (asPart f m) :=
  fun e h => hm e (asPart_error h)

/-- Reading what can be read does not fail. -/
theorem andRead {m : Except CatalogError (α × Tables)} {g : α → Tables → Except CatalogError β}
    (hm : FailsOnly P m) (hg : ∀ a t, m = .ok (a, t) → ∃ b, g a t = .ok b) :
    FailsOnly P (andRead m g) := by
  intro e h
  rcases andRead_error h with h | ⟨a, t, hok, h⟩
  · exact hm e h
  · obtain ⟨b, hb⟩ := hg a t hok
    rw [hb] at h
    cases h

theorem mono {Q : CatalogError → Prop} {r : Except CatalogError α} (hr : FailsOnly P r)
    (h : ∀ e, P e → Q e) : FailsOnly Q r :=
  fun e he => h e (hr e he)

theorem of_ok {r : Except CatalogError α} (h : ∃ a, r = .ok a) : FailsOnly P r := by
  obtain ⟨a, rfl⟩ := h
  exact ok a

theorem mapM {f : α → Except CatalogError β} (as : List α) (h : ∀ a ∈ as, FailsOnly P (f a)) :
    FailsOnly P (as.mapM f) := by
  induction as with
  | nil => exact ok []
  | cons a as ih =>
    rw [List.mapM_cons]
    exact (h a List.mem_cons_self).bind fun b _ =>
      (ih fun x hx => h x (List.mem_cons_of_mem _ hx)).bind fun bs _ => ok (b :: bs)

/-- What fails only in ways that do not occur succeeds. -/
theorem exists_ok {r : Except CatalogError α} (h : FailsOnly (fun _ => False) r) :
    ∃ a, r = .ok a := by
  cases r with
  | ok a => exact ⟨a, rfl⟩
  | error e => exact (h e rfl).elim

end FailsOnly

/-! ### Readers -/

section Readers

variable (hs : t.Sound)

theorem readOrganization_fails
    (h : t.organization? id = none → P (.organizationNotFound id)) :
    FailsOnly P (t.readOrganization id) := by
  intro e he
  obtain ⟨hnone, rfl⟩ := Tables.readOrganization_error he
  exact h hnone

include hs

theorem readEntry_fails (h : t.entry? id = none → P (.entryNotFound id)) :
    FailsOnly P (t.readEntry id) := by
  intro e he
  obtain ⟨hnone, rfl⟩ := hs.readEntry_error he
  exact h hnone

theorem readFolder_fails (hnone : t.entry? id = none → P (.entryNotFound id))
    (htable : t.IsEntry id .table → P (.notAFolder id)) : FailsOnly P (t.readFolder id) := by
  intro e he
  rcases hs.readFolder_error he with ⟨h, rfl⟩ | ⟨h, rfl⟩
  · exact hnone h
  · exact htable h

theorem readTable_fails (h : ¬ t.IsEntry table .table → P (.tableNotFound table)) :
    FailsOnly P (t.readTable table) := by
  intro e he
  obtain ⟨hnot, rfl⟩ := hs.readTable_error he
  exact h hnot

theorem readTableColumn_fails (hnone : t.column? column = none → P (.columnNotFound column))
    (hother : ∀ row, t.column? column = some row → row.tableId ≠ table →
      P (.wrongTable column table)) : FailsOnly P (t.readTableColumn table column) := by
  intro e he
  rcases hs.readTableColumn_error he with ⟨h, rfl⟩ | ⟨⟨row, hrow, hne⟩, rfl⟩
  · exact hnone h
  · exact hother row hrow hne

/-- A column of the table is read. -/
theorem readTableColumn_holds {c : ColumnRow} (hc : t.column? column = some c)
    (hown : c.tableId = table) : FailsOnly P (t.readTableColumn table column) := by
  refine readTableColumn_fails hs (fun hnone => ?_) fun row hrow hne => ?_
  · rw [hc] at hnone
    cases hnone
  · obtain rfl := Option.some_inj.mp (hc.symm.trans hrow)
    exact absurd hown hne

theorem readWhole_fails (path : Bool) (h : t.entry? id = none → P (.entryNotFound id)) :
    FailsOnly P (t.readWhole id path) := by
  cases he : t.entry? id with
  | some row => exact .of_ok (hs.readWhole_ok path he)
  | none =>
    rw [Tables.readWhole, Tables.readEntry_of_none he]
    exact .error (h he)

theorem checkParent_fails {parent : Option Uuid}
    (hnone : ∀ p, parent = some p → t.entry? p = none → P (.entryNotFound p))
    (htable : ∀ p, parent = some p → t.IsEntry p .table → P (.notAFolder p))
    (hother : ∀ p row, parent = some p → t.entry? p = some row →
      row.organizationId ≠ organization → P (.entryNotFound p)) :
    FailsOnly P (Meaning.checkParent t organization parent) := by
  cases parent with
  | none => exact .ok ()
  | some p =>
    refine (readFolder_fails hs (hnone p rfl) (htable p rfl)).bind fun folder hfolder => ?_
    obtain ⟨row, hrow, -, rfl⟩ := hs.readFolder_ok hfolder
    split
    case isTrue hne => exact .error (hother p row rfl hrow hne)
    case isFalse => exact .ok ()

/-- The check of a parent that entries can have does not fail. -/
theorem checkParent_holds {parent : Option Uuid} (h : t.CanHold organization parent) :
    FailsOnly P (Meaning.checkParent t organization parent) := by
  refine checkParent_fails hs (fun p hp hnone => ?_) (fun p hp htable => ?_)
    fun p row hp hrow hne => ?_
  all_goals obtain ⟨folder, hf, htype, howner⟩ := h p hp
  · rw [hnone] at hf
    cases hf
  · rw [Tables.isEntry_iff hf, htype] at htable
    simp [EntryType.name] at htable
  · obtain rfl := Option.some_inj.mp (hf.symm.trans hrow)
    exact absurd howner hne

end Readers

/-! ### Storing -/

section Storing

/-- An entry is not stored where its identifier is taken, where it is a folder with columns, and
where identifiers of its columns are taken or stand twice. -/
theorem storeEntry_fails {type : EntryType} {parent : Option Uuid} {properties : Properties}
    {columns : List NewColumn} {now : Timestamp} {fresh : Nat → Uuid} {Q : StoreError → Prop}
    (htaken : (t.entry? (fresh 0)).isSome → Q .uniqueViolation)
    (hfolder : t.entry? (fresh 0) = none → type = .folder → columns ≠ [] →
      Q (if (t.column? (fresh 1)).isSome then .uniqueViolation else .foreignKeyViolation))
    (hrepeated : (type = .folder → columns = []) →
      ¬ ((t.columns ++ columnRows (fresh 0) now (fun i => fresh (i + 1)) 0 columns).map
        ColumnRow.id).Nodup → Q .uniqueViolation) :
    ∀ e, t.storeEntry organization type parent properties columns now fresh = .error e → Q e := by
  intro e h
  rw [Tables.storeEntry] at h
  split at h
  case isTrue hsome =>
    obtain rfl := Except.error.inj h
    exact htaken hsome
  case isFalse hnone =>
    split at h
    case isTrue hfc =>
      obtain rfl := Except.error.inj h
      exact hfolder (by simpa using hnone) hfc.1 hfc.2
    case isFalse hfc =>
      split at h
      case isTrue => cases h
      case isFalse hn =>
        obtain rfl := Except.error.inj h
        exact hrepeated (fun hf => not_not.mp fun hc => hfc ⟨hf, hc⟩) hn

/-- A destination is refused for one of four reasons. -/
theorem checkDestination_fails {entry destination : Uuid} {Q : StoreError → Prop}
    (hnone : t.entry? destination = none → Q (.invalidMove entry destination .destinationNotFound))
    (hfolder : ∀ row, t.entry? destination = some row → row.type ≠ EntryType.folder.name →
      Q (.invalidMove entry destination .notAFolder))
    (hother : ∀ row, t.entry? destination = some row → row.organizationId ≠ organization →
      Q (.invalidMove entry destination .organizationMismatch))
    (hcycle : ∀ row, t.entry? destination = some row → entry ∈ t.ancestry destination →
      Q (.invalidMove entry destination .cycle)) :
    ∀ e, t.checkDestination entry organization destination = .error e → Q e := by
  intro e h
  rw [Tables.checkDestination] at h
  cases hd : t.entry? destination with
  | none =>
    rw [hd] at h
    obtain rfl := Except.error.inj h
    exact hnone hd
  | some row =>
    rw [hd] at h
    dsimp only at h
    split at h
    case isTrue htype =>
      obtain rfl := Except.error.inj h
      exact hfolder row hd htype
    case isFalse =>
      split at h
      case isTrue hne =>
        obtain rfl := Except.error.inj h
        exact hother row hd hne
      case isFalse =>
        split at h
        case isTrue hmem =>
          obtain rfl := Except.error.inj h
          exact hcycle row hd hmem
        case isFalse => cases h

/-- What follows a row that is looked up fails where there is none, or as it does. -/
theorem found_bind_error {o : Option α} {f : α → Except StoreError β} {e : StoreError}
    (h : (found o >>= f) = .error e) :
    o = none ∧ e = .rowNotFound ∨ ∃ a, o = some a ∧ f a = .error e := by
  cases o with
  | none => exact .inl ⟨rfl, (Except.error.inj h).symm⟩
  | some a => exact .inr ⟨a, rfl, h⟩

/-- Changing a row that is looked up fails only where there is none. -/
theorem found_fails {o : Option α} {f : α → β} {explain : StoreError → CatalogError}
    (h : o = none → P (explain .rowNotFound)) :
    FailsOnly P ((found o >>= fun a => .ok (f a)).mapError explain) := by
  refine .mapError fun e he => ?_
  rcases found_bind_error he with ⟨hnone, rfl⟩ | ⟨a, -, he⟩
  · exact h hnone
  · cases he

theorem storeOrganization_fails {row : Organization} (h : P .storage) :
    FailsOnly P ((t.storeOrganization row).mapError CatalogError.ofStore) := by
  refine .mapError fun e he => ?_
  rw [Tables.storeOrganization] at he
  split at he
  · obtain rfl := Except.error.inj he
    exact h
  · cases he

/-- Records are not stored one by one where an identifier is taken or stands twice, and where a
table is missing. -/
theorem insertRecords_error {records : List Query.NewRecord} {fault : EngineFault}
    (h : t.insertRecords records = .error fault) :
    fault = .unique "records.id" ∧
        ¬ (t.records.map RecordRow.id ++ records.map Query.NewRecord.id).Nodup ∨
      fault = .foreignKey ∧ ∃ r ∈ records, r.tableId ∉ t.tables := by
  induction records generalizing t with
  | nil => cases h
  | cons r rest ih =>
    rw [Tables.insertRecords, List.foldlM_cons] at h
    rcases bind_error h with h | ⟨between, hr, h⟩
    · rcases bind_error h with h | ⟨_, -, h⟩
      · obtain ⟨htaken, rfl⟩ := Tables.ensure_eq_error h
        obtain ⟨old, hold, hid⟩ : ∃ old ∈ t.records, old.id = r.id := by simpa using htaken
        refine .inl ⟨rfl, fun hn => ?_⟩
        exact (List.disjoint_of_nodup_append hn) (List.mem_map.mpr ⟨old, hold, hid⟩)
          (List.mem_map_of_mem List.mem_cons_self)
      · rcases bind_error h with h | ⟨_, -, h⟩
        · obtain ⟨hmissing, rfl⟩ := Tables.ensure_eq_error h
          exact .inr ⟨rfl, r, List.mem_cons_self, by simpa using hmissing⟩
        · cases h
    · obtain ⟨-, -, rfl⟩ := Tables.insertRecord_ok hr
      rcases ih h with ⟨rfl, hn⟩ | ⟨rfl, other, hother, hmissing⟩
      · refine .inl ⟨rfl, fun hnodup => hn ?_⟩
        simpa using hnodup
      · exact .inr ⟨rfl, other, List.mem_cons_of_mem _ hother, hmissing⟩

/-- Records are not stored where there are too many for one statement, where an identifier is taken
or stands twice, and where a table is missing. -/
theorem storeRecords_fails {plan : Query.InsertPlan} {Q : StoreError → Prop}
    (hmany : Tables.maxPlaceholders < plan.params.length → Q .failed)
    (hrepeated : ¬ (t.records.map RecordRow.id ++ plan.recordIds).Nodup → Q .uniqueViolation)
    (hmissing : (∃ r ∈ plan.records, r.tableId ∉ t.tables) → Q .foreignKeyViolation) :
    ∀ e, t.storeRecords plan = .error e → Q e := by
  intro e h
  rw [Tables.storeRecords] at h
  rcases Nat.lt_or_ge Tables.maxPlaceholders plan.params.length with hlt | hle
  · rw [Tables.insertPlan_of_lt hlt] at h
    obtain rfl := Except.error.inj h
    exact hmany hlt
  rw [Tables.insertPlan_of_le hle] at h
  cases hr : t.insertRecords plan.records with
  | ok after =>
    rw [hr] at h
    cases h
  | error fault =>
    rw [hr] at h
    obtain rfl := Except.error.inj h
    rcases insertRecords_error hr with ⟨rfl, hn⟩ | ⟨rfl, hnone⟩
    · have hmessage : StoreError.ofEngineMessage (EngineFault.unique "records.id").message =
          .uniqueViolation := ofEngineMessage_unique (by simp)
      exact hmessage ▸ hrepeated hn
    · exact hmissing hnone

end Storing

/-! ### Operations -/

section Operations

variable (hs : t.Sound) (env : Surroundings)
include hs

theorem dropEntry_fails (hnone : t.entry? id = none → P (.entryNotFound id))
    (hdeep : (t.entry? id).isSome → t.TooDeep id → P .storage) :
    FailsOnly P ((t.dropEntry id).mapError (CatalogError.entryMissing id)) := by
  refine .mapError fun e he => ?_
  rcases found_bind_error he with ⟨h, rfl⟩ | ⟨row, hrow, -⟩
  · exact hnone h
  · rcases hs.dropEntry_eq hrow with ⟨htooDeep, heq⟩ | ⟨-, heq⟩
    · obtain rfl := Except.error.inj (heq.symm.trans he)
      exact hdeep (Option.isSome_of_eq_some hrow) htooDeep
    · cases heq.symm.trans he

theorem dropOrganization_fails (hnone : t.organization? id = none → P (.organizationNotFound id))
    (hdeep : (t.organization? id).isSome → t.TooDeepWithin id → P .storage) :
    FailsOnly P ((t.dropOrganization id).mapError (CatalogError.organizationMissing id)) := by
  refine .mapError fun e he => ?_
  rcases found_bind_error he with ⟨h, rfl⟩ | ⟨row, hrow, -⟩
  · exact hnone h
  · rcases hs.dropOrganization_eq hrow with ⟨htooDeep, heq⟩ | ⟨-, heq⟩
    · obtain rfl := Except.error.inj (heq.symm.trans he)
      exact hdeep (Option.isSome_of_eq_some hrow) htooDeep
    · cases heq.symm.trans he

theorem createEntry_fails {type : EntryType} {parent : Option Uuid} {members : Members Json}
    {definitions : List ColumnDefinition}
    (hproperties : FailsOnly P (Catalog.checkProperties members))
    (hcolumns : ∀ d ∈ definitions, FailsOnly P (Catalog.checkDefinition d))
    (howner : t.organization? organization = none → P (.organizationNotFound organization))
    (hparent : FailsOnly P (Meaning.checkParent t organization parent))
    (hstore : ∀ properties columns, Catalog.checkProperties members = .ok properties →
      definitions.mapM Catalog.checkDefinition = .ok columns →
      (∃ o, t.organization? organization = some o) → t.CanHold organization parent →
      ∀ e, t.storeEntry organization type parent properties columns env.now env.fresh = .error e →
        P (CatalogError.ofCreation organization parent e)) :
    FailsOnly P (Meaning.createEntry env t organization type parent members definitions) := by
  refine hproperties.bind fun properties hp => (FailsOnly.mapM definitions hcolumns).bind
    fun columns hc => (readOrganization_fails howner).bind fun owner ho =>
      hparent.bind fun _ hheld => ?_
  have hfound := Tables.readOrganization_ok ho
  have hcan := Meaning.checkParent_ok hs hheld
  have hstored : FailsOnly P ((t.storeEntry organization type parent properties columns env.now
      env.fresh).mapError (CatalogError.ofCreation organization parent)) :=
    .mapError (hstore properties columns hp hc ⟨owner, hfound⟩ hcan)
  -- what has been stored leaves sound tables, and can be read back from them
  refine (hstored.andRead fun row after hrow =>
    ⟨_, Tables.storeEntry_toEntry (mapError_ok hrow)⟩).andRead fun entry after hentry => ?_
  obtain ⟨row, hrow, -⟩ := andRead_ok hentry
  exact (hs.storeEntry ⟨owner, hfound⟩ hcan (mapError_ok hrow)).withColumns_ok _

theorem moveEntry_fails {destination : Option Uuid}
    (hnone : t.entry? id = none → P (.entryNotFound id))
    (hcheck : ∀ old folder, t.entry? id = some old → destination = some folder →
      ∀ e, t.checkDestination id old.organizationId folder = .error e →
        P (CatalogError.entryMissing id e)) :
    FailsOnly P (Meaning.moveEntry env t id destination) := by
  rw [Meaning.moveEntry]
  have hmoved : FailsOnly P ((t.moveEntry id destination env.now).mapError
      (CatalogError.entryMissing id)) := by
    refine .mapError fun e h => ?_
    rcases found_bind_error h with ⟨hid, rfl⟩ | ⟨old, hold, h⟩
    · exact hnone hid
    · cases destination with
      | none => cases h
      | some folder =>
        rcases bind_error h with h | ⟨_, _, h⟩
        · exact hcheck old folder hold rfl e h
        · cases h
  refine (hmoved.andRead fun row after hrow =>
    hs.linked.moveEntry_toEntry (mapError_ok hrow)).andRead fun entry after hentry => ?_
  obtain ⟨row, hrow, -⟩ := andRead_ok hentry
  exact hs.linked.moveEntry_readWhole (mapError_ok hrow)

theorem updateProperties_fails {members : Members Json}
    (hupdate : FailsOnly P (Catalog.checkUpdate members))
    (hnone : t.entry? id = none → P (.entryNotFound id)) :
    FailsOnly P (Meaning.updateProperties env t id members) := by
  refine hupdate.bind fun update _ => ?_
  have hchanged : FailsOnly P ((t.changeProperties id update env.now).mapError
      (CatalogError.entryMissing id)) := found_fails hnone
  refine (hchanged.andRead fun row after hrow =>
    hs.changeProperties_toEntry (mapError_ok hrow)).andRead fun entry after hentry => ?_
  obtain ⟨row, hrow, -⟩ := andRead_ok hentry
  exact hs.changeProperties_readWhole (mapError_ok hrow)

theorem createColumn_fails {definition : ColumnDefinition} {index : Option Int}
    (hindex : FailsOnly P (Catalog.checkIndex index))
    (hcolumn : FailsOnly P (Catalog.checkDefinition definition))
    (htable : ¬ t.IsEntry table .table → P (.tableNotFound table))
    (htaken : (t.column? (env.fresh 0)).isSome → P .storage) :
    FailsOnly P (Meaning.createColumn env t table definition index) := by
  refine hindex.bind fun position _ => hcolumn.bind fun column _ =>
    (readTable_fails hs htable).bind fun entry _ => ?_
  refine FailsOnly.andRead (.mapError fun e h => ?_) fun row after hrow =>
    Tables.storeColumn_toColumn (mapError_ok hrow)
  rw [Tables.storeColumn] at h
  split at h
  case isTrue hsome =>
    obtain rfl := Except.error.inj h
    exact htaken hsome
  case isFalse => cases h

theorem updateColumn_fails {changes : ColumnChanges}
    (hchanges : FailsOnly P (Catalog.checkChanges changes))
    (htable : ¬ t.IsEntry table .table → P (.tableNotFound table))
    (hcolumn : FailsOnly P (t.readTableColumn table column)) :
    FailsOnly P (Meaning.updateColumn env t table column changes) := by
  refine hchanges.bind fun update _ => (readTable_fails hs htable).bind fun entry _ =>
    hcolumn.bind fun c hc => ?_
  obtain ⟨old, hold, -⟩ := hs.readTableColumn_ok hc
  refine FailsOnly.andRead (found_fails fun hnone => ?_) fun row after hrow =>
    hs.changeColumn_toColumn (mapError_ok hrow)
  rw [hold] at hnone
  cases hnone

theorem deleteColumn_fails (htable : ¬ t.IsEntry table .table → P (.tableNotFound table))
    (hcolumn : FailsOnly P (t.readTableColumn table column)) :
    FailsOnly P (Meaning.deleteColumn t table column) := by
  refine (readTable_fails hs htable).bind fun entry _ => hcolumn.bind fun c hc => ?_
  obtain ⟨old, hold, -⟩ := hs.readTableColumn_ok hc
  refine found_fails fun hnone => ?_
  rw [hold] at hnone
  cases hnone

theorem reorderColumns_fails {columns : List Uuid}
    (htable : ¬ t.IsEntry table .table → P (.tableNotFound table)) :
    FailsOnly P (Meaning.reorderColumns t table columns) :=
  (readTable_fails hs htable).bind fun _ _ => (FailsOnly.ok _).andRead fun _ _ hrows =>
    hs.reorderColumns_toColumn (Except.ok.inj hrows)

theorem executeQuery_fails {document : Json} (hquery : ∀ e, P (CatalogError.ofQuery e))
    (htable : ¬ t.IsEntry table .table → P (.tableNotFound table))
    (hstore : ∀ query columns plan, Query.decode env.limits document = .ok query →
      t.IsEntry table .table → t.readColumns table = .ok columns →
      Query.compile table columns env.now env.fresh query = .ok (.insert plan) →
      ∀ e, t.storeRecords plan = .error e → P (CatalogError.ofStore e))
    (hselect : ∀ query columns plan, Query.decode env.limits document = .ok query →
      t.IsEntry table .table → t.readColumns table = .ok columns →
      Query.compile table columns env.now env.fresh query = .ok (.select plan) →
      Oversized plan → P .storage) :
    FailsOnly P (Meaning.executeQuery env t table document) := by
  refine FailsOnly.bind (.mapError fun e _ => hquery e) fun query hdecoded =>
    (readTable_fails hs htable).bind fun entry hentry =>
      (FailsOnly.of_ok (hs.readColumns_ok table)).bind fun columns hcolumns =>
        FailsOnly.bind (.mapError fun e _ => hquery e) fun plan hplan => ?_
  cases plan with
  | select plan =>
    simp only [Meaning.selectRecords]
    split
    case isTrue hsize =>
      exact .error (hselect query columns plan (mapError_ok hdecoded) (hs.readTable_ok hentry)
        hcolumns (mapError_ok hplan) hsize)
    case isFalse => exact .ok _
  | insert plan =>
    exact FailsOnly.asPart (.mapError (hstore query columns plan (mapError_ok hdecoded)
      (hs.readTable_ok hentry) hcolumns (mapError_ok hplan)))

theorem validateMove_fails {entry : Entry} {destination : Option Uuid}
    (hself : destination = some entry.id → P (.cycleDetected entry.id entry.id))
    (hfolder : ∀ d, destination = some d → FailsOnly P (t.readFolder d))
    (hother : ∀ d row, destination = some d → t.entry? d = some row →
      row.organizationId ≠ entry.organizationId → P (.organizationMismatch entry.id d))
    (hcycle : ∀ d, destination = some d → t.AtOrBelow d entry.id → P (.cycleDetected entry.id d)) :
    FailsOnly P (Meaning.validateMove t entry destination) := by
  cases destination with
  | none => exact .ok ()
  | some d =>
    rw [Meaning.validateMove]
    split
    case isTrue heq =>
      subst heq
      exact .error (hself rfl)
    case isFalse =>
      refine (hfolder d rfl).bind fun folder hread => ?_
      obtain ⟨row, hrow, -, rfl⟩ := hs.readFolder_ok hread
      split
      case isTrue hne => exact .error (hother d row rfl hrow hne)
      case isFalse =>
        split
        case isFalse => exact .ok ()
        case isTrue habove => exact .error (hcycle d rfl (hs.atOrBelow_of_pathTo hrow habove))

theorem listChildren_fails {parent : Parent} {sort : List String} {offset : Nat}
    {limit : Option Nat} {path : Bool} (hsort : ∀ e, P (.invalidSort e))
    (hlimit : FailsOnly P (Catalog.checkLimit env.limits limit))
    (hoffset : FailsOnly P (Catalog.checkOffset offset))
    (hroot : ∀ o, parent = .root o → t.organization? o = none → P (.organizationNotFound o))
    (hfolder : ∀ id, parent = .folder id → FailsOnly P (t.readFolder id))
    (hpage : ∀ keys l k, SortKey.readAll sort = .ok keys →
      Catalog.checkLimit env.limits limit = .ok l → Catalog.checkOffset offset = .ok k →
      t.HasParent parent → Exceeds keys l k → P .storage) :
    FailsOnly P (Meaning.listChildren env t parent sort offset limit path) := by
  have hchildren : ∀ o folder keys l k above, (Exceeds keys l k → P .storage) →
      FailsOnly P (Meaning.childrenPage t o folder keys l k path above) := by
    intro o folder keys l k above hexceeds
    refine FailsOnly.bind (FailsOnly.bind (.mapError fun e h => ?_) fun page hp => ?_)
      fun _ _ => .ok _
    · split at h
      case isTrue hlarge =>
        obtain rfl := Except.error.inj h
        exact hexceeds hlarge
      case isFalse => cases h
    · have hread := hs.page_toEntry o folder keys l k
      replace hp := mapError_ok hp
      split at hp
      · cases hp
      · obtain rfl := Except.ok.inj hp
        exact (FailsOnly.of_ok hread).bind fun _ _ => .ok _
  refine FailsOnly.bind (.mapError fun e _ => hsort e) fun keys hkeys => hlimit.bind fun l hl =>
    hoffset.bind fun k hk => ?_
  have hexceeds := hpage keys l k (mapError_ok hkeys) hl hk
  cases parent with
  | root o =>
    exact (readOrganization_fails (hroot o rfl)).bind fun row hrow =>
      hchildren _ _ _ _ _ _ (hexceeds ⟨row, Tables.readOrganization_ok hrow⟩)
  | folder id =>
    refine (hfolder id rfl).bind fun folder hfolder => hchildren _ _ _ _ _ _ (hexceeds ?_)
    obtain ⟨row, hrow, htype, -⟩ := hs.readFolder_ok hfolder
    exact ⟨row, hrow, htype⟩

end Operations
end TableStore
