import TableStore.Proofs.Parts

/-!
# Tenants

An operation may target an organization: it names the organization, one of its entries, or a column
of one of its tables (`Operation.Targets`), whatever else it names. Then it leaves the part of every
other organization as it is (`Operation.Targets.part_eq`), and so does a history of such calls
(`Database.part_after`).

An operation that shows something of its target (`Operation.IsView`) is answered as if there was
nothing but the part of the organization (`Operation.Targets.answer_part`), and shows rows of this
part (`Operation.IsView.shows`). **Tenants are isolated** (`Database.tenants_are_isolated`) puts
this together.
-/

namespace TableStore

variable {env : Surroundings} {t after : Tables} {organization other id table : Uuid}

/-! ### Targets -/

/-- The operation targets an organization, one of its entries, or a column of one of its tables. -/
def Operation.Targets (t : Tables) (organization : Uuid) : Operation → Prop
  | .getOrganization id | .renameOrganization id _ | .deleteOrganization id
  | .createEntry id _ _ _ _ | .listChildren (.root id) _ _ _ _ => id = organization
  | .getEntry id _ | .computePath id | .validateMove id _ | .moveEntry id _
  | .updateProperties id _ | .deleteEntry id | .listChildren (.folder id) _ _ _ _
  | .listColumns id | .createColumn id _ _ | .reorderColumns id _ | .query id _ =>
    t.Owns organization id
  | .updateColumn table column _ | .deleteColumn table column =>
    t.Owns organization table ∨ ∃ c, t.column? column = some c ∧ t.Owns organization c.tableId
  | .createOrganization _ | .listOrganizations => False

/-! ### What operations leave alone -/

namespace Tables

/-- A table that a column is targeted with is owned like the column. -/
theorem owns_of_column {column : Uuid} {old : ColumnRow} (hold : t.column? column = some old)
    (h : t.Owns organization old.tableId ∨
      ∃ c, t.column? column = some c ∧ t.Owns organization c.tableId) :
    t.Owns organization old.tableId := by
  rcases h with h | ⟨c, hc, h⟩
  · exact h
  · rwa [Option.some_inj.mp (hold.symm.trans hc)]

theorem Sound.ne_of_owns (hs : t.Sound) (h : t.Owns organization id) (hne : organization ≠ other) :
    ∀ e ∈ t.entries, e.id = id → e.organizationId ≠ other := by
  rintro e he rfl howner
  exact hs.notMem_ownedBy h hne (mem_ownedBy.mpr ⟨e, he, rfl, howner⟩)

/-- What goes with an entry belongs to its organization. -/
theorem Sound.notMem_subtree_of_owns (hs : t.Sound) (h : t.Owns organization id)
    (hne : organization ≠ other) : ∀ x ∈ t.ownedBy other, x ∉ t.subtree id := by
  intro x hx hmem
  obtain ⟨e, he, howner⟩ := hs.mem_ownedBy_iff.mp hx
  obtain ⟨row, hrow, hother⟩ := h
  have hsame := hs.organizationId_of_atOrBelow (hs.mem_subtree.mp hmem).2 he hrow
  exact hne (hother.symm.trans (hsame.trans howner))

section Foreign

variable (hs : t.Sound) (hne : organization ≠ other)
include hs hne

theorem Sound.part_withoutOrganization :
    (t.withoutOrganization organization).part other = t.part other := by
  have hgone : ∀ x ∈ t.ownedBy other, x ∉ t.ownedBy organization := fun x hx hmem =>
    hs.notMem_ownedBy (hs.mem_ownedBy_iff.mp hmem) hne hx
  refine Eq.trans ?_ (part_discard hgone)
  refine part_congr (filter_filter_of_imp fun o _ ho => ?_) rfl rfl rfl rfl rfl
  rw [bne_iff_ne, beq_iff_eq.mp ho]
  exact hne.symm

theorem Sound.part_addColumn {row : ColumnRow} (h : t.Owns organization row.tableId)
    (target : ColumnOrder) : (t.addColumn row target).part other = t.part other := by
  have htable : row.tableId ∉ t.ownedBy other := hs.notMem_ownedBy h hne
  refine part_arrange htable (filter_append_of_false fun c hc => ?_) target
  simp [List.mem_singleton.mp hc]

theorem Sound.part_changeColumn {column : Uuid} (f : ColumnRow → ColumnRow) {old : ColumnRow}
    (hold : t.column? column = some old) (h : t.Owns organization old.tableId)
    (hf : ∀ c, (f c).tableId = c.tableId) (order : ColumnOrder) :
    ((t.modifyColumn column f).withOrder old.tableId order).part other = t.part other := by
  have htable : old.tableId ∉ t.ownedBy other := hs.notMem_ownedBy h hne
  refine part_arrange htable
    (filter_map_of_fixed (fun c _ => ?_) fun c hc hother => if_neg fun hid => ?_) order
  · by_cases hid : c.id = column <;> simp [hid, hf]
  · have hthere : t.column? c.id = some c := hs.column?_of_mem hc
    rw [hid, hold] at hthere
    exact bne_iff_ne.mp hother (congrArg ColumnRow.tableId (Option.some_inj.mp hthere).symm)

theorem Sound.part_removeColumn {column : Uuid} {old : ColumnRow}
    (hold : t.column? column = some old) (h : t.Owns organization old.tableId) :
    (t.removeColumn old).part other = t.part other := by
  have htable : old.tableId ∉ t.ownedBy other := hs.notMem_ownedBy h hne
  refine part_arrange htable
    (filter_filter_of_imp fun c hc hother => bne_iff_ne.mpr fun hid => ?_) _
  obtain ⟨hmem, -⟩ := column?_spec hold
  obtain rfl := List.inj_on_of_nodup_map hs.columns_nodup hc hmem hid
  exact bne_iff_ne.mp hother rfl

theorem Sound.part_addRecords (h : t.Owns organization table) {records : List RecordRow}
    (hrecords : ∀ r ∈ records, r.tableId = table) :
    ({ t with records := t.records ++ records } : Tables).part other = t.part other := by
  have htable : table ∉ t.ownedBy other := hs.notMem_ownedBy h hne
  refine part_congr rfl rfl rfl rfl rfl (filter_append_of_false fun r hr => ?_)
  simpa [hrecords r hr] using htable

end Foreign

end Tables

open Tables

/-- **What targets one organization leaves the part of every other one as it is.** -/
theorem Operation.Targets.part_eq (hs : t.Sound) {op : Operation} {reply : Reply}
    (htarget : op.Targets t organization) (hne : organization ≠ other)
    (h : op.meaning env t = .ok (reply, after)) : after.part other = t.part other := by
  have hdoes : op.Does env t after := Operation.does_of_meaning hs h
  cases hdoes with
  | read => rfl
  | createOrganization => exact htarget.elim
  | renameOrganization hrenamed =>
    obtain rfl := renameOrganization_ok hrenamed
    obtain rfl : _ = organization := htarget
    exact part_modifyOrganization (fun _ => rfl) hne
  | deleteOrganization hdropped =>
    obtain rfl := hs.dropOrganization_ok hdropped
    obtain rfl : _ = organization := htarget
    exact hs.part_withoutOrganization hne
  | createEntry _ _ _ _ hstored =>
    obtain ⟨hnew, -, -, -, rfl⟩ := storeEntry_ok hstored
    obtain rfl : _ = organization := htarget
    exact part_addEntry hnew hne fun c hc => (columnRows_spec hc).1
  | moveEntry hmoved =>
    obtain ⟨old, -, -, rfl, -⟩ := moveEntry_ok hmoved
    exact part_modifyEntry (fun _ => rfl) (hs.ne_of_owns htarget hne)
  | updateProperties _ hchanged =>
    obtain ⟨old, -, -, rfl⟩ := changeProperties_ok hchanged
    exact part_modifyEntry (fun _ => rfl) (hs.ne_of_owns htarget hne)
  | deleteEntry hdropped =>
    obtain rfl := hs.dropEntry_ok hdropped
    exact part_discard (hs.notMem_subtree_of_owns htarget hne)
  | createColumn _ _ _ hstored =>
    obtain ⟨-, -, rfl⟩ := storeColumn_ok hstored
    have htable : t.Owns organization _ := htarget
    exact hs.part_addColumn hne htable _
  | updateColumn _ hold htable hchanged =>
    obtain ⟨old, hold', -, rfl⟩ := changeColumn_ok hchanged
    obtain rfl := Option.some_inj.mp (hold.symm.trans hold')
    subst htable
    exact hs.part_changeColumn hne (ColumnUpdate.revise _ env.now _) hold
      (owns_of_column hold htarget) (fun _ => rfl) _
  | deleteColumn hold htable hdropped =>
    obtain ⟨old, hold', rfl⟩ := dropColumn_ok hdropped
    obtain rfl := Option.some_inj.mp (hold.symm.trans hold')
    subst htable
    exact hs.part_removeColumn hne hold (owns_of_column hold htarget)
  | reorderColumns => exact part_withOrder (hs.notMem_ownedBy htarget hne) _
  | insertRecords hstored =>
    obtain rfl := insertRecords_ok (storeRecords_ok hstored)
    obtain ⟨result, hresult, -⟩ := asPart_ok h
    rcases Meaning.executeQuery_records hresult with hsame | ⟨records, -, hrecords, htables⟩
    · exact part_congr rfl rfl rfl rfl rfl (congrArg _ hsame)
    · have hadded := hs.part_addRecords hne htarget fun r hr => (htables r hr).1
      rw [← hrecords] at hadded
      exact hadded

/-! ### What operations show -/

/-- The operation shows something of its target: the organization, an entry, a path, a listing,
columns, or what a query asks for that does not insert. -/
def Operation.IsView (env : Surroundings) : Operation → Prop
  | .getOrganization _ | .getEntry _ _ | .computePath _ | .listChildren _ _ _ _ _
  | .listColumns _ => True
  | .query _ document => ∀ q, Query.decode env.limits document ≠ .ok (.insert q)
  | _ => False

namespace Tables.Sound

variable (hs : t.Sound)
include hs

omit hs in
theorem childrenPage_part (parent : Option Uuid) (keys : List SortKey) (limit offset : Nat)
    (path : Bool) (above : List PathElement) :
    Meaning.childrenPage (t.part organization) organization parent keys limit offset path above =
      Meaning.childrenPage t organization parent keys limit offset path above := by
  have hpage : (t.part organization).page organization parent keys limit offset =
      t.page organization parent keys limit offset := by
    rw [page, children_part, page]
  rw [Meaning.childrenPage, readChildren, hpage]
  rfl

theorem listChildren_part {parent : Parent} {sort : List String} {offset : Nat}
    {limit : Option Nat} {path : Bool}
    (h : (Operation.listChildren parent sort offset limit path).Targets t organization) :
    Meaning.listChildren env (t.part organization) parent sort offset limit path =
      Meaning.listChildren env t parent sort offset limit path := by
  refine bind_congr_ok fun keys _ => bind_congr_ok fun size _ => bind_congr_ok fun k _ => ?_
  cases parent with
  | root id =>
    obtain rfl : id = organization := h
    dsimp only
    rw [hs.readOrganization_part]
    exact bind_congr_ok fun _ _ => childrenPage_part none keys size k path []
  | folder id =>
    obtain ⟨row, hrow, rfl⟩ := h
    dsimp only
    rw [hs.readFolder_part ⟨row, hrow, rfl⟩]
    refine bind_congr_ok fun folder hfolder => ?_
    obtain ⟨row', hrow', -, rfl⟩ := hs.readFolder_ok hfolder
    obtain rfl := Option.some_inj.mp (hrow.symm.trans hrow')
    have hpath : (t.part row.organizationId).pathTo row.parent = t.pathTo row.parent :=
      hs.pathTo_part (hs.owns_parent hrow rfl)
    show Meaning.childrenPage _ _ _ _ _ _ _
      (if path then (t.part row.organizationId).pathTo row.parent ++ _ else []) = _
    rw [hpath]
    exact childrenPage_part (some id) keys size k path _

theorem selectRecords_part {plan : Query.SelectPlan} (h : t.Owns organization plan.tableId) :
    (t.part organization).selectRecords plan = t.selectRecords plan := by
  rw [selectRecords_eq, hs.recordsOf_part h, ← selectRecords_eq]

theorem executeQuery_part {document : Json}
    (hview : ∀ q, Query.decode env.limits document ≠ .ok (.insert q))
    (h : t.Owns organization table) :
    answerOf (Meaning.executeQuery env (t.part organization) table document) =
      answerOf (Meaning.executeQuery env t table document) := by
  refine answerOf_bind_congr fun query hquery => ?_
  rw [hs.readTable_part h, hs.readColumns_part h]
  refine answerOf_bind_congr fun entry _ => answerOf_bind_congr fun columns _ =>
    answerOf_bind_congr fun plan hplan => ?_
  cases plan with
  | insert plan =>
    obtain ⟨q, rfl, -⟩ := Query.compile_insert_ok (mapError_ok hplan)
    exact absurd (mapError_ok hquery) (hview q)
  | select plan =>
    obtain ⟨q, -, hselect⟩ := Query.compile_select_ok (mapError_ok hplan)
    obtain rfl : plan.tableId = table := Query.tableId_of_compileSelect hselect
    dsimp only
    rw [Meaning.selectRecords, Meaning.selectRecords, hs.selectRecords_part h]
    split <;> rfl

end Tables.Sound

/-- **What targets an organization is answered as if there was nothing else.** -/
theorem Operation.Targets.answer_part (hs : t.Sound) {op : Operation}
    (htarget : op.Targets t organization) (hview : op.IsView env) :
    answerOf (op.meaning env (t.part organization)) = answerOf (op.meaning env t) := by
  have hunchanged : ∀ {α : Type} (f : α → Reply) {r r' : Except CatalogError α}, r = r' →
      answerOf (Meaning.unchanged (t.part organization) f r) =
        answerOf (Meaning.unchanged t f r') := by
    rintro α f r - rfl
    cases r <;> rfl
  cases op with
  | getOrganization id =>
    obtain rfl : id = organization := htarget
    exact hunchanged _ hs.readOrganization_part
  | getEntry id path => exact hunchanged _ (hs.readWhole_part htarget path)
  | computePath id =>
    obtain ⟨row, hrow, rfl⟩ : t.Owns organization id := htarget
    refine hunchanged _ ?_
    rw [hs.readEntry_part ⟨row, hrow, rfl⟩]
    refine bind_congr_ok fun entry hentry => ?_
    obtain ⟨row', hrow', -, heq⟩ := hs.readEntry_ok hentry
    obtain rfl := Option.some_inj.mp (hrow.symm.trans hrow')
    have hparent : entry.parent = row.parent := heq ▸ rfl
    rw [hparent]
    exact congrArg pure (hs.pathTo_part (hs.owns_parent hrow rfl))
  | listChildren parent sort offset limit path => exact hunchanged _ (hs.listChildren_part htarget)
  | listColumns table =>
    refine hunchanged _ ?_
    rw [hs.readTable_part htarget, hs.readColumns_part htarget]
  | query table document =>
    have hanswer := hs.executeQuery_part hview htarget
    rw [meaning, meaning, answerOf_asPart, hanswer, answerOf_asPart]
  -- all the others show something else
  | _ => exact hview.elim

/-! ### Rows in replies -/

/-- An element of a path is an entry. -/
def PathElement.IsFrom (t : Tables) (x : PathElement) : Prop :=
  ∃ row ∈ t.entries, row.id = x.id

/-- A column is one of its table. -/
def Column.IsFrom (t : Tables) (c : Column) : Prop :=
  ∃ row ∈ t.columns, row.id = c.id ∧ row.tableId = c.tableId

/-- An entry is one of its organization, with its path and its columns where they are there. -/
structure Entry.IsFrom (t : Tables) (e : Entry) : Prop where
  row : ∃ row ∈ t.entries, row.id = e.id ∧ row.organizationId = e.organizationId
  path : ∀ above, e.path = some above → ∀ x ∈ above, x.IsFrom t
  columns : ∀ columns, e.columns = some columns → ∀ c ∈ columns, c.IsFrom t

/-- A reply to an operation shows nothing but rows of the tables: each row of an answer to a query
shows what the query asks for of a record. -/
def Operation.Shows (env : Surroundings) (t : Tables) (op : Operation) : Reply → Prop
  | .organization o => o ∈ t.organizations
  | .entry e => e.IsFrom t
  | .path above => ∀ x ∈ above, x.IsFrom t
  | .page page => ∀ e ∈ page.entries, e.IsFrom t
  | .columns columns => ∀ c ∈ columns, c.IsFrom t
  | .rows rows => ∃ table document q, op = .query table document ∧
      Query.decode env.limits document = .ok (.select q) ∧
      ∃ records : List RecordRow, records ⊆ t.records ∧
        rows = records.map fun r => q.columns.map (Query.Expr.cell r)
  | .nothing | .organizations _ | .column _ | .inserted _ => False

namespace Tables

theorem isFrom_pathTo (parent : Option Uuid) : ∀ x ∈ t.pathTo parent, x.IsFrom t := by
  intro x hx
  cases parent with
  | none => cases hx
  | some p =>
    rw [pathTo, List.mem_reverse, List.mem_filterMap] at hx
    obtain ⟨y, -, hy⟩ := hx
    obtain ⟨row, hrow, rfl⟩ := Option.map_eq_some_iff.mp hy
    exact ⟨row, (entry?_spec hrow).1, rfl⟩

theorem isFrom_readColumns {columns : List Column} (h : t.readColumns table = .ok columns) :
    ∀ c ∈ columns, c.IsFrom t := by
  intro c hc
  obtain ⟨reread, hreread, hread⟩ := exists_of_mem_mapM h c hc
  obtain ⟨row, hrow, rfl⟩ := List.mem_map.mp hreread
  refine ⟨row, (mem_columnsOf.mp hrow).1, ?_⟩
  rw [ColumnRow.toColumn] at hread
  split at hread
  · obtain rfl := Except.ok.inj hread
    exact ⟨rfl, rfl⟩
  · cases hread

theorem isFrom_listed {row : EntryRow} (hrow : row ∈ t.entries) (path : Bool) :
    (t.listed path row).IsFrom t where
  row := ⟨row, hrow, rfl, rfl⟩
  path := by
    intro above habove
    cases path with
    | false => cases habove
    | true =>
      obtain rfl := Option.some_inj.mp habove
      exact isFrom_pathTo row.parent
  columns := nofun

theorem isFrom_withColumns {e whole : Entry} (he : e.IsFrom t)
    (h : t.withColumns e = .ok whole) : whole.IsFrom t := by
  rw [withColumns] at h
  split at h
  case h_1 =>
    obtain rfl := Except.ok.inj h
    exact he
  case h_2 =>
    obtain ⟨columns, hcolumns, h⟩ := bind_ok h
    obtain rfl := Except.ok.inj h
    refine ⟨he.row, he.path, fun listed hlisted => ?_⟩
    obtain rfl := Option.some_inj.mp hlisted
    exact isFrom_readColumns hcolumns

theorem Sound.isFrom_readWhole (hs : t.Sound) {path : Bool} {e : Entry}
    (h : t.readWhole id path = .ok e) : e.IsFrom t := by
  obtain ⟨entry, hentry, h⟩ := bind_ok h
  obtain ⟨whole, hwhole, h⟩ := bind_ok h
  obtain ⟨row, hrow, -, heq⟩ := hs.readEntry_ok hentry
  have hread : entry.IsFrom t := by
    rw [heq]
    exact ⟨⟨row, (entry?_spec hrow).1, rfl, rfl⟩, nofun, nofun⟩
  have hfrom : whole.IsFrom t := isFrom_withColumns hread hwhole
  cases path with
  | false =>
    obtain rfl := Except.ok.inj h
    exact hfrom
  | true =>
    obtain rfl := Except.ok.inj h
    refine ⟨hfrom.row, fun above habove => ?_, hfrom.columns⟩
    obtain rfl := Option.some_inj.mp habove
    exact isFrom_pathTo _

end Tables

/-- The answer of a query that does not insert shows records of its table. -/
theorem Meaning.executeQuery_shows {document : Json}
    (hview : ∀ q, Query.decode env.limits document ≠ .ok (.insert q))
    {result : Catalog.QueryResult}
    (h : Meaning.executeQuery env t table document = .ok (result, after)) :
    (Operation.query table document).Shows env t (Reply.ofQuery result) := by
  obtain ⟨query, hquery, h⟩ := bind_ok h
  obtain ⟨entry, -, h⟩ := bind_ok h
  obtain ⟨columns, -, h⟩ := bind_ok h
  obtain ⟨plan, hplan, hanswer⟩ := bind_ok h
  cases plan with
  | insert plan =>
    obtain ⟨q, rfl, -⟩ := Query.compile_insert_ok (mapError_ok hplan)
    exact absurd (mapError_ok hquery) (hview q)
  | select plan =>
    obtain ⟨q, rfl, hselect⟩ := Query.compile_select_ok (mapError_ok hplan)
    obtain ⟨-, -, rfl⟩ := Meaning.selectRecords_ok hanswer
    refine ⟨table, document, q, rfl, mapError_ok hquery, _, fun r hr => ?_,
      selectRecords_compiled hselect t⟩
    have harranged : r ∈ t.arrangedRecords table q.orderBy :=
      List.mem_of_mem_drop (List.mem_of_mem_take hr)
    exact List.mem_of_mem_filter ((List.mergeSort_perm _ _).mem_iff.mp harranged)

/-- **What an operation shows are rows of the tables.** -/
theorem Operation.IsView.shows (hs : t.Sound) {op : Operation} {reply : Reply}
    (hview : op.IsView env) (h : op.meaning env t = .ok (reply, after)) : op.Shows env t reply := by
  have hvalue : ∀ {α : Type} {f : α → Reply} {r : Except CatalogError α},
      Meaning.unchanged t f r = .ok (reply, after) → ∃ a, r = .ok a ∧ f a = reply := by
    intro α f r h
    obtain ⟨a, ha, hf⟩ := asPart_ok h
    obtain ⟨b, hb, heq⟩ := map_ok ha
    exact ⟨b, hb, (Prod.mk.inj heq).1 ▸ hf⟩
  cases op with
  | getOrganization id =>
    obtain ⟨o, ho, rfl⟩ := hvalue h
    exact (organization?_spec (readOrganization_ok ho)).1
  | getEntry id path =>
    obtain ⟨e, he, rfl⟩ := hvalue h
    exact hs.isFrom_readWhole he
  | computePath id =>
    obtain ⟨above, habove, rfl⟩ := hvalue h
    obtain ⟨entry, -, habove⟩ := bind_ok habove
    obtain rfl := Except.ok.inj habove
    exact isFrom_pathTo _
  | listChildren parent sort offset limit path =>
    obtain ⟨page, hpage, rfl⟩ := hvalue h
    obtain ⟨keys, size, rfl⟩ := hs.listChildren_ok hpage
    intro e he
    obtain ⟨row, hrow, rfl⟩ := List.mem_map.mp he
    have hchild : row ∈ t.childrenOf parent :=
      SortKey.mem_arrange.mp (List.mem_of_mem_drop (List.mem_of_mem_take hrow))
    exact isFrom_listed (t.childrenOf_subset parent hchild) path
  | listColumns table =>
    obtain ⟨columns, hcolumns, rfl⟩ := hvalue h
    obtain ⟨entry, -, hcolumns⟩ := bind_ok hcolumns
    exact isFrom_readColumns hcolumns
  | query table document =>
    obtain ⟨result, hresult, rfl⟩ := asPart_ok h
    exact Meaning.executeQuery_shows hview hresult
  -- all the others show something else
  | _ => exact hview.elim

/-! ### Calls -/

namespace Database

variable {db : Database}

/-- A call that targets one organization leaves the part of every other one as it is, whether or not
it succeeds. -/
theorem part_perform (hu : db.Usable) {call : Call}
    (htarget : call.operation.Targets db.tables organization) (hne : organization ≠ other) :
    (db.perform call).state.tables.part other = db.tables.part other := by
  cases h : (db.perform call).result with
  | error e => rw [perform_error hu h]
  | ok reply =>
    obtain ⟨t, hmeaning, hstate⟩ := meaning_of_perform hu h
    rw [hstate]
    exact htarget.part_eq hu.sound hne hmeaning

/-- The calls target other organizations, each in the database that the ones before it leave. -/
def AvoidedBy (organization : Uuid) (db : Database) : List Call → Prop
  | [] => True
  | call :: rest =>
    (∃ other, other ≠ organization ∧ call.operation.Targets db.tables other) ∧
      AvoidedBy organization (db.perform call).state rest

/-- **What the others do leaves the part of an organization as it is**, however often they do it. -/
theorem part_after (hu : db.Usable) {later : List Call} (h : db.AvoidedBy organization later) :
    (db.after later).tables.part organization = db.tables.part organization := by
  induction later generalizing db with
  | nil => rfl
  | cons call rest ih =>
    obtain ⟨⟨other, hne, htarget⟩, hrest⟩ := h
    exact (ih (hu.perform call).1 hrest).trans (part_perform hu htarget hne)

/-- **Tenants are isolated.** Whatever has been called before, a call that targets one organization
leaves the row of every other one as it is, and all its entries with their properties, its columns
and its records, whether or not it succeeds and whatever else it names. If it is to show something
of its target, it is answered as if the database had nothing but the part of the organization, and
what it shows are rows of this part. However many calls there are that target others, they leave the
part of an organization as it is. -/
theorem tenants_are_isolated (history : List Call) (call : Call) {mine other : Uuid}
    (hne : mine ≠ other) (htarget : call.operation.Targets (fresh.after history).tables mine) :
    let db := fresh.after history
    let outcome := db.perform call
    let alone : Database := { db with tables := db.tables.part mine }
    outcome.state.tables.part other = db.tables.part other ∧
      (call.operation.IsView call.surroundings →
        outcome.result = (alone.perform call).result ∧
          ∀ reply, outcome.result = .ok reply →
            call.operation.Shows call.surroundings (db.tables.part mine) reply) ∧
      ∀ later, db.AvoidedBy other later →
        (db.after later).tables.part other = db.tables.part other := by
  intro db outcome alone
  have hu : db.Usable := usable_after history
  have halone : alone.Usable := ⟨hu.sound.part mine, hu.writable⟩
  have hlocked : db.locked = none := locked_after history
  refine ⟨part_perform hu htarget hne, fun hview => ?_, fun later h => part_after hu h⟩
  have hsame : outcome.result = (alone.perform call).result := by
    have hanswer := htarget.answer_part hu.sound hview
    exact (perform_eq hu hlocked call).trans
      (hanswer.symm.trans (perform_eq halone hlocked call).symm)
  refine ⟨hsame, fun reply hreply => ?_⟩
  obtain ⟨t, hmeaning, -⟩ := meaning_of_perform halone (hsame.symm.trans hreply)
  exact hview.shows halone.sound hmeaning

/-- Two organizations have a table each. The columns of the one are reordered by a column of the
other, and its root is listed. -/
theorem tenants_are_isolated_tables :
    let history : List Call :=
      [⟨.numbered 1, .createOrganization "mine"⟩, ⟨.numbered 2, .createOrganization "other"⟩,
        ⟨.numbered 3, .createEntry ⟨1⟩ .table none [] [⟨"a", "string", []⟩]⟩,
        ⟨.numbered 5, .createEntry ⟨2⟩ .table none [] [⟨"b", "string", []⟩]⟩]
    let db := fresh.after history
    let reorder : Call := ⟨.numbered 7, .reorderColumns ⟨3⟩ [⟨6⟩, ⟨4⟩]⟩
    let list : Call := ⟨.numbered 7, .listChildren (.root ⟨1⟩) [] 0 none true⟩
    (db.tables.part ⟨2⟩).columns.map ColumnRow.id = [⟨6⟩] ∧
      (db.perform reorder).state.tables.part ⟨2⟩ = db.tables.part ⟨2⟩ ∧
      (db.perform list).result =
        (({ db with tables := db.tables.part ⟨1⟩ } : Database).perform list).result := by
  intro history db reorder list
  have hne : (⟨1⟩ : Uuid) ≠ ⟨2⟩ := by decide
  have hreorder : reorder.operation.Targets db.tables ⟨1⟩ :=
    (sound_after history).mem_ownedBy_iff.mp (by decide +kernel)
  exact ⟨by decide +kernel, (tenants_are_isolated history reorder hne hreorder).1,
    ((tenants_are_isolated history list hne rfl).2.1 trivial).1⟩

end Database
end TableStore
