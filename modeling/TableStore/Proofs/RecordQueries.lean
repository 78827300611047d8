import TableStore.Proofs.Effects
import TableStore.Proofs.TermValues

/-!
# Inserting records and paging through them

What the two queries on records do to the tables. An insert adds one record for each row, in their
order, and the identifiers it answers are those of the records (`Sound.executeQuery_inserted`).

`Query.page` is the document of the query that asks for a window of the records of a table: some of
their columns and their identifiers, in the default order. It is never refused for columns that the
table has, and its answer is a window of all records in that order (`Sound.executeQuery_page`), so
that successive pages together are the records of the table, each once (`flatMap_window`).
-/

namespace TableStore

/-! ### Records of rows -/

/-- A new record as it is stored. -/
def Query.NewRecord.stored (r : NewRecord) : RecordRow :=
  ⟨r.id, r.tableId, r.data, r.createdAt, r.createdAt⟩

/-- The records of an insertion as they are stored. -/
def Query.InsertPlan.stored (p : InsertPlan) : List RecordRow :=
  p.records.map NewRecord.stored

theorem Query.InsertPlan.map_id_stored (p : InsertPlan) :
    p.stored.map RecordRow.id = p.recordIds := by
  rw [stored, List.map_map]
  rfl

namespace Query

variable {table : Uuid} {columns : List Uuid} {now : Timestamp} {fresh : Nat → Uuid}

/-- Every row becomes a record of the table that holds its cells; it has one for each column. -/
theorem compileRows_ok {position : Nat} {rows : List (List Json)} {records : List NewRecord}
    (h : compileRows table columns now fresh position rows = .ok records) :
    (∀ r ∈ records, r.tableId = table) ∧
      List.Forall₂ (fun r row => r.data = rowData columns row ∧ row.length = columns.length)
        records rows := by
  induction rows generalizing position records with
  | nil =>
    obtain rfl := Except.ok.inj h
    exact ⟨nofun, .nil⟩
  | cons row rest ih =>
    rw [compileRows] at h
    split at h
    case isTrue => cases h
    case isFalse hlength =>
      obtain ⟨more, hmore, h⟩ := bind_ok h
      obtain rfl := Except.ok.inj h
      obtain ⟨htables, hrows⟩ := ih hmore
      exact ⟨List.forall_mem_cons.mpr ⟨rfl, htables⟩, .cons ⟨rfl, not_not.mp hlength⟩ hrows⟩

theorem requireColumn_ok {known : List Column} {id : Uuid} {type : ColumnType}
    (h : requireColumn known id = .ok type) : id ∈ known.map Column.id := by
  rw [requireColumn, columnType?] at h
  cases hf : known.find? fun c => c.id == id with
  | none =>
    rw [hf] at h
    cases h
  | some c =>
    obtain ⟨hm, rfl⟩ := mem_and_key_of_find? hf
    exact List.mem_map_of_mem hm

/-- A column that the table has is accepted. -/
theorem exists_requireColumn {known : List Column} {id : Uuid} (h : id ∈ known.map Column.id) :
    ∃ type, requireColumn known id = .ok type := by
  obtain ⟨c, hc, rfl⟩ := List.mem_map.mp h
  rw [requireColumn, columnType?]
  cases hf : known.find? fun d => d.id == c.id with
  | none => exact absurd rfl (find?_key_eq_none.mp hf c hc)
  | some d => exact ⟨d.type, rfl⟩

theorem forM_requireColumn_ok {known : List Column} {u : PUnit} {ids : List Uuid}
    (h : ids.forM (fun id => discard (requireColumn known id)) = .ok u) :
    ∀ id ∈ ids, id ∈ known.map Column.id := by
  induction ids with
  | nil => simp
  | cons first rest ih =>
    rw [List.forM] at h
    obtain ⟨_, hfirst, hrest⟩ := bind_ok h
    intro id hid
    rcases List.mem_cons.mp hid with rfl | hid
    · cases hr : requireColumn known id with
      | ok type => exact requireColumn_ok hr
      | error e =>
        rw [hr] at hfirst
        cases hfirst
    · exact ih hrest id hid

/-- An insert that is compiled names columns of the table only. -/
theorem compileInsert_ok {known : List Column} {q : Insert} {plan : InsertPlan}
    (h : compileInsert table known now fresh q = .ok plan) :
    (∀ id ∈ q.columns, id ∈ known.map Column.id) ∧ (∀ r ∈ plan.records, r.tableId = table) ∧
      List.Forall₂ (fun r row => r.data = rowData q.columns row ∧ row.length = q.columns.length)
        plan.records q.rows := by
  obtain ⟨u, hcolumns, h⟩ := bind_ok h
  obtain ⟨records, hrecords, h⟩ := bind_ok h
  obtain rfl := Except.ok.inj h
  exact ⟨forM_requireColumn_ok hcolumns, compileRows_ok hrecords⟩

end Query

namespace Tables

variable {t after : Tables} {table : Uuid}

/-- Stored records stand behind those that are there, in their order. -/
theorem insertRecords_ok {records : List Query.NewRecord}
    (h : t.insertRecords records = .ok after) :
    after = { t with records := t.records ++ records.map Query.NewRecord.stored } := by
  induction records generalizing t with
  | nil =>
    obtain rfl := Except.ok.inj h
    simp
  | cons r rest ih =>
    rw [insertRecords, List.foldlM_cons] at h
    obtain ⟨between, hr, hrest⟩ := bind_ok h
    obtain ⟨-, -, rfl⟩ := insertRecord_ok hr
    rw [ih hrest]
    simp [Query.NewRecord.stored]

/-- **An insert stores one record for each row**, and answers their identifiers. -/
theorem Sound.executeQuery_inserted (hs : t.Sound) {env : Surroundings} {document : Json}
    {q : Query.Insert} {result : Catalog.QueryResult}
    (hq : Query.decode env.limits document = .ok (.insert q))
    (h : Meaning.executeQuery env t table document = .ok (result, after)) :
    ∃ columns plan, t.readColumns table = .ok columns ∧
      Query.compile table columns env.now env.fresh (.insert q) = .ok (.insert plan) ∧
      result = .inserted plan.recordIds ∧ after = { t with records := t.records ++ plan.stored } ∧
      t.IsEntry table .table ∧ (∀ id ∈ q.columns, id ∈ t.columnOrder table) ∧
      (∀ r ∈ plan.stored, r.tableId = table) ∧
      List.Forall₂ (fun r row => r.data = Query.rowData q.columns row ∧
        row.length = q.columns.length) plan.stored q.rows := by
  rw [Meaning.executeQuery, hq] at h
  obtain ⟨query, hquery, h⟩ := bind_ok h
  obtain rfl := Except.ok.inj (mapError_ok hquery)
  obtain ⟨entry, hentry, h⟩ := bind_ok h
  obtain ⟨columns, hcolumns, h⟩ := bind_ok h
  obtain ⟨plan, hplan, h⟩ := bind_ok h
  replace hplan := mapError_ok hplan
  obtain ⟨inserted, hinsert, rfl⟩ := map_ok hplan
  obtain ⟨count, hstored, rfl⟩ := asPart_ok h
  obtain ⟨hknown, htables, hrows⟩ := Query.compileInsert_ok hinsert
  rw [map_id_of_readColumns hcolumns] at hknown
  exact ⟨columns, inserted, hcolumns, hplan, rfl,
    insertRecords_ok (storeRecords_ok (mapError_ok hstored)), hs.readTable_ok hentry, hknown,
    List.forall_mem_map.mpr htables, List.forall₂_map_left_iff.mpr hrows⟩

end Tables

/-! ### Queries for pages -/

namespace Query

/-- Some columns and the identifier of the record. -/
def pageColumns (columns : List Uuid) : List Expr :=
  columns.map .column ++ [.metadata .id]

/-- The body of the query for a page. -/
def pageMembers (columns : List Uuid) (limit offset : Nat) : Members Json :=
  [("columns", .arr ((pageColumns columns).map encodeExpr)), ("limit", .ofNat limit),
    ("offset", .ofNat offset)]

/-- The query for a window of the records of a table, in the default order. -/
def page (columns : List Uuid) (limit offset : Nat) : Json :=
  .obj [("select", .obj (pageMembers columns limit offset))]

theorem decodeExpr_column (address : Json.Address) (id : Uuid) :
    decodeExpr address (encodeExpr (.column id)) = .ok (.column id) := by
  simp [encodeExpr, decodeExpr, decodeColumn, Json.text?, Uuid.read?_text]

theorem decodeExpr_recordId (address : Json.Address) :
    decodeExpr address (encodeExpr (.metadata .id)) = .ok (.metadata .id) := by
  simp [encodeExpr, decodeExpr, decodeMetadata, Json.text?, Metadata.read?, Metadata.all,
    Metadata.name]

theorem decodeExprs_pageColumns (address : Json.Address) (columns : List Uuid) (position : Nat) :
    decodeExprs address position ((pageColumns columns).map encodeExpr) =
      .ok (pageColumns columns) := by
  induction columns generalizing position with
  | nil =>
    simp only [pageColumns, List.map_nil, List.nil_append, List.map_cons, decodeExprs,
      decodeExpr_recordId]
    rfl
  | cons id rest ih =>
    have hcons : pageColumns (id :: rest) = .column id :: pageColumns rest := rfl
    rw [hcons, List.map_cons, decodeExprs, decodeExpr_column, ih]
    rfl

theorem asNatural_ofNat (address : Json.Address) (n : Nat) :
    asNatural address (.ofNat n) = .ok n :=
  rfl

theorem decodeLimit_ofNat {limits : Limits} {members : Members Json} {limit : Nat}
    (h : optional "limit" members = some (.ofNat limit)) (hlimit : limit ≤ limits.max) :
    decodeLimit limits members = .ok limit := by
  simp only [decodeLimit, h, asNatural_ofNat, bind, Except.bind, if_neg (Nat.not_lt.mpr hlimit)]
  rfl

theorem decodeOffset_ofNat {members : Members Json} {offset : Nat}
    (h : optional "offset" members = some (.ofNat offset)) (hoffset : offset ≤ maxOffset) :
    decodeOffset members = .ok offset := by
  simp only [decodeOffset, h, asNatural_ofNat, bind, Except.bind, if_neg (Nat.not_lt.mpr hoffset)]
  rfl

/-- The query for a page is read as what it says. -/
theorem decode_page {limits : Limits} {columns : List Uuid} {limit offset : Nat}
    (hlimit : limit ≤ limits.max) (hoffset : offset ≤ maxOffset) :
    decode limits (page columns limit offset) =
      .ok (.select ⟨pageColumns columns, none, SortExpr.default, offset, limit⟩) := by
  have hallowed : allowOnly [] ["columns", "where", "order_by", "offset", "limit"]
      (pageMembers columns limit offset) = .ok () := by
    simp [allowOnly, pageMembers, Members.keys]
  have hcolumns : required [] "columns" (pageMembers columns limit offset) =
      .ok (.arr ((pageColumns columns).map encodeExpr)) := rfl
  have hsome : (pageColumns columns).isEmpty = false := by simp [pageColumns]
  have hselect : decodeSelect limits (.obj (pageMembers columns limit offset)) =
      .ok ⟨pageColumns columns, none, SortExpr.default, offset, limit⟩ := by
    have hfilter : decodeFilter (pageMembers columns limit offset) = .ok none := rfl
    have horder : decodeOrderBy (pageMembers columns limit offset) = .ok SortExpr.default := rfl
    have hwindow : decodeOffset (pageMembers columns limit offset) = .ok offset ∧
        decodeLimit limits (pageMembers columns limit offset) = .ok limit :=
      ⟨decodeOffset_ofNat rfl hoffset, decodeLimit_ofNat rfl hlimit⟩
    simp only [decodeSelect, asObject, asArray, bind, Except.bind, hallowed, hcolumns,
      decodeExprs_pageColumns, hsome, hfilter, horder, hwindow]
    rfl
  have hkind : decode limits (page columns limit offset) =
      decodeSelect limits (.obj (pageMembers columns limit offset)) >>= fun q =>
        .ok (.select q) := rfl
  rw [hkind, hselect]
  rfl

/-- The columns of a page can be compiled, and need no literals. -/
theorem compileEach_pageColumns {known : List Column} {columns : List Uuid}
    (h : ∀ id ∈ columns, id ∈ known.map Column.id) (next : Nat) :
    ∃ type : Uuid → ColumnType, compileEach (compileOutput known) next (pageColumns columns) =
      .ok (columns.map (fun id => .cell id (type id)) ++ [.recordId], []) := by
  have hknown : ∀ id ∈ columns, ∃ type, requireColumn known id = .ok type :=
    fun id hid => exists_requireColumn (h id hid)
  choose! type htype using hknown
  refine ⟨type, ?_⟩
  clear h
  induction columns with
  | nil => rfl
  | cons id rest ih =>
    have hcons : pageColumns (id :: rest) = .column id :: pageColumns rest := rfl
    have hid : compileOutput known next (.column id) = .ok (.cell id (type id), []) := by
      rw [compileOutput, compileExpr, htype id List.mem_cons_self]
      · rfl
      · nofun
    rw [hcons, compileEach, hid]
    have hrest := ih fun id hid => htype id (List.mem_cons_of_mem _ hid)
    simp only [bind, Except.bind, pure, Except.pure, List.length_nil, Nat.add_zero, hrest]
    rfl

/-- The plan of the query for a page, given the types of the columns. -/
def pagePlan (table : Uuid) (columns : List Uuid) (limit offset : Nat) (type : Uuid → ColumnType) :
    SelectPlan where
  tableId := table
  outputs := columns.map (fun id => .cell id (type id)) ++ [.recordId]
  order := [(.createdAt, .asc), (.recordId, .asc)]
  limit := limit
  offset := offset
  literals := []

/-- The query for a page of columns that the table has is compiled to its plan. -/
theorem compile_page (table : Uuid) {known : List Column} {columns : List Uuid} {limit offset : Nat}
    (h : ∀ id ∈ columns, id ∈ known.map Column.id) (hoffset : offset ≤ maxOffset) :
    ∃ type : Uuid → ColumnType,
      compile table known now fresh
          (.select ⟨pageColumns columns, none, SortExpr.default, offset, limit⟩) =
        .ok (.select (pagePlan table columns limit offset type)) := by
  obtain ⟨type, hcolumns⟩ := compileEach_pageColumns h 2
  refine ⟨type, ?_⟩
  simp only [compile, compileSelect, hcolumns, bind, Except.bind,
    if_neg (Nat.not_lt.mpr hoffset)]
  rfl

end Query

namespace Tables

variable {t : Tables} {table : Uuid}

/-- The records of a table in the default order: by time of creation, then by identifier. -/
def sortedRecords (t : Tables) (table : Uuid) : List RecordRow :=
  sortByKeys (fun r => [(.time r.createdAt, .asc), (.text r.id.text, .asc)]) (t.recordsOf table)

/-- What a page shows of a record. -/
def pageRow (columns : List Uuid) (r : RecordRow) : List Json :=
  columns.map (fun id => (termValue [] r (.cell id .string)).toJson) ++ [.str r.id.text]

theorem sortedRecords_perm : (t.sortedRecords table).Perm (t.recordsOf table) :=
  sortByKeys_perm _ _

/-- The plan of a page answers a window of the sorted records. -/
theorem selectRecords_page (columns : List Uuid) (limit offset : Nat)
    (type : Uuid → ColumnType) :
    (t.selectRecords (Query.pagePlan table columns limit offset type)).map
        (fun row => row.map Sql.Value.toJson) =
      (window offset limit (t.sortedRecords table)).map (pageRow columns) := by
  have hkeys : ∀ r, [(termValue [.uuid table] r .createdAt, Direction.asc),
      (termValue [.uuid table] r .recordId, .asc)] =
      [(.time r.createdAt, .asc), (.text r.id.text, .asc)] := by
    intro r
    rw [termValue_recordId]
    rfl
  have hrow : ∀ r, ((Query.pagePlan table columns limit offset type).outputs.map
      (termValue [.uuid table] r)).map Sql.Value.toJson = pageRow columns r := by
    intro r
    simp only [Query.pagePlan, List.map_append, List.map_map, List.map_cons, List.map_nil,
      termValue_recordId, pageRow]
    rfl
  rw [sortedRecords, ← funext hkeys, selectRecords_eq, List.map_map]
  exact List.map_congr_left fun r _ => hrow r

/-- A page has one column more than it is asked for, and two terms to sort by. -/
theorem oversized_pagePlan {columns : List Uuid} {limit offset : Nat}
    {type : Uuid → ColumnType} :
    Oversized (Query.pagePlan table columns limit offset type) ↔
      Database.maxColumns < columns.length + 1 := by
  have hterms : ¬ Database.maxSortTerms < 2 := by decide
  simp [Oversized, Query.pagePlan, Query.SelectPlan.width, hterms]

/-- **A page is a window of the sorted records**, and is refused for columns of the table only where
there are too many of them. -/
theorem Sound.executeQuery_page (hs : t.Sound) {env : Surroundings} {columns : List Uuid}
    {limit offset : Nat} (htable : t.IsEntry table .table)
    (hcolumns : ∀ id ∈ columns, id ∈ t.columnOrder table) (hlimit : limit ≤ env.limits.max)
    (hoffset : offset ≤ Query.maxOffset) :
    Meaning.executeQuery env t table (Query.page columns limit offset) =
      if Database.maxColumns < columns.length + 1 then .error .storage
      else
        .ok (.rows ((window offset limit (t.sortedRecords table)).map (pageRow columns)), t) := by
  obtain ⟨entry, hentry⟩ := hs.exists_readTable htable
  obtain ⟨known, hknown⟩ := hs.readColumns_ok table
  rw [← map_id_of_readColumns hknown] at hcolumns
  obtain ⟨type, hplan⟩ := Query.compile_page table hcolumns hoffset
  rw [Meaning.executeQuery, Query.decode_page hlimit hoffset, hentry, hknown,
    ← selectRecords_page columns limit offset type]
  show ((Query.compile _ _ _ _ _).mapError _ >>= _) = _
  rw [hplan]
  exact if_congr oversized_pagePlan rfl rfl

/-- Windows of one width that follow one another are together what they cover. -/
theorem flatMap_window {α : Type} (limit n : Nat) (rows : List α) :
    ((List.range n).flatMap fun k => window (k * limit) limit rows) = rows.take (n * limit) := by
  induction n with
  | zero => simp
  | succ n ih =>
    rw [List.range_succ, List.flatMap_append, ih, Nat.succ_mul, List.take_add]
    simp [window]

end Tables

end TableStore
