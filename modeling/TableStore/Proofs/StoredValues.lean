import TableStore.Proofs.Compilation
import TableStore.Proofs.Decoding
import TableStore.Proofs.Statements
import TableStore.Proofs.Survival

/-!
# Stored values come back

A query that stores rows is accepted as a whole: each row becomes a record, whose document holds
the values by the columns they were given for (`Database.exists_records_of_insert`). Calls that
spare the table and these columns leave the records as they are (`Database.holds_after`). A page
shows of a record what its row had for each column, as text (`Tables.pageRow_of_rowData`), and its
identifier, which no other record has (`Tables.filter_pageRow`); the pages of a table together show
all its records (`Tables.flatMap_pages`).

**Stored values come back** (`Database.stored_values_come_back`) puts this together: after all these
calls, each row is found on the pages once, by the identifier that was answered for it.
-/

namespace TableStore

/-- What a row has for a column, read as text; nothing if the row was not given for this column. -/
def Query.cellText (columns : List Uuid) (row : List Json) (column : Uuid) : Json :=
  (((columns.zip row).lookup column).map Json.asText).getD .null

namespace Tables

variable {t : Tables} {table : Uuid} {columns : List Uuid} {row : List Json} {r : RecordRow}

/-- What comes from a row of plain values is plain. -/
theorem isPlain_of_lookup (hplain : ∀ v ∈ row, v.IsPlain) {column : Uuid} {v : Json}
    (h : (columns.zip row).lookup column = some v) : v.IsPlain :=
  hplain v (List.of_mem_zip (mem_of_lookup h)).2

/-- **A page shows the values of the row** that a record was made of. -/
theorem pageRow_of_rowData (shown : List Uuid) (hdata : r.data = Query.rowData columns row)
    (hcolumns : columns.Nodup) (hlength : row.length = columns.length)
    (hplain : ∀ v ∈ row, v.IsPlain) :
    pageRow shown r = shown.map (Query.cellText columns row) ++ [.str r.id.text] := by
  have hcell : ∀ column, Members.get? column.text r.data = (columns.zip row).lookup column :=
    fun column => hdata ▸ Query.get?_rowData hcolumns hlength column
  rw [pageRow, List.append_left_inj]
  refine List.map_congr_left fun column _ => ?_
  rw [toJson_termValue_cell .string fun v hv => isPlain_of_lookup hplain (hcell column ▸ hv), hcell,
    Query.cellText]

/-- Of all rows of the pages together one has the identifier of a record. -/
theorem filter_pageRow (hn : (t.records.map RecordRow.id).Nodup) (hr : r ∈ t.records)
    (hown : r.tableId = table) (shown : List Uuid) :
    ((t.sortedRecords table).map (pageRow shown)).filter
        (fun cells => cells.getLast? = some (.str r.id.text)) = [pageRow shown r] := by
  have hperm : (t.sortedRecords table).Perm (t.records.filter fun s => s.tableId == table) :=
    sortedRecords_perm
  have hmem : r ∈ t.sortedRecords table :=
    hperm.mem_iff.mpr (List.mem_filter.mpr ⟨hr, by simpa using hown⟩)
  have hnodup : ((t.sortedRecords table).map RecordRow.id).Nodup :=
    (hperm.map _).nodup_iff.mpr (hn.sublist (List.filter_sublist.map _))
  have hlast : ∀ s : RecordRow, decide ((pageRow shown s).getLast? = some (.str r.id.text)) =
      (s.id == r.id) := by
    intro s
    rw [pageRow, List.getLast?_concat, Bool.eq_iff_iff, decide_eq_true_iff, beq_iff_eq,
      Option.some_inj, Json.str.injEq, Uuid.text_injective.eq_iff]
  rw [List.filter_map]
  simp only [Function.comp_def, hlast]
  rw [filter_key_of_mem hnodup hmem, List.map_singleton]

/-- The pages together are all rows, as soon as there are enough of them. -/
theorem flatMap_pages {limit n : Nat} (h : (t.recordsOf table).length ≤ n * limit)
    (shown : List Uuid) :
    ((List.range n).flatMap fun k =>
        (window (k * limit) limit (t.sortedRecords table)).map (pageRow shown)) =
      (t.sortedRecords table).map (pageRow shown) := by
  rw [← List.map_flatMap, flatMap_window,
    List.take_of_length_le (Nat.le_trans (Nat.le_of_eq sortedRecords_perm.length_eq) h)]

/-- A query whose rows fit columns of the table is accepted, unless there are too many rows. -/
theorem Sound.executeQuery_stores (hs : t.Sound) {env : Surroundings} {document : Json}
    {q : Query.Insert} (hq : Query.decode env.limits document = .ok (.insert q))
    (htable : t.IsEntry table .table) (hcolumns : ∀ id ∈ q.columns, id ∈ t.columnOrder table)
    (hrows : ∀ row ∈ q.rows, row.length = q.columns.length)
    (hfits : 5 * q.rows.length ≤ maxPlaceholders)
    (hnew : (t.records.map RecordRow.id ++ (List.range q.rows.length).map env.fresh).Nodup) :
    ∃ ids after, Meaning.executeQuery env t table document = .ok (.inserted ids, after) := by
  obtain ⟨entry, hentry⟩ := hs.exists_readTable htable
  obtain ⟨known, hread⟩ := hs.readColumns_ok table
  obtain ⟨plan, hplan⟩ : ∃ plan, Query.compileInsert table known env.now env.fresh q = .ok plan :=
    Query.exists_compileInsert (map_id_of_readColumns hread ▸ hcolumns) hrows
  have hcompiled :
      Query.compile table known env.now env.fresh (.insert q) = .ok (.insert plan) := by
    rw [Query.compile, hplan]
    rfl
  have hparams : ¬ maxPlaceholders < plan.params.length := by
    rw [plan.length_params, Query.length_records hplan]
    exact Nat.not_lt.mpr hfits
  obtain ⟨-, htables, -⟩ := Query.compileInsert_ok hplan
  cases hstored : t.storeRecords plan with
  | error e =>
    refine (storeRecords_fails (Q := fun _ => False) hparams (fun h => h ?_) ?_ e hstored).elim
    · rwa [Query.recordIds_of_compileInsert hplan]
    · rintro ⟨r, hr, hnone⟩
      exact hnone ((hs.mem_tables _).mpr (htables r hr ▸ htable))
  | ok stored =>
    refine ⟨plan.recordIds, stored.2, bind_of_ok (mapError_of_ok hq) (bind_of_ok hentry
      (bind_of_ok hread (bind_of_ok (mapError_of_ok hcompiled) ?_)))⟩
    exact congrArg (fun r => asPart _ (Except.mapError CatalogError.ofStore r)) hstored

end Tables

namespace Database

variable {db : Database}

/-- What a query that is accepted has stored, each record with its row. -/
theorem exists_records_of_insert (hu : db.Usable) {env : Surroundings} {table : Uuid}
    {document : Json} {q : Query.Insert} {ids : List Uuid}
    (hq : Query.decode env.limits document = .ok (.insert q))
    (hinsert : (db.perform ⟨env, .query table document⟩).result = .ok (.inserted ids)) :
    let after := (db.perform ⟨env, .query table document⟩).state
    ∃ columns plan, db.tables.readColumns table = .ok columns ∧
      Query.compile table columns env.now env.fresh (.insert q) = .ok (.insert plan) ∧
      after.tables.records = db.tables.records ++ plan.stored ∧
      ids = plan.stored.map RecordRow.id ∧ ids.Nodup ∧
      after.tables.Holds table q.columns plan.stored ∧
      List.Forall₂ (fun r row => r.data = Query.rowData q.columns row ∧
        row.length = q.columns.length) plan.stored q.rows := by
  intro after
  have hnodup := (hu.perform ⟨env, .query table document⟩).1.sound.records_nodup
  obtain ⟨t, hmeaning, hstate⟩ := meaning_of_perform hu hinsert
  obtain ⟨result, hmeaning, hreply⟩ := asPart_ok hmeaning
  obtain ⟨columns, plan, hread, hplan, rfl, rfl, htable, hcolumns, htables, hrows⟩ :=
    hu.sound.executeQuery_inserted hq hmeaning
  obtain rfl := Reply.inserted.inj hreply
  rw [hstate, List.map_append] at hnodup
  have hafter : after = _ := hstate
  rw [hafter]
  exact ⟨columns, plan, hread, hplan, rfl, plan.map_id_stored.symm,
    plan.map_id_stored ▸ hnodup.of_append_right, ⟨htable, hcolumns, fun r hr =>
      ⟨List.mem_append_right _ hr, htables r hr⟩⟩, hrows⟩

/-- A call for a page of a table is answered by the window of its sorted records, or refused if it
asks for too many columns. It changes nothing. -/
theorem perform_page (hu : db.Usable) (hlocked : db.locked = none) {env : Surroundings}
    {table : Uuid} {shown : List Uuid} {limit offset : Nat}
    (htable : db.tables.IsEntry table .table)
    (hshown : ∀ c ∈ shown, c ∈ db.tables.columnOrder table) (hlimit : limit ≤ env.limits.max)
    (hoffset : offset ≤ Query.maxOffset) :
    let outcome := db.perform ⟨env, .query table (Query.page shown limit offset)⟩
    outcome.state = db ∧ outcome.result =
      if maxColumns < shown.length + 1 then .error .storage
      else .ok (.rows ((Tables.window offset limit (db.tables.sortedRecords table)).map
        (Tables.pageRow shown))) := by
  intro outcome
  have hmeaning : Meaning.executeQuery env db.tables table (Query.page shown limit offset) = _ :=
    hu.sound.executeQuery_page htable hshown hlimit hoffset
  split
  case isTrue hwide =>
    have hresult : outcome.result = .error .storage := by
      rw [perform_eq hu hlocked, Operation.meaning, hmeaning, if_pos hwide]
      rfl
    exact ⟨perform_error hu hresult, hresult⟩
  case isFalse hfits =>
    exact (perform_of_meaning hu hlocked
      (by rw [Operation.meaning, hmeaning, if_neg hfits]; rfl)).symm

/-- **Stored values come back.** Whatever has been called before, a query that stores rows of plain
values answers one identifier for each row, in their order, and no identifier twice: those of the
records that its statement, as it is sent, makes of its parameters. After any further calls that
spare the table and the columns the rows were given for, there is exactly one row with each of these
identifiers on the pages of the table together: its cells are the values of the row as text, and
nothing for the columns that the row was not given for. Pages can be asked for up to the greatest
offset, and change nothing. Only a page with more columns than an answer of the engine can have, the
identifier among them, is refused. -/
theorem stored_values_come_back (history : List Call) (env : Surroundings) (table : Uuid)
    (document : Json) {q : Query.Insert} {ids : List Uuid}
    (hq : Query.decode env.limits document = .ok (.insert q)) (hcolumns : q.columns.Nodup)
    (hplain : ∀ row ∈ q.rows, ∀ v ∈ row, v.IsPlain)
    (hinsert : ((fresh.after history).perform ⟨env, .query table document⟩).result =
      .ok (.inserted ids))
    (later : List Call)
    (hlater : (fresh.after (history ++ [⟨env, .query table document⟩])).SparedBy table q.columns
      later) :
    let before := fresh.after history
    let db := fresh.after (history ++ ⟨env, .query table document⟩ :: later)
    (∃ columns plan, before.tables.readColumns table = .ok columns ∧
        Query.compile table columns env.now env.fresh (.insert q) = .ok (.insert plan) ∧
        ∃ records, (before.perform ⟨env, .query table document⟩).state.tables.records =
            before.tables.records ++ records ∧
          records.map RecordRow.id = ids ∧ plan.Makes records) ∧
      ids.Nodup ∧ ids.length = q.rows.length ∧
      (∀ c ∈ q.columns, c ∈ db.tables.columnOrder table) ∧
      ∀ shown : List Uuid, (∀ c ∈ shown, c ∈ db.tables.columnOrder table) → ∀ limit : Nat,
        ∃ pages : Nat → List (List Json),
          (∀ (k : Nat) (env' : Surroundings), limit ≤ env'.limits.max →
            k * limit ≤ Query.maxOffset →
            let outcome := db.perform ⟨env', .query table (Query.page shown limit (k * limit))⟩
            outcome.state = db ∧ outcome.result =
              if maxColumns < shown.length + 1 then .error .storage else .ok (.rows (pages k))) ∧
          ∀ n : Nat, (db.tables.recordsOf table).length ≤ n * limit →
            ∀ id row, (id, row) ∈ ids.zip q.rows →
              ((List.range n).flatMap pages).filter
                  (fun cells => cells.getLast? = some (.str id.text)) =
                [shown.map (Query.cellText q.columns row) ++ [.str id.text]] := by
  intro before db
  have hu : before.Usable := usable_after history
  obtain ⟨columns, plan, hread, hplan, hstored, rfl, hnodup, hholds, hrows⟩ :=
    exists_records_of_insert hu hq hinsert
  have hsplit : db =
      ((fresh.after history).perform ⟨env, .query table document⟩).state.after later :=
    after_append _ _ _
  have hdb : db.Usable := usable_after _
  rw [after_append] at hlater
  obtain ⟨htable, hmem, hrecords⟩ : db.tables.Holds table q.columns plan.stored :=
    hsplit ▸ holds_after (hu.perform _).1 hlater hholds
  refine ⟨⟨columns, plan, hread, hplan, plan.stored, hstored, rfl, plan.makes_stored⟩, hnodup,
    (List.length_map _).trans hrows.length_eq, hmem, fun shown hshown limit =>
      ⟨fun k => (Tables.window (k * limit) limit (db.tables.sortedRecords table)).map
        (Tables.pageRow shown), fun k env' hlimit hoffset =>
          perform_page hdb (locked_after _) htable hshown hlimit hoffset,
        fun n hn id row hrow => ?_⟩⟩
  rw [List.zip_map_left] at hrow
  obtain ⟨⟨r, row⟩, hzip, heq⟩ := List.mem_map.mp hrow
  obtain ⟨rfl, rfl⟩ := Prod.mk.inj heq
  obtain ⟨hr, hq⟩ := List.of_mem_zip hzip
  obtain ⟨hdata, hlength⟩ := (List.forall₂_iff_zip.mp hrows).2 hzip
  obtain ⟨hthere, hown⟩ := hrecords r hr
  rw [Tables.flatMap_pages hn, Tables.filter_pageRow hdb.sound.records_nodup hthere hown,
    Tables.pageRow_of_rowData shown hdata hcolumns hlength (hplain row hq)]
  rfl

/-- The values of two rows are found after the organization has another name and the table another
column. -/
theorem stored_values_come_back_renamed :
    let history : List Call :=
      [⟨.numbered 1, .createOrganization "org"⟩,
        ⟨.numbered 2, .createEntry ⟨1⟩ .table none [] [⟨"a", "string", []⟩]⟩]
    let insert : Json := .obj [("insert", .obj [
      ("columns", .arr [Query.encodeExpr (.column ⟨3⟩)]),
      ("values", .arr [.arr [Query.encodeExpr (.value (.bool true))],
        .arr [Query.encodeExpr (.value (.str "\"\\"))]])])]
    let later : List Call :=
      [⟨.numbered 6, .renameOrganization ⟨1⟩ "other"⟩,
        ⟨.numbered 6, .createColumn ⟨2⟩ ⟨"b", "string", []⟩ (some 0)⟩]
    let db := fresh.after (history ++ ⟨.numbered 4, .query ⟨2⟩ insert⟩ :: later)
    ∃ pages : Nat → List (List Json),
      (∀ k : Nat, k * 1 ≤ Query.maxOffset →
        (db.perform ⟨.numbered 6, .query ⟨2⟩ (Query.page [⟨3⟩] 1 (k * 1))⟩).result =
          .ok (.rows (pages k))) ∧
      ∀ n : Nat, (db.tables.recordsOf ⟨2⟩).length ≤ n * 1 →
        ((List.range n).flatMap pages).filter
            (fun cells => cells.getLast? = some (.str (Uuid.text ⟨4⟩))) =
          [[.str "1", .str (Uuid.text ⟨4⟩)]] := by
  intro history insert later db
  have hplain : ∀ row ∈ [[Json.bool true], [.str "\"\\"]], ∀ v ∈ row, v.IsPlain := by
    simp [Json.IsPlain]
  have hinsert : ((fresh.after history).perform ⟨.numbered 4, .query ⟨2⟩ insert⟩).result =
      .ok (.inserted [⟨4⟩, ⟨5⟩]) := by decide +kernel
  obtain ⟨-, -, -, hcolumns, hpages⟩ := stored_values_come_back history (.numbered 4) ⟨2⟩ insert
    (q := ⟨[⟨3⟩], [[.bool true], [.str "\"\\"]]⟩) rfl (by decide) hplain hinsert later
    ⟨fun _ _ => trivial, fun _ _ => trivial, trivial⟩
  obtain ⟨pages, hanswers, hrows⟩ := hpages [⟨3⟩] hcolumns 1
  exact ⟨pages,
    fun k hk => (hanswers k (.numbered 6) (by decide) hk).2.trans (if_neg (by decide)),
    fun n hn => hrows n hn ⟨4⟩ [.bool true] (by decide)⟩

/-! ### Wide tables -/

/-- The columns of a table made with so many of them. -/
def wideColumns (n : Nat) : List Uuid :=
  (List.range n).map fun i => (Surroundings.numbered 2).fresh (i + 1)

/-- The calls that make a table with so many columns. -/
def wideTable (n : Nat) : List Call :=
  [⟨.numbered 1, .createOrganization "org"⟩,
    ⟨.numbered 2, .createEntry ⟨1⟩ .table none [] (List.replicate n ⟨"c", "string", []⟩)⟩]

/-- A query that stores one row without values in all these columns. -/
def wideInsert (n : Nat) : Query.Insert :=
  ⟨wideColumns n, [List.replicate n .null]⟩

section Wide

variable {n : Nat} (hn : n ≤ 10000)
include hn

theorem wideColumns_nodup : (wideColumns n).Nodup := by
  refine List.nodup_range.map_on fun i hi j hj h => ?_
  have hbits := congrArg (fun u : Uuid => u.bits.toNat) h
  simp only [Surroundings.numbered, BitVec.toNat_ofNat, List.mem_range] at hbits hi hj
  omega

/-- What these calls leave. -/
theorem after_wideTable :
    (fresh.after (wideTable n)).tables.IsEntry ⟨2⟩ .table ∧
      (fresh.after (wideTable n)).tables.columnOrder ⟨2⟩ = wideColumns n ∧
      (fresh.after (wideTable n)).tables.records = [] := by
  let db := fresh.after [⟨.numbered 1, .createOrganization "org"⟩]
  let call : Call :=
    ⟨.numbered 2, .createEntry ⟨1⟩ .table none [] (List.replicate n ⟨"c", "string", []⟩)⟩
  have hu : db.Usable := usable_after _
  have haccepted : call.operation.OrderAccepted call.surroundings db.tables := by
    refine ⟨⟨_, rfl⟩, fun d hd => ?_, ⟨_, rfl⟩, nofun, rfl, ?_⟩
    · rw [List.eq_of_mem_replicate hd]
      exact ⟨_, rfl⟩
    · rw [List.length_replicate]
      exact wideColumns_nodup hn
  obtain ⟨⟨reply, after⟩, hmeaning⟩ := haccepted.succeeds hu.sound
  have hdoes := Operation.does_of_meaning hu.sound hmeaning
  have hstate : fresh.after (wideTable n) = { db with tables := after } :=
    (perform_of_meaning hu rfl hmeaning).2
  obtain ⟨htable, hrecords⟩ : after.IsEntry ⟨2⟩ .table ∧ after.records = [] := by
    cases hdoes with
    | read hread => cases hread
    | createEntry _ _ _ _ h =>
      obtain ⟨hnew, -, -, -, rfl⟩ := Tables.storeEntry_ok h
      exact ⟨(Tables.isEntry_addEntry hnew rfl .table).mpr (.inr ⟨rfl, rfl⟩), rfl⟩
  have horder : after.columnOrder ⟨2⟩ = wideColumns n := by
    rw [hdoes.columnOrder hu.sound htable, Operation.onColumns]
    refine (if_pos rfl).trans ?_
    rw [List.length_replicate]
    rfl
  rw [hstate]
  exact ⟨htable, horder, hrecords⟩

/-- The row is stored, and no page shows all its columns with its identifier if there are too many
of them. -/
theorem not_shown_of_wide (hwide : maxColumns ≤ n) :
    let before := fresh.after (wideTable n)
    let insert : Call := ⟨.numbered 20000, .query ⟨2⟩ (Query.encode (.insert (wideInsert n)))⟩
    let after := (before.perform insert).state
    (wideColumns n).Nodup ∧ (∃ ids, (before.perform insert).result = .ok (.inserted ids)) ∧
      (∀ c ∈ wideColumns n, c ∈ after.tables.columnOrder ⟨2⟩) ∧
      (after.perform ⟨.numbered 20001, .query ⟨2⟩ (Query.page (wideColumns n) 1 0)⟩).result =
        .error .storage := by
  intro before insert after
  obtain ⟨htable, horder, hrecords⟩ := after_wideTable hn
  have hu : before.Usable := usable_after _
  have hq : Query.decode insert.surroundings.limits (Query.encode (.insert (wideInsert n))) =
      .ok (.insert (wideInsert n)) :=
    Query.decode_eq_ok.mpr (Query.queryForm_encode (List.cons_ne_nil _ _))
  have hrows : ∀ row ∈ (wideInsert n).rows, row.length = (wideInsert n).columns.length := by
    simp [wideInsert, wideColumns]
  obtain ⟨ids, stored, hstores⟩ := hu.sound.executeQuery_stores hq htable
    (fun c hc => horder ▸ hc) hrows (show 5 * 1 ≤ Tables.maxPlaceholders by decide)
    (by rw [hrecords]; exact List.nodup_singleton _)
  have hinsert : (before.perform insert).result = .ok (.inserted ids) :=
    (perform_of_meaning hu (locked_after _)
      (by rw [Operation.meaning, hstores]; rfl)).1
  obtain ⟨_, plan, -, -, -, -, -, hholds, -⟩ := exists_records_of_insert hu hq hinsert
  obtain ⟨husable, hlocked⟩ := hu.perform insert
  have hpage : (after.perform
      ⟨.numbered 20001, .query ⟨2⟩ (Query.page (wideColumns n) 1 0)⟩).result = _ :=
    (perform_page husable (hlocked.trans (locked_after _)) hholds.isTable hholds.columns
      (by decide) (by decide)).2
  refine ⟨wideColumns_nodup hn, ⟨ids, hinsert⟩, hholds.columns, hpage.trans (if_pos ?_)⟩
  show maxColumns < ((List.range n).map _).length + 1
  rw [List.length_map, List.length_range]
  exact Nat.lt_succ_of_le hwide

end Wide

/-- A row with two thousand columns is stored and can't be shown with its identifier. -/
theorem wide_row_is_not_shown :
    let before := fresh.after (wideTable 2000)
    let insert : Call := ⟨.numbered 20000, .query ⟨2⟩ (Query.encode (.insert (wideInsert 2000)))⟩
    let after := (before.perform insert).state
    (wideColumns 2000).Nodup ∧ (∃ ids, (before.perform insert).result = .ok (.inserted ids)) ∧
      (∀ c ∈ wideColumns 2000, c ∈ after.tables.columnOrder ⟨2⟩) ∧
      (after.perform ⟨.numbered 20001, .query ⟨2⟩ (Query.page (wideColumns 2000) 1 0)⟩).result =
        .error .storage :=
  not_shown_of_wide (by decide) (by decide)

end Database
end TableStore
