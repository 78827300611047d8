import TableStore.Proofs.Literals
import TableStore.Proofs.TermValues

/-!
# Documents of rows

What the document that is bound for a row of an insert keeps of the row. Its keys are the texts of
the columns, each once. A column that is named once finds its value there; of a column that is named
more than once only the value at its last position is kept (`Query.get?_rowData_last`), and no
insert is refused for that. So the values of a row are all kept exactly if the positions of one
column have one value (`Query.keeps_rowData_iff`).
-/

namespace TableStore.Query

section Rows

variable {columns : List Uuid} {row : List Json} {column : Uuid}

/-- A document keeps a row if it has under each column what the row has at the column's position. -/
def Keeps (columns : List Uuid) (row : List Json) (document : Members Json) : Prop :=
  ∀ (j : Nat) (column : Uuid), columns[j]? = some column → document.get? column.text = row[j]?

/-- The pairs of a row, last one first, decide what a column is found with. -/
theorem get?_rowData_eq_lookup (columns : List Uuid) (row : List Json) (column : Uuid) :
    (rowData columns row).get? column.text = (columns.zip row).reverse.lookup column := by
  have hzip : (columns.map Uuid.text).zip row =
      (columns.zip row).map fun p => (p.1.text, p.2) := List.zip_map_left
  rw [rowData, Members.get?_ofList, hzip, ← List.map_reverse, lookup_map_text]

/-- The keys of the document are the texts of the columns. -/
theorem mem_keys_rowData (hlength : row.length = columns.length) {key : String} :
    key ∈ (rowData columns row).keys ↔ ∃ column ∈ columns, column.text = key := by
  have hpairs : ((columns.map Uuid.text).zip row).map Prod.fst = columns.map Uuid.text :=
    List.map_fst_zip (by simp [hlength])
  rw [rowData, Members.mem_keys_ofList, hpairs, List.mem_map]

/-- **The last position of a column counts.** -/
theorem get?_rowData_last (hlength : row.length = columns.length) {j : Nat}
    (hj : columns[j]? = some column) (hlast : ∀ k, j < k → columns[k]? ≠ some column) :
    (rowData columns row).get? column.text = row[j]? := by
  obtain ⟨hlt, hcolumn⟩ := List.getElem?_eq_some_iff.mp hj
  have hrow : j < row.length := hlength ▸ hlt
  have hbound : j < (columns.zip row).length := by
    rw [List.length_zip, hlength, Nat.min_self]
    exact hlt
  have hpair : (columns.zip row)[j] = (column, row[j]) := by
    rw [List.getElem_zip, hcolumn]
  have hsplit : (columns.zip row).reverse =
      ((columns.zip row).drop (j + 1)).reverse ++
        (column, row[j]) :: ((columns.zip row).take j).reverse := by
    rw [← hpair, ← List.reverse_concat, ← List.reverse_append, List.append_assoc,
      List.singleton_append, List.getElem_cons_drop, List.take_append_drop]
  have hafter : ∀ p ∈ ((columns.zip row).drop (j + 1)).reverse, (column != p.1) = true := by
    intro p hp
    obtain ⟨i, hi⟩ := List.mem_iff_getElem?.mp (List.mem_reverse.mp hp)
    rw [List.getElem?_drop] at hi
    have hcolumns : columns[j + 1 + i]? = some p.1 := (List.getElem?_zip_eq_some.mp hi).1
    refine bne_iff_ne.mpr fun heq => hlast (j + 1 + i) (by omega) ?_
    rw [hcolumns, heq]
  rw [get?_rowData_eq_lookup, List.getElem?_eq_getElem hrow]
  exact List.lookup_eq_some_iff.mpr ⟨_, _, hsplit, hafter⟩

/-- What is found under a column stands at one of its positions. -/
theorem exists_position_of_mem (hlength : row.length = columns.length) (h : column ∈ columns) :
    ∃ k : Nat, columns[k]? = some column ∧ (rowData columns row).get? column.text = row[k]? := by
  obtain ⟨value, hvalue⟩ : ∃ value, (rowData columns row).get? column.text = some value :=
    Members.mem_keys_iff.mp ((mem_keys_rowData hlength).mpr ⟨column, h, rfl⟩)
  have hlookup : (columns.zip row).reverse.lookup column = some value := by
    rw [← get?_rowData_eq_lookup, hvalue]
  obtain ⟨k, hk⟩ := List.mem_iff_getElem?.mp (List.mem_reverse.mp (mem_of_lookup hlookup))
  obtain ⟨hcolumn, hrow⟩ := List.getElem?_zip_eq_some.mp hk
  exact ⟨k, hcolumn, by rw [hvalue, hrow]⟩

/-- **A row is kept exactly if the positions of one column have one value.** -/
theorem keeps_rowData_iff (hlength : row.length = columns.length) :
    Keeps columns row (rowData columns row) ↔
      ∀ (j k : Nat) (column : Uuid),
        columns[j]? = some column → columns[k]? = some column → row[j]? = row[k]? := by
  constructor
  · intro h j k column hj hk
    rw [← h j column hj, h k column hk]
  · intro h j column hj
    obtain ⟨k, hk, hvalue⟩ := exists_position_of_mem hlength (List.mem_of_getElem? hj)
    rw [hvalue, h j k column hj hk]

end Rows

/-! ### Inserts -/

section Inserts

variable {table : Uuid} {columns : List Column} {now : Timestamp} {fresh : Nat → Uuid}
variable {q : Insert} {plan : InsertPlan}

/-- Nothing but unknown columns and rows of another width is refused. -/
theorem exists_compileInsert_iff : (∃ plan, compileInsert table columns now fresh q = .ok plan) ↔
    (∀ id ∈ q.columns, id ∈ columns.map Column.id) ∧
      ∀ row ∈ q.rows, row.length = q.columns.length := by
  constructor
  · rintro ⟨plan, h⟩
    obtain ⟨hcolumns, -, hrows⟩ := compileInsert_ok h
    have hlengths : List.Forall₂ (fun row _ => row.length = q.columns.length ∧ True)
        q.rows plan.records := hrows.flip.imp fun _ _ hrow => ⟨hrow.2, trivial⟩
    exact ⟨hcolumns, ((List.forall₂_and_left _ _).mp hlengths).1⟩
  · rintro ⟨hcolumns, hrows⟩
    exact exists_compileInsert hcolumns hrows

/-- The third parameter of each five is the document of its row. -/
theorem document_of_row (h : compileInsert table columns now fresh q = .ok plan) {i : Nat}
    {row : List Json} (hrow : q.rows[i]? = some row) :
    plan.params[5 * i + 2]? = some (.document (.obj (rowData q.columns row))) := by
  have hdiv : (5 * i + 2) / 5 = i := by omega
  have hmod : (5 * i + 2) % 5 = 2 := by omega
  rw [insertParams_getElem? h, hdiv, hmod, hrow]
  rfl

/-- **What an insert keeps of its values.** An insert is compiled exactly if the table has the
columns and each row has a value for each of them. The document that is bound for a row then has the
texts of the columns as its keys, in order and each once, and under each column the value at the
column's last position. It keeps the whole row exactly if the positions of one column have one
value. -/
theorem insert_keeps_row_iff (table : Uuid) (columns : List Column) (now : Timestamp)
    (fresh : Nat → Uuid) (q : Insert) :
    ((∃ plan, compileInsert table columns now fresh q = .ok plan) ↔
      (∀ id ∈ q.columns, id ∈ columns.map Column.id) ∧
        ∀ row ∈ q.rows, row.length = q.columns.length) ∧
    ∀ plan, compileInsert table columns now fresh q = .ok plan →
      plan.params.length = 5 * q.rows.length ∧
      ∀ (i : Nat) (row : List Json), q.rows[i]? = some row → ∃ document : Members Json,
        plan.params[5 * i + 2]? = some (.document (.obj document)) ∧ document.Ascending ∧
        (∀ key, key ∈ document.keys ↔ ∃ column ∈ q.columns, column.text = key) ∧
        (∀ (j : Nat) (column : Uuid), q.columns[j]? = some column →
          (∀ k, j < k → q.columns[k]? ≠ some column) → document.get? column.text = row[j]?) ∧
        (Keeps q.columns row document ↔ ∀ (j k : Nat) (column : Uuid),
          q.columns[j]? = some column → q.columns[k]? = some column → row[j]? = row[k]?) := by
  refine ⟨exists_compileInsert_iff, fun plan hplan => ⟨?_, fun i row hrow => ?_⟩⟩
  · rw [plan.length_params, length_records hplan]
  · have hlength : row.length = q.columns.length :=
      (exists_compileInsert_iff.mp ⟨plan, hplan⟩).2 row (List.mem_of_getElem? hrow)
    exact ⟨rowData q.columns row, document_of_row hplan hrow, Members.ascending_ofList _,
      fun key => mem_keys_rowData hlength,
      fun j column hj hlast => get?_rowData_last hlength hj hlast, keeps_rowData_iff hlength⟩

/-- A column that is named twice, with one value: the row is kept. -/
theorem column_named_twice_with_one_value :
    let columns : List Uuid := [⟨1⟩, ⟨2⟩, ⟨1⟩]
    let row : List Json := [.str "x", .null, .str "x"]
    let known : List Column := [⟨⟨1⟩, ⟨7⟩, 0, "a", .string, .empty, ⟨0⟩, ⟨0⟩⟩,
      ⟨⟨2⟩, ⟨7⟩, 1, "b", .string, .empty, ⟨0⟩, ⟨0⟩⟩]
    ∃ plan document, compileInsert ⟨7⟩ known ⟨0⟩ (fun n => ⟨.ofNat _ n⟩) ⟨columns, [row]⟩ =
        .ok plan ∧
      plan.params[2]? = some (.document (.obj document)) ∧ Keeps columns row document := by
  intro columns row known
  obtain ⟨-, hplans⟩ :=
    insert_keeps_row_iff ⟨7⟩ known ⟨0⟩ (fun n => ⟨.ofNat _ n⟩) ⟨columns, [row]⟩
  obtain ⟨-, hrows⟩ := hplans _ rfl
  obtain ⟨document, hdocument, -, -, -, hkeeps⟩ := hrows 0 row rfl
  refine ⟨_, document, rfl, hdocument, hkeeps.mpr ?_⟩
  have hcells : ∀ j k : Fin 3, columns[j] = columns[k] → row[j] = row[k] := by decide
  intro j k column hj hk
  obtain ⟨hjlt, hj⟩ := List.getElem?_eq_some_iff.mp hj
  obtain ⟨hklt, hk⟩ := List.getElem?_eq_some_iff.mp hk
  have hcell : row.get ⟨j, hjlt⟩ = row.get ⟨k, hklt⟩ :=
    hcells ⟨j, hjlt⟩ ⟨k, hklt⟩ (hj.trans hk.symm)
  rw [List.getElem?_eq_getElem (show j < row.length from hjlt),
    List.getElem?_eq_getElem (show k < row.length from hklt)]
  exact congrArg some hcell

/-- A column that is named twice, with two values: the insert is compiled and the first value is
nowhere in what is bound. -/
theorem column_named_twice_loses_a_value :
    ∃ plan, compileInsert ⟨7⟩ [⟨⟨1⟩, ⟨7⟩, 0, "name", .string, .empty, ⟨0⟩, ⟨0⟩⟩] ⟨0⟩
        (fun n => ⟨.ofNat _ n⟩) ⟨[⟨1⟩, ⟨1⟩], [[.str "first", .str "second"]]⟩ = .ok plan ∧
      plan.params[2]? = some (.document (.obj [(Uuid.text ⟨1⟩, .str "second")])) ∧
      ¬ Keeps [⟨1⟩, ⟨1⟩] [.str "first", .str "second"] [(Uuid.text ⟨1⟩, .str "second")] := by
  refine ⟨_, rfl, by decide +kernel, fun h => ?_⟩
  have hfirst : Members.get? (Uuid.text ⟨1⟩) [(Uuid.text ⟨1⟩, Json.str "second")] =
      some (.str "first") := h 0 ⟨1⟩ rfl
  rw [Members.get?, if_pos rfl] at hfirst
  exact absurd (Json.str.inj (Option.some.inj hfirst)) (by decide)

end Inserts

end TableStore.Query
