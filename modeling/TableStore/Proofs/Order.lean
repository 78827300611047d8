import TableStore.Proofs.Lookup
import TableStore.Proofs.Placement

/-!
# Orders of stored columns

The columns of a table are rows with an index each. `Ordered t table order` says that the rows of a
table stand in an order: it lists their identifiers, each once, and the index of a row is its
position there. Reading the rows by index then gives the order back (`Ordered.columnOrder_eq`), and
the indices without gaps (`Ordered.indices_eq`).

`withOrder` writes the positions of an order into the rows of a table. It establishes an order
(`ordered_withOrder`), leaves one that is there alone (`Ordered.withOrder_eq`), and does not touch
the other tables (`rowsOf_withOrder_of_ne`).
-/

namespace TableStore.Tables

variable {t t' : Tables} {table other : Uuid} {order : ColumnOrder}

/-- The rows of the columns of a table, in no particular order. -/
def rowsOf (t : Tables) (table : Uuid) : List ColumnRow :=
  t.columns.filter fun c => c.tableId == table

/-- The columns of a table by index. -/
def columnOrder (t : Tables) (table : Uuid) : ColumnOrder :=
  (t.columnsOf table).map ColumnRow.id

/-- The index of each column of a table is its position in the order. -/
structure Ordered (t : Tables) (table : Uuid) (order : ColumnOrder) : Prop where
  perm : ((t.rowsOf table).map ColumnRow.id).Perm order
  nodup : order.Nodup
  index : ∀ c ∈ t.rowsOf table, c.index = order.idxOf c.id

/-- Writes the positions of an order into the columns of a table. -/
def withOrder (t : Tables) (table : Uuid) (order : ColumnOrder) : Tables :=
  { t with
    columns := t.columns.map fun c =>
      if c.tableId = table then { c with index := order.idxOf c.id } else c }

theorem mem_rowsOf {c : ColumnRow} : c ∈ t.rowsOf table ↔ c ∈ t.columns ∧ c.tableId = table := by
  simp [rowsOf]

theorem columnsOf_perm : (t.columnsOf table).Perm (t.rowsOf table) :=
  List.mergeSort_perm _ _

theorem columnOrder_perm : (t.columnOrder table).Perm ((t.rowsOf table).map ColumnRow.id) :=
  columnsOf_perm.map _

theorem mem_columnsOf {c : ColumnRow} :
    c ∈ t.columnsOf table ↔ c ∈ t.columns ∧ c.tableId = table :=
  columnsOf_perm.mem_iff.trans mem_rowsOf

theorem columnsOf_congr (h : t'.rowsOf table = t.rowsOf table) :
    t'.columnsOf table = t.columnsOf table :=
  congrArg (fun rows => rows.mergeSort fun a b : ColumnRow => a.index ≤ b.index) h

theorem columnOrder_congr (h : t'.rowsOf table = t.rowsOf table) :
    t'.columnOrder table = t.columnOrder table :=
  congrArg (List.map ColumnRow.id) (columnsOf_congr h)

/-- The rows of a table by index are sorted. -/
theorem columnsOf_sorted : (t.columnsOf table).Pairwise fun a b => a.index ≤ b.index := by
  have hs : (t.columnsOf table).Pairwise fun a b => decide (a.index ≤ b.index) = true :=
    List.pairwise_mergeSort
      (fun a b c hab hbc => by simp only [decide_eq_true_eq] at *; omega)
      (fun a b => by simp only [Bool.or_eq_true, decide_eq_true_eq]; omega) (t.rowsOf table)
  exact hs.imp fun hab => by simpa using hab

/-! ### Reading an order -/

/-- A list without repetitions is sorted by the positions in it. -/
theorem pairwise_idxOf (hn : order.Nodup) :
    order.Pairwise fun a b => order.idxOf a ≤ order.idxOf b := by
  rw [List.pairwise_iff_getElem]
  intro i j hi hj hij
  rw [hn.idxOf_getElem i hi, hn.idxOf_getElem j hj]
  exact Nat.le_of_lt hij

/-- The positions of the members of a list are all there are. -/
theorem map_idxOf (hn : order.Nodup) : order.map order.idxOf = List.range order.length := by
  refine List.ext_getElem (by simp) fun i hi hi' => ?_
  rw [List.getElem_map, List.getElem_range, hn.idxOf_getElem]

/-- Rows whose indices are positions in a longer list come in the order of that list. -/
theorem columnOrder_eq_of_sublist {base : List Uuid} (hn : base.Nodup)
    (hsub : order.Sublist base) (hp : ((t.rowsOf table).map ColumnRow.id).Perm order)
    (hi : ∀ c ∈ t.rowsOf table, c.index = base.idxOf c.id) : t.columnOrder table = order := by
  have hperm : (t.columnOrder table).Perm order := columnOrder_perm.trans hp
  have hsorted : (t.columnOrder table).Pairwise fun a b => base.idxOf a ≤ base.idxOf b := by
    refine List.pairwise_map.mpr (columnsOf_sorted.imp_of_mem fun {a b} ha hb hab => ?_)
    rw [hi a (columnsOf_perm.mem_iff.mp ha), hi b (columnsOf_perm.mem_iff.mp hb)] at hab
    exact_mod_cast hab
  refine hperm.eq_of_pairwise (fun a b ha _ hab hba => ?_) hsorted
    ((pairwise_idxOf hn).sublist hsub)
  exact (List.idxOf_inj (hsub.subset (hperm.mem_iff.mp ha))).mp (Nat.le_antisymm hab hba)

namespace Ordered

variable (h : t.Ordered table order)
include h

/-- The columns by index are the order. -/
theorem columnOrder_eq : t.columnOrder table = order :=
  columnOrder_eq_of_sublist h.nodup (List.Sublist.refl order) h.perm h.index

/-- The indices are the numbers from zero on. -/
theorem indices_eq :
    (t.columnsOf table).map ColumnRow.index =
      (List.range (t.columnsOf table).length).map Int.ofNat := by
  have hindex : (t.columnsOf table).map ColumnRow.index =
      (t.columnOrder table).map fun id => Int.ofNat (order.idxOf id) := by
    rw [columnOrder, List.map_map]
    exact List.map_congr_left fun c hc => h.index c (columnsOf_perm.mem_iff.mp hc)
  have hlength : (t.columnsOf table).length = order.length := by
    rw [← h.columnOrder_eq, columnOrder, List.length_map]
  rw [hindex, h.columnOrder_eq, hlength, ← map_idxOf h.nodup, List.map_map]
  rfl

/-- Rows that keep their identifiers and indices keep their order. -/
theorem congr (hc : (t'.rowsOf table).map (fun c => (c.id, c.index)) =
    (t.rowsOf table).map fun c => (c.id, c.index)) : t'.Ordered table order where
  perm := by
    have hids := congrArg (List.map Prod.fst) hc
    simp only [List.map_map, Function.comp_def] at hids
    exact hids ▸ h.perm
  nodup := h.nodup
  index := fun c hcm => by
    have hmem : (c.id, c.index) ∈ (t.rowsOf table).map fun c => (c.id, c.index) :=
      hc ▸ List.mem_map_of_mem hcm
    obtain ⟨d, hd, heq⟩ := List.mem_map.mp hmem
    rw [← (Prod.mk.inj heq).1, ← (Prod.mk.inj heq).2]
    exact h.index d hd

/-- Writing the order that is there changes nothing. -/
theorem withOrder_eq : t.withOrder table order = t := by
  have hid : ∀ c ∈ t.columns, (if c.tableId = table then
      ({ c with index := (order.idxOf c.id : Int) } : ColumnRow) else c) = c := fun c hc => by
    by_cases ht : c.tableId = table
    · rw [if_pos ht, ← h.index c (mem_rowsOf.mpr ⟨hc, ht⟩)]
    · rw [if_neg ht]
  simp only [withOrder, List.map_congr_left hid, List.map_id']

end Ordered

/-! ### Writing an order -/

theorem rowsOf_withOrder :
    (t.withOrder table order).rowsOf other =
      (t.rowsOf other).map fun c =>
        if c.tableId = table then { c with index := (order.idxOf c.id : Int) } else c := by
  have hkeep : ((fun c : ColumnRow => c.tableId == other) ∘ fun c : ColumnRow =>
      if c.tableId = table then { c with index := (order.idxOf c.id : Int) } else c) =
        fun c => c.tableId == other := by
    funext c
    by_cases hc : c.tableId = table <;> simp [hc]
  rw [rowsOf, withOrder, List.filter_map, hkeep, rowsOf]

theorem rowsOf_withOrder_self :
    (t.withOrder table order).rowsOf table =
      (t.rowsOf table).map fun c => { c with index := (order.idxOf c.id : Int) } :=
  rowsOf_withOrder.trans (List.map_congr_left fun _ hc => if_pos (mem_rowsOf.mp hc).2)

theorem rowsOf_withOrder_of_ne (hne : other ≠ table) :
    (t.withOrder table order).rowsOf other = t.rowsOf other := by
  refine rowsOf_withOrder.trans ((List.map_congr_left fun c hc => if_neg ?_).trans (List.map_id' _))
  intro htable
  exact hne ((mem_rowsOf.mp hc).2.symm.trans htable)

/-- Writing the positions of a list of the columns of a table puts them in this order. -/
theorem ordered_withOrder (hp : ((t.rowsOf table).map ColumnRow.id).Perm order)
    (hn : order.Nodup) : (t.withOrder table order).Ordered table order where
  perm := by
    rw [rowsOf_withOrder_self, List.map_map]
    exact hp
  nodup := hn
  index := fun c hc => by
    rw [rowsOf_withOrder_self] at hc
    obtain ⟨d, -, rfl⟩ := List.mem_map.mp hc
    rfl

/-- The row of a column without its index. -/
def unplaced (c : ColumnRow) : ColumnRow :=
  { c with index := 0 }

/-- Nothing but the columns of one table has changed. -/
structure OnlyColumnsOf (before after : Tables) (table : Uuid) : Prop where
  columnsOnly : after = { before with columns := after.columns }
  others : ∀ other ≠ table, after.rowsOf other = before.rowsOf other

theorem OnlyColumnsOf.trans {between : Tables} (h : OnlyColumnsOf t between table)
    (h' : OnlyColumnsOf between t' table) : OnlyColumnsOf t t' table where
  columnsOnly := by rw [h'.columnsOnly, h.columnsOnly]
  others := fun other hne => (h'.others other hne).trans (h.others other hne)

theorem onlyColumnsOf_withOrder : OnlyColumnsOf t (t.withOrder table order) table :=
  ⟨rfl, fun _ hne => rowsOf_withOrder_of_ne hne⟩

theorem withOrder_columns_map (t : Tables) (table : Uuid) (order : ColumnOrder) {α : Type}
    (f : ColumnRow → α) (hf : ∀ c : ColumnRow, ∀ i : Int, f { c with index := i } = f c) :
    (t.withOrder table order).columns.map f = t.columns.map f := by
  rw [withOrder, List.map_map]
  refine List.map_congr_left fun c _ => ?_
  by_cases hc : c.tableId = table
  · exact (congrArg f (if_pos hc)).trans (hf c _)
  · exact congrArg f (if_neg hc)

end TableStore.Tables
