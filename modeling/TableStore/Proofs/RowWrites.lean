import TableStore.Proofs.ColumnRequests

/-!
# Writing an order row by row

An order is written in single row writes: every column of the table gets the negative of its index,
in whatever order the rows are visited, and then one column after the other its position
(`rowWrites`). The indices of the table differ after each of these writes, so that the uniqueness of
indices is never broken on the way, and the other tables keep their rows (`Apart.underway`,
`underway_rowWrites`). At the end the order is written.
-/

namespace TableStore.Tables

variable {t : Tables} {id table other : Uuid} {order : ColumnOrder}
  {writes front : List (Uuid × Int)} {visits : List ColumnRow}

/-- The single row writes of writing an order, with the rows of the table as they are visited. -/
def rowWrites (visits : List ColumnRow) (order : ColumnOrder) : List (Uuid × Int) :=
  negations visits ++ positions order

/-- What holds of tables while an order is written to one of them: the indices of this table differ,
and nothing but the indices of its columns has changed. -/
structure Underway (before t : Tables) (table : Uuid) : Prop extends
    OnlyColumnsOf before t table where
  indices : ((t.rowsOf table).map ColumnRow.index).Nodup
  indexOnly : t.columns.map unplaced = before.columns.map unplaced

theorem Underway.trans {between before : Tables} (h : Underway before between table)
    (h' : Underway between t table) : Underway before t table where
  toOnlyColumnsOf := h.toOnlyColumnsOf.trans h'.toOnlyColumnsOf
  indices := h'.indices
  indexOnly := h'.indexOnly.trans h.indexOnly

section Keyed

variable (hn : (t.columns.map ColumnRow.id).Nodup)
include hn

/-- Writes that keep the columns apart leave different indices. -/
theorem Apart.nodup_indices (h : t.Apart table writes)
    (hi : ((t.rowsOf table).map ColumnRow.index).Nodup) :
    (((t.assign writes).rowsOf table).map ColumnRow.index).Nodup := by
  have hrows : (t.rowsOf table).Nodup := (hn.sublist (List.filter_sublist.map _)).of_map
  rw [rowsOf_assign, List.map_map]
  refine List.Nodup.map_on (fun c hc d hd heq => ?_) hrows
  simp only [Function.comp_apply] at heq
  -- each of the two columns has either been written or still has its old index
  cases hcw : writes.lookup c.id with
  | none =>
    cases hdw : writes.lookup d.id with
    | none => exact List.inj_on_of_nodup_map hi hc hd (by simpa [hcw, hdw] using heq)
    | some j => exact absurd (by simpa [hcw, hdw] using heq) (h.free _ (mem_of_lookup hdw) c hc)
  | some i =>
    cases hdw : writes.lookup d.id with
    | none => exact absurd (by simpa [hcw, hdw] using heq.symm) (h.free _ (mem_of_lookup hcw) d hd)
    | some j =>
      have hij : i = j := by simpa [hcw, hdw] using heq
      have hpair : (c.id, i) = (d.id, j) :=
        List.inj_on_of_nodup_map h.indices (mem_of_lookup hcw) (mem_of_lookup hdw) hij
      exact List.inj_on_of_nodup_map hn (mem_rowsOf.mp hc).1 (mem_rowsOf.mp hd).1
        (Prod.mk.inj hpair).1

/-- Writes to the columns of one table do not touch another one. -/
theorem Apart.rowsOf_of_ne (h : t.Apart table writes) (hne : other ≠ table) :
    (t.assign writes).rowsOf other = t.rowsOf other := by
  rw [rowsOf_assign]
  refine (List.map_congr_left fun c hc => ?_).trans (List.map_id' _)
  obtain ⟨hcm, hct⟩ := mem_rowsOf.mp hc
  cases hcw : writes.lookup c.id with
  | none => rfl
  | some i =>
    obtain ⟨d, hd, hdt⟩ := h.column _ (mem_of_lookup hcw)
    obtain rfl := Option.some_inj.mp ((find?_key_of_mem hn hcm).symm.trans hd)
    exact absurd (hct.symm.trans hdt) hne

/-- Writes that keep the columns apart are made, one after the other. -/
theorem Apart.underway (h : t.Apart table writes)
    (hi : ((t.rowsOf table).map ColumnRow.index).Nodup) :
    writeIndices none t writes = .ok (t.assign writes) ∧ Underway t (t.assign writes) table where
  left := h.writeIndices_eq.resolve_right fun hguarded => hguarded.2.1 rfl
  right :=
    { indices := h.nodup_indices hn hi
      others := fun _ hne => h.rowsOf_of_ne hn hne
      columnsOnly := rfl
      indexOnly := by simp [assign, unplaced] }

end Keyed

/-! ### How large the indices get -/

/-- Different indices below a bound are at most so many. -/
theorem Spread.length_le {bound : Nat} (h : t.Spread table)
    (hb : ∀ c ∈ t.rowsOf table, c.index < bound) : (t.rowsOf table).length ≤ bound := by
  have hsub : (t.rowsOf table).map ColumnRow.index ⊆ (List.range bound).map Int.ofNat :=
    fun i hi => by
      obtain ⟨c, hc, rfl⟩ := List.mem_map.mp hi
      have h0 := h.nonneg c hc
      have hlt := hb c hc
      exact List.mem_map.mpr ⟨c.index.toNat, List.mem_range.mpr (by omega), Int.toNat_of_nonneg h0⟩
  simpa using (List.subperm_of_subset h.nodup hsub).length_le

/-- What is written stays within the bounds of what is there. -/
theorem Spread.rowWrites_bounded {bound : Nat} (h : t.Spread table)
    (hp : ((t.rowsOf table).map ColumnRow.id).Perm order) (hv : visits.Perm (t.rowsOf table))
    (hb : ∀ c ∈ t.rowsOf table, c.index < bound) {w : Uuid × Int}
    (hw : w ∈ rowWrites visits order) : -(bound : Int) ≤ w.2 ∧ w.2 < bound := by
  rcases List.mem_append.mp hw with hw | hw
  · obtain ⟨c, hc, rfl⟩ := List.mem_map.mp hw
    have h0 := h.nonneg c (hv.mem_iff.mp hc)
    have hlt := hb c (hv.mem_iff.mp hc)
    simp only
    omega
  · obtain ⟨p, hpm, rfl⟩ := List.mem_map.mp hw
    have hlt : p.2 < order.length := (List.mem_zipIdx' hpm).1
    have hlength : (t.rowsOf table).length = order.length := by simpa using hp.length_eq
    have hle := h.length_le hb
    simp only
    omega

/-! ### Both rounds -/

theorem writeIndices_append (first second : List (Uuid × Int)) {between : Tables}
    (h : writeIndices none t first = .ok between) :
    writeIndices none t (first ++ second) = writeIndices none between second := by
  rw [writeIndices, List.foldlM_append, ← writeIndices, h]
  rfl

section Rounds

variable (hn : (t.columns.map ColumnRow.id).Nodup) (h : t.Spread table)
  (hp : ((t.rowsOf table).map ColumnRow.id).Perm order) (hv : visits.Perm (t.rowsOf table))
include hn h hp hv

/-- Whichever row write comes next, the indices differ. -/
theorem underway_rowWrites (hfront : front <+: rowWrites visits order) :
    ∃ t', writeIndices none t front = .ok t' ∧ Underway t t' table := by
  have hfirst := apart_negations hn h hv
  rcases List.prefix_or_prefix_of_prefix hfront (List.prefix_append _ _) with hin | ⟨rest, rfl⟩
  · exact ⟨_, (hfirst.of_sublist hin.sublist).underway hn h.nodup⟩
  · -- the first round is over, and some positions are written
    obtain ⟨hok, hround⟩ := hfirst.underway hn h.nodup
    have hrest : rest <+: positions order := (List.prefix_append_right_inj _).mp hfront
    have hsecond : (t.assign (negations visits)).Apart table rest := by
      rw [assign_negations hn hv]
      exact (apart_positions hn h hp).of_sublist hrest.sublist
    have hids : ((t.assign (negations visits)).columns.map ColumnRow.id).Nodup := by
      simpa [assign, Function.comp_def] using hn
    obtain ⟨hok', hround'⟩ := hsecond.underway hids hround.indices
    exact ⟨_, (writeIndices_append _ _ hok).trans hok', hround.trans hround'⟩

/-- All row writes together write the order. -/
theorem writeIndices_rowWrites :
    writeIndices none t (rowWrites visits order) = .ok (t.withOrder table order) := by
  obtain ⟨hok, -⟩ := (apart_negations hn h hv).underway hn h.nodup
  rw [rowWrites, writeIndices_append _ _ hok, assign_negations hn hv]
  exact (writeIndices_positions hn h hp).resolve_right fun hguarded => hguarded.1 rfl

end Rounds

/-- Where an order has been written, each of its columns has its position as index. -/
theorem index_withOrder (hn : (t.columns.map ColumnRow.id).Nodup)
    (hp : ((t.rowsOf table).map ColumnRow.id).Perm order) {k : Nat} (hk : order[k]? = some id) :
    ∃ c, (t.withOrder table order).column? id = some c ∧ c.tableId = table ∧ c.index = k := by
  obtain ⟨c, hc, rfl⟩ := List.mem_map.mp (hp.mem_iff.mpr (List.mem_of_getElem? hk))
  obtain ⟨hcm, hct⟩ := mem_rowsOf.mp hc
  have horder : order.Nodup := hp.nodup_iff.mp (hn.sublist (List.filter_sublist.map _))
  obtain ⟨hlt, hget⟩ := List.getElem?_eq_some_iff.mp hk
  have hat : order.idxOf c.id = k := hget ▸ horder.idxOf_getElem k hlt
  have hfound : t.column? c.id = some c := find?_key_of_mem hn hcm
  exact ⟨{ c with index := order.idxOf c.id }, column?_withOrder hfound hct, hct, by simp [hat]⟩

/-- **An order is written without a collision.** Take a table whose indices differ and are not
negative, with or without gaps, any order of its columns, and any way to visit its rows. After each
of the single row writes the indices of the table differ, and nothing but these indices has changed;
none of the writes is refused. After all of them each column has its position in the order as its
index, and this is what the statements of `Request.writeOrder` do to a database. The indices that
are written never leave the range of those that are there. -/
theorem order_is_written_without_collision (hn : (t.columns.map ColumnRow.id).Nodup)
    (h : t.Spread table) (hp : ((t.rowsOf table).map ColumnRow.id).Perm order)
    (hv : visits.Perm (t.rowsOf table)) :
    (∀ front, front <+: rowWrites visits order →
        ∃ t', writeIndices none t front = .ok t' ∧ Underway t t' table) ∧
      (∃ after, writeIndices none t (rowWrites visits order) = .ok after ∧
        (∀ (k : Nat) (id : Uuid), order[k]? = some id →
          ∃ c, after.column? id = some c ∧ c.tableId = table ∧ c.index = k) ∧
        (Request.writeOrder table order).outcome ⟨t, false, none⟩ =
          (.ok (), ⟨after, false, none⟩)) ∧
      ∀ bound : Nat, (∀ c ∈ t.rowsOf table, c.index < bound) →
        ∀ w ∈ rowWrites visits order, -(bound : Int) ≤ w.2 ∧ w.2 < bound := by
  have houtcome : (Request.writeOrder table order).outcome ⟨t, false, none⟩ =
      (.ok (), ⟨t.withOrder table order, false, none⟩) :=
    (@outcome_writeOrder ⟨t, false, none⟩ rfl table order hn h hp).resolve_right
      fun hguarded => hguarded.1 rfl
  exact ⟨fun front hfront => underway_rowWrites hn h hp hv hfront,
    ⟨_, writeIndices_rowWrites hn h hp hv, fun k id hk => index_withOrder hn hp hk, houtcome⟩,
    fun bound hb w hw => h.rowWrites_bounded hp hv hb hw⟩

/-- Three columns with gaps between their indices, beside one of another table, are turned round;
the last one is visited first. -/
theorem order_is_written_without_collision_gaps :
    let column (id table : Uuid) (index : Int) : ColumnRow :=
      ⟨id, table, index, "c", "text", .empty, default, default⟩
    let t : Tables := { Tables.empty with
      tables := [⟨1⟩, ⟨2⟩]
      columns := [column ⟨3⟩ ⟨1⟩ 0, column ⟨4⟩ ⟨2⟩ 0, column ⟨5⟩ ⟨1⟩ 4, column ⟨6⟩ ⟨1⟩ 2] }
    let order : ColumnOrder := [⟨5⟩, ⟨6⟩, ⟨3⟩]
    let visits := (t.rowsOf ⟨1⟩).reverse
    (t.columns.map ColumnRow.id).Nodup ∧ t.Spread ⟨1⟩ ∧
      ((t.rowsOf ⟨1⟩).map ColumnRow.id).Perm order ∧ visits.Perm (t.rowsOf ⟨1⟩) ∧
      ∀ front, front <+: rowWrites visits order →
        ∃ t', writeIndices none t front = .ok t' ∧ Underway t t' ⟨1⟩ := by
  intro column t order visits
  have hn : (t.columns.map ColumnRow.id).Nodup := by decide
  have h : t.Spread ⟨1⟩ := ⟨by decide, by decide⟩
  have hp : ((t.rowsOf ⟨1⟩).map ColumnRow.id).Perm order := by decide
  have hv : visits.Perm (t.rowsOf ⟨1⟩) := List.reverse_perm _
  exact ⟨hn, h, hp, hv, (order_is_written_without_collision hn h hp hv).1⟩

end TableStore.Tables
