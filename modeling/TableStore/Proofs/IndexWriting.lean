import TableStore.Proofs.Order

/-!
# Writing indices

New indices of columns are written one after the other (`writeIndices`), and no two columns of a
table may have the same index in between. This goes well where the new indices differ from each
other and from all old ones (`Apart.writeIndices_eq`); only a guarded column can get in the way. An
order is written in two rounds: all indices are made negative first, which keeps the old ones and
the new ones apart (`apart_negations`, `apart_positions`), and both rounds together are `withOrder`
(`assign_negated_positions`).
-/

namespace TableStore.Tables

variable {t : Tables} {id table : Uuid} {locked : Option String} {writes : List (Uuid × Int)}

/-- Writes indices one after the other. -/
def writeIndices (locked : Option String) (t : Tables) (writes : List (Uuid × Int)) : Change :=
  writes.foldlM (fun t w => writeIndex locked t w.1 w.2) t

/-- The tables with new indices for some columns. -/
def assign (t : Tables) (writes : List (Uuid × Int)) : Tables :=
  { t with
    columns := t.columns.map fun c => { c with index := (writes.lookup c.id).getD c.index } }

/-! ### One index -/

theorem writeIndex_ok {c : ColumnRow} {index : Int} (hc : t.column? id = some c)
    (hguard : index < 0 ∨ locked ≠ some c.name)
    (hfree : ∀ d ∈ t.rowsOf c.tableId, d.id ≠ id → d.index ≠ index) :
    writeIndex locked t id index = .ok (t.modifyColumn id fun c => { c with index := index }) := by
  have hopen : (!(0 ≤ index && locked == some c.name)) = true := by
    rcases hguard with h | h
    · simp [Int.not_le.mpr h]
    · simp [h]
  have huntaken : t.indexTaken c index = false := by
    refine List.any_eq_false.mpr fun d hd => ?_
    simpa [(column?_spec hc).2] using fun hne htable =>
      hfree d (mem_rowsOf.mpr ⟨hd, htable⟩) hne
  simp only [writeIndex, hc]
  rw [ensure, if_pos hopen, ensure, huntaken]
  rfl

/-- A guarded column does not take an index that is not negative. -/
theorem writeIndex_guarded {c : ColumnRow} {index : Int} (hc : t.column? id = some c)
    (hindex : 0 ≤ index) (hlocked : locked = some c.name) :
    writeIndex locked t id index = .error .guarded := by
  simp only [writeIndex, hc]
  rw [ensure, if_neg (by simp [hindex, hlocked])]
  rfl

/-! ### Many indices -/

theorem assign_nil : t.assign [] = t := by
  simp [assign]

/-- Writing one index and then others is writing all of them. -/
theorem assign_modifyColumn {w : Uuid × Int} (hw : w.1 ∉ writes.map Prod.fst) :
    (t.modifyColumn w.1 fun c => { c with index := w.2 }).assign writes =
      t.assign (w :: writes) := by
  obtain ⟨x, index⟩ := w
  have hnone : writes.lookup x = none := by
    refine List.lookup_eq_none_iff.mpr fun p hp => ?_
    have hmem : p.1 ∈ writes.map Prod.fst := List.mem_map_of_mem hp
    have hne : x ≠ p.1 := fun h => hw (h ▸ hmem)
    simpa using hne
  simp only [assign, modifyColumn, List.map_map]
  congr 1
  refine List.map_congr_left fun c _ => ?_
  by_cases hc : c.id = x
  · simp [hc, hnone]
  · have hne : (c.id == x) = false := by simpa using hc
    simp [hc, hne, List.lookup_cons]

theorem writeIndices_cons_ok {t₁ : Tables} {w : Uuid × Int}
    (h : writeIndex locked t w.1 w.2 = .ok t₁) :
    writeIndices locked t (w :: writes) = writeIndices locked t₁ writes := by
  rw [writeIndices, List.foldlM_cons, h]
  rfl

theorem writeIndices_cons_error {fault : EngineFault} {w : Uuid × Int}
    (h : writeIndex locked t w.1 w.2 = .error fault) :
    writeIndices locked t (w :: writes) = .error fault := by
  rw [writeIndices, List.foldlM_cons, h]
  rfl

/-- Writes of indices that keep the columns of a table apart: they name columns of the table, each
once, and the indices differ from each other and from those that are there. -/
structure Apart (t : Tables) (table : Uuid) (writes : List (Uuid × Int)) : Prop where
  ids : (writes.map Prod.fst).Nodup
  indices : (writes.map Prod.snd).Nodup
  column : ∀ w ∈ writes, ∃ c, t.column? w.1 = some c ∧ c.tableId = table
  free : ∀ w ∈ writes, ∀ d ∈ t.rowsOf table, d.index ≠ w.2

theorem Apart.of_sublist {front : List (Uuid × Int)} (h : t.Apart table writes)
    (hsub : front.Sublist writes) : t.Apart table front where
  ids := h.ids.sublist (hsub.map _)
  indices := h.indices.sublist (hsub.map _)
  column := fun w hw => h.column w (hsub.subset hw)
  free := fun w hw => h.free w (hsub.subset hw)

/-- Once the first index is written, the others still keep the columns apart. -/
theorem Apart.tail {w : Uuid × Int} (h : t.Apart table (w :: writes)) :
    (t.modifyColumn w.1 fun c => { c with index := w.2 }).Apart table writes where
  ids := (List.nodup_cons.mp h.ids).2
  indices := (List.nodup_cons.mp h.indices).2
  column := fun v hv => by
    obtain ⟨d, hd, ht⟩ := h.column v (List.mem_cons_of_mem _ hv)
    refine ⟨if v.1 = w.1 then { d with index := w.2 } else d, ?_, ?_⟩
    · rw [column?_modifyColumn (fun c => { c with index := w.2 }) fun _ => rfl, hd]
      split <;> rfl
    · split <;> exact ht
  free := fun v hv d hd => by
    obtain ⟨hdm, hdt⟩ := mem_rowsOf.mp hd
    obtain ⟨d', hd', rfl⟩ := List.mem_map.mp hdm
    by_cases hdw : d'.id = w.1
    · -- the index just written differs from those still to come
      rw [if_pos hdw]
      exact fun heq : w.2 = v.2 => (List.nodup_cons.mp h.indices).1 (heq ▸ List.mem_map_of_mem hv)
    · rw [if_neg hdw] at hdt ⊢
      exact h.free v (List.mem_cons_of_mem _ hv) d' (mem_rowsOf.mpr ⟨hd', hdt⟩)

/-- Indices that keep the columns apart are written as they are given, or a guarded column refuses
one. -/
theorem Apart.writeIndices_eq (h : t.Apart table writes) :
    writeIndices locked t writes = .ok (t.assign writes) ∨
      (∃ w ∈ writes, 0 ≤ w.2) ∧ locked ≠ none ∧
        writeIndices locked t writes = .error .guarded := by
  -- every write changes the tables that the rest is written to, so the tables are generalized
  induction writes generalizing t with
  | nil => exact .inl (congrArg _ assign_nil.symm)
  | cons w writes ih =>
    obtain ⟨c, hc, rfl⟩ := h.column w List.mem_cons_self
    by_cases hguard : w.2 < 0 ∨ locked ≠ some c.name
    · rw [writeIndices_cons_ok (writeIndex_ok hc hguard fun d hd _ =>
        h.free w List.mem_cons_self d hd)]
      have hrest := ih h.tail
      rw [assign_modifyColumn (List.nodup_cons.mp h.ids).1] at hrest
      exact hrest.imp_right fun ⟨⟨v, hv, hv0⟩, hr⟩ => ⟨⟨v, List.mem_cons_of_mem _ hv, hv0⟩, hr⟩
    · -- a guarded column refuses what is not negative, and nothing after it is written
      obtain ⟨h0, hlocked⟩ := not_or.mp hguard
      have hlocked : locked = some c.name := not_not.mp hlocked
      refine .inr ⟨⟨w, List.mem_cons_self, Int.not_lt.mp h0⟩, by simp [hlocked], ?_⟩
      exact writeIndices_cons_error (writeIndex_guarded hc (Int.not_lt.mp h0) hlocked)

theorem column?_assign (writes : List (Uuid × Int)) :
    (t.assign writes).column? id =
      (t.column? id).map fun c => { c with index := (writes.lookup c.id).getD c.index } :=
  find?_key_map _ fun _ => rfl

theorem rowsOf_assign (writes : List (Uuid × Int)) :
    (t.assign writes).rowsOf table =
      (t.rowsOf table).map fun c => { c with index := (writes.lookup c.id).getD c.index } := by
  rw [rowsOf, assign, List.filter_map]
  rfl

/-! ### Both rounds -/

/-- The writes that make the indices of columns negative, as these are visited. -/
def negations (visits : List ColumnRow) : List (Uuid × Int) :=
  visits.map fun c => (c.id, -1 - c.index)

/-- The writes that make all indices of a table negative. -/
def negated (t : Tables) (table : Uuid) : List (Uuid × Int) :=
  (t.rowsOf table).map fun c => (c.id, -1 - c.index)

/-- The writes that number columns. -/
def positions (order : List Uuid) : List (Uuid × Int) :=
  order.zipIdx.map fun p => (p.1, (p.2 : Int))

theorem negateIndices_eq :
    negateIndices locked t table = writeIndices locked t (t.negated table) := by
  rw [writeIndices, negated, List.foldlM_map]
  rfl

/-- What the first round, in whatever order it visits the rows of the table, writes to a column. -/
theorem lookup_negations {visits : List ColumnRow} (hn : (t.columns.map ColumnRow.id).Nodup)
    (hv : visits.Perm (t.rowsOf table)) {c : ColumnRow} (hc : c ∈ t.columns) :
    (negations visits).lookup c.id =
      if c.tableId = table then some (-1 - c.index) else none := by
  cases hl : (negations visits).lookup c.id with
  | none =>
    refine (if_neg fun htable => ?_).symm
    have hw : (c.id, -1 - c.index) ∈ negations visits :=
      List.mem_map_of_mem (hv.mem_iff.mpr (mem_rowsOf.mpr ⟨hc, htable⟩))
    exact absurd (List.lookup_eq_none_iff.mp hl _ hw) (by simp)
  | some index =>
    obtain ⟨d, hd, hdc⟩ := List.mem_map.mp (mem_of_lookup hl)
    obtain ⟨hdm, hdt⟩ := mem_rowsOf.mp (hv.mem_iff.mp hd)
    obtain rfl := List.inj_on_of_nodup_map hn hdm hc (Prod.mk.inj hdc).1
    rw [if_pos hdt, (Prod.mk.inj hdc).2]

theorem lookup_negated (hn : (t.columns.map ColumnRow.id).Nodup) {c : ColumnRow}
    (hc : c ∈ t.columns) :
    (t.negated table).lookup c.id = if c.tableId = table then some (-1 - c.index) else none :=
  lookup_negations hn (.refl (t.rowsOf table)) hc

/-- The order in which the first round visits the rows does not matter. -/
theorem assign_negations {visits : List ColumnRow} (hn : (t.columns.map ColumnRow.id).Nodup)
    (hv : visits.Perm (t.rowsOf table)) :
    t.assign (negations visits) = t.assign (t.negated table) := by
  simp only [assign]
  congr 1
  refine List.map_congr_left fun c hc => ?_
  rw [lookup_negations hn hv hc, lookup_negated hn hc]

theorem lookup_zipIdx (order : List Uuid) (k : Nat) :
    ((order.zipIdx k).map fun p => (p.1, (p.2 : Int))).lookup id =
      if id ∈ order then some ((k + order.idxOf id : Nat) : Int) else none := by
  induction order generalizing k with
  | nil => rfl
  | cons c order ih =>
    rw [List.zipIdx_cons, List.map_cons, List.lookup_cons, ih]
    by_cases hc : id = c
    · simp [hc]
    · have hne : (id == c) = false := by simpa using hc
      have hne' : (c == id) = false := by simpa using Ne.symm hc
      simp only [hne, List.mem_cons, hc, false_or, List.idxOf_cons, hne', cond_false]
      split
      · congr 2
        omega
      · rfl

theorem lookup_positions (order : List Uuid) :
    (positions order).lookup id = if id ∈ order then some (order.idxOf id : Int) else none := by
  simpa [positions] using lookup_zipIdx order 0

/-- Both rounds together write the order. -/
theorem assign_negated_positions {order : ColumnOrder} (hn : (t.columns.map ColumnRow.id).Nodup)
    (hp : ((t.rowsOf table).map ColumnRow.id).Perm order) :
    (t.assign (t.negated table)).assign (positions order) = t.withOrder table order := by
  simp only [assign, withOrder, List.map_map]
  congr 1
  refine List.map_congr_left fun c hc => ?_
  have hmem : c.id ∈ order ↔ c.tableId = table := by
    rw [← hp.mem_iff]
    constructor
    · intro h
      obtain ⟨d, hd, hdc⟩ := List.mem_map.mp h
      obtain ⟨hdm, hdt⟩ := mem_rowsOf.mp hd
      exact List.inj_on_of_nodup_map hn hdm hc hdc ▸ hdt
    · intro h
      exact List.mem_map_of_mem (mem_rowsOf.mpr ⟨hc, h⟩)
  by_cases ht : c.tableId = table
  · simp [lookup_positions, hmem.mpr ht, ht]
  · simp [lookup_positions, hmem, ht, lookup_negated hn hc]

/-- The indices of the columns of a table differ, and none is negative. -/
structure Spread (t : Tables) (table : Uuid) : Prop where
  nodup : ((t.rowsOf table).map ColumnRow.index).Nodup
  nonneg : ∀ c ∈ t.rowsOf table, 0 ≤ c.index

theorem Ordered.spread {order : ColumnOrder} (h : t.Ordered table order) : t.Spread table where
  nodup := by
    have hindices : ((t.columnsOf table).map ColumnRow.index).Perm
        ((t.rowsOf table).map ColumnRow.index) := columnsOf_perm.map _
    rw [h.indices_eq] at hindices
    exact hindices.nodup_iff.mp (List.nodup_range.map fun _ _ => Int.ofNat.inj)
  nonneg := fun c hc => by
    rw [h.index c hc]
    exact Int.natCast_nonneg _

theorem Spread.of_sublist {t' : Tables} (h : t.Spread table)
    (hsub : (t'.rowsOf table).Sublist (t.rowsOf table)) : t'.Spread table where
  nodup := h.nodup.sublist (hsub.map _)
  nonneg := fun c hc => h.nonneg c (hsub.subset hc)

section Rounds

variable (hn : (t.columns.map ColumnRow.id).Nodup)
include hn

/-- Making the indices negative keeps the columns apart, in whatever order they are visited. -/
theorem apart_negations {visits : List ColumnRow} (h : t.Spread table)
    (hv : visits.Perm (t.rowsOf table)) :
    t.Apart table (negations visits) where
  ids := by
    have hids : (visits.map ColumnRow.id).Perm ((t.rowsOf table).map ColumnRow.id) := hv.map _
    rw [negations, List.map_map]
    exact hids.nodup_iff.mpr (hn.sublist (List.filter_sublist.map _))
  indices := by
    have hindices : (visits.map ColumnRow.index).Nodup := (hv.map _).nodup_iff.mpr h.nodup
    have hmirror : (negations visits).map Prod.snd =
        (visits.map ColumnRow.index).map fun i => -1 - i := by
      simp [negations]
    rw [hmirror]
    exact hindices.map fun i j hij => by omega
  column := fun w hw => by
    obtain ⟨c, hc, rfl⟩ := List.mem_map.mp hw
    obtain ⟨hcm, hct⟩ := mem_rowsOf.mp (hv.mem_iff.mp hc)
    exact ⟨c, find?_key_of_mem hn hcm, hct⟩
  free := fun w hw d hd => by
    obtain ⟨c, hc, rfl⟩ := List.mem_map.mp hw
    have h0 := h.nonneg d hd
    have hneg := h.nonneg c (hv.mem_iff.mp hc)
    simp only
    omega

/-- What the first round leaves to a column of the table is negative. -/
theorem negative_of_mem_rowsOf (h : t.Spread table) {d : ColumnRow}
    (hd : d ∈ (t.assign (t.negated table)).rowsOf table) : d.index < 0 := by
  rw [rowsOf_assign] at hd
  obtain ⟨c, hc, rfl⟩ := List.mem_map.mp hd
  have h0 := h.nonneg c hc
  obtain ⟨hcm, hct⟩ := mem_rowsOf.mp hc
  simp only [lookup_negated hn hcm, if_pos hct, Option.getD_some]
  omega

/-- Then writing an order keeps the columns apart. -/
theorem apart_positions {order : ColumnOrder} (h : t.Spread table)
    (hp : ((t.rowsOf table).map ColumnRow.id).Perm order) :
    (t.assign (t.negated table)).Apart table (positions order) := by
  have hids : (positions order).map Prod.fst = order := by
    simp [positions, Function.comp_def, List.zipIdx_map_fst]
  have hindices : (positions order).map Prod.snd = (List.range order.length).map Int.ofNat := by
    have hsnd : order.zipIdx.map Prod.snd = List.range order.length := by
      rw [List.zipIdx_map_snd, List.range_eq_range']
    rw [← hsnd, positions, List.map_map, List.map_map]
    rfl
  constructor
  case ids =>
    rw [hids]
    exact hp.nodup_iff.mp (hn.sublist (List.filter_sublist.map _))
  case indices =>
    rw [hindices]
    exact List.nodup_range.map fun _ _ => Int.ofNat.inj
  case column =>
    intro w hw
    have hwo : w.1 ∈ order := hids ▸ List.mem_map_of_mem hw
    obtain ⟨c, hc, hcw⟩ := List.mem_map.mp (hp.mem_iff.mpr hwo)
    obtain ⟨hcm, hct⟩ := mem_rowsOf.mp hc
    have hfound : t.column? w.1 = some c := hcw ▸ find?_key_of_mem hn hcm
    rw [column?_assign, hfound]
    exact ⟨_, rfl, hct⟩
  case free =>
    intro w hw d hd
    obtain ⟨p, -, rfl⟩ := List.mem_map.mp hw
    have hneg := negative_of_mem_rowsOf hn h hd
    simp only
    omega

/-- The first round never fails. -/
theorem negateIndices_ok (h : t.Spread table) :
    negateIndices locked t table = .ok (t.assign (t.negated table)) := by
  rw [negateIndices_eq]
  refine (apart_negations hn h (.refl _)).writeIndices_eq.resolve_right
    fun ⟨⟨w, hw, h0⟩, _⟩ => ?_
  obtain ⟨c, hc, rfl⟩ := List.mem_map.mp hw
  have hc0 := h.nonneg c hc
  simp only at h0
  omega

/-- The second round writes the order, or a guarded column refuses its position. -/
theorem writeIndices_positions {order : ColumnOrder} (h : t.Spread table)
    (hp : ((t.rowsOf table).map ColumnRow.id).Perm order) :
    writeIndices locked (t.assign (t.negated table)) (positions order) =
        .ok (t.withOrder table order) ∨
      locked ≠ none ∧
        writeIndices locked (t.assign (t.negated table)) (positions order) = .error .guarded := by
  rw [← assign_negated_positions hn hp]
  exact (apart_positions hn h hp).writeIndices_eq.imp_right fun h => h.2

end Rounds

end TableStore.Tables
