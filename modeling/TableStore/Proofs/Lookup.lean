import Mathlib.Data.List.Nodup
import TableStore.Store.Tables

/-!
# Rows by identifier

The lookups of `Tables` all search a list of rows for a key. The first section says what such a
search finds where no key stands twice, and what changing, adding and taking out rows does to it;
the second says so of organizations, entries and columns. After this nothing unfolds a lookup.
-/

namespace TableStore

/-! ### Searching for a key -/

section Keyed

variable {α : Type} {key : α → Uuid} {rows : List α} {a : α} {id : Uuid}

/-- What is found has the key and is among the rows. -/
theorem mem_and_key_of_find? (h : rows.find? (fun b => key b == id) = some a) :
    a ∈ rows ∧ key a = id :=
  ⟨List.mem_of_find?_eq_some h, by simpa using List.find?_some h⟩

/-- Nothing is found exactly if no row has the key. -/
theorem find?_key_eq_none : rows.find? (fun b => key b == id) = none ↔ ∀ b ∈ rows, key b ≠ id := by
  simp

/-- Of rows with different keys each is found by its own. -/
theorem find?_key_of_mem (hn : (rows.map key).Nodup) (ha : a ∈ rows) :
    rows.find? (fun b => key b == key a) = some a := by
  cases hf : rows.find? fun b => key b == key a with
  | none => exact absurd rfl (find?_key_eq_none.mp hf a ha)
  | some b =>
    obtain ⟨hb, hk⟩ := mem_and_key_of_find? hf
    rw [List.inj_on_of_nodup_map hn hb ha hk]

/-- Of rows with different keys there is one with each key. -/
theorem filter_key_of_mem (hn : (rows.map key).Nodup) (ha : a ∈ rows) :
    rows.filter (fun b => key b == key a) = [a] := by
  induction rows with
  | nil => cases ha
  | cons b rest ih =>
    obtain ⟨hb, hrest⟩ := List.nodup_cons.mp hn
    rcases List.mem_cons.mp ha with rfl | ha
    · have hnone : rest.filter (fun b => key b == key a) = [] :=
        List.filter_eq_nil_iff.mpr fun c hc heq => hb (beq_iff_eq.mp heq ▸ List.mem_map_of_mem hc)
      rw [List.filter_cons_of_pos (by simp), hnone]
    · have hne : key b ≠ key a := fun heq => hb (heq ▸ List.mem_map_of_mem ha)
      rw [List.filter_cons_of_neg (by simpa using hne), ih hrest ha]

/-- Changing rows and keeping their keys changes what is found. -/
theorem find?_key_map (f : α → α) (hf : ∀ b, key (f b) = key b) :
    (rows.map f).find? (fun b => key b == id) = (rows.find? fun b => key b == id).map f := by
  rw [List.find?_map]
  simp only [Function.comp_def, hf]

/-- A row that is taken out is not found any more, and the others are. -/
theorem find?_key_filter (hn : (rows.map key).Nodup) (p : α → Bool) :
    (rows.filter p).find? (fun b => key b == id) =
      (rows.find? fun b => key b == id).filter p := by
  cases hf : rows.find? fun b => key b == id with
  | none =>
    rw [Option.filter_none, find?_key_eq_none]
    exact fun b hb => find?_key_eq_none.mp hf b (List.mem_of_mem_filter hb)
  | some b =>
    obtain ⟨hb, rfl⟩ := mem_and_key_of_find? hf
    by_cases hp : p b = true
    · rw [Option.filter_some_pos hp]
      exact find?_key_of_mem (hn.sublist (List.filter_sublist.map key))
        (List.mem_filter.mpr ⟨hb, hp⟩)
    · rw [Option.filter_some_neg (by simpa using hp), find?_key_eq_none]
      intro c hc hk
      obtain ⟨hc, hpc⟩ := List.mem_filter.mp hc
      exact hp (List.inj_on_of_nodup_map hn hc hb hk ▸ hpc)

/-- A row with a new key that is added is found by its key, and the others are found as before. -/
theorem find?_key_append (hnew : rows.find? (fun b => key b == key a) = none) :
    (rows ++ [a]).find? (fun b => key b == id) =
      if id = key a then some a else rows.find? fun b => key b == id := by
  rw [List.find?_append]
  by_cases hid : id = key a
  · subst hid
    simp [hnew]
  · have hne : (key a == id) = false := by simpa using Ne.symm hid
    simp [hne, hid]

/-- Adding a row with a new key keeps keys apart. -/
theorem nodup_map_append (hn : (rows.map key).Nodup)
    (hnew : rows.find? (fun b => key b == key a) = none) : ((rows ++ [a]).map key).Nodup := by
  rw [List.map_append, List.map_singleton]
  refine hn.append (List.nodup_singleton _) (List.disjoint_singleton.mpr fun hmem => ?_)
  obtain ⟨b, hb, hk⟩ := List.mem_map.mp hmem
  exact find?_key_eq_none.mp hnew b hb hk

/-- Changing the rows with one key changes what is found for that key only. -/
theorem find?_key_map_ite (f : α → α) (hf : ∀ b, key (f b) = key b) (k : Uuid) :
    (rows.map fun b => if key b = k then f b else b).find? (fun b => key b == id) =
      if id = k then (rows.find? fun b => key b == id).map f
      else rows.find? fun b => key b == id := by
  rw [find?_key_map _ fun b => by by_cases hb : key b = k <;> simp [hb, hf]]
  cases hr : rows.find? fun b => key b == id with
  | none => simp
  | some b =>
    obtain ⟨-, rfl⟩ := mem_and_key_of_find? hr
    by_cases hb : key b = k <;> simp [hb]

/-- Rows that are changed without their keys keep the list of keys. -/
theorem map_key_map_ite (f : α → α) (hf : ∀ b, key (f b) = key b) (p : α → Prop)
    [DecidablePred p] : (rows.map fun b => if p b then f b else b).map key = rows.map key := by
  rw [List.map_map]
  refine List.map_congr_left fun b _ => ?_
  by_cases hb : p b <;> simp [hb, hf]

/-- What is found under a key is there with it. -/
theorem mem_of_lookup {β : Type} {pairs : List (Uuid × β)} {b : β}
    (h : pairs.lookup id = some b) : (id, b) ∈ pairs := by
  obtain ⟨front, back, hsplit, -⟩ := List.lookup_eq_some_iff.mp h
  rw [hsplit]
  exact List.mem_append_right _ List.mem_cons_self

end Keyed

/-! ### Organizations, entries and columns -/

namespace Tables

variable {t : Tables} {id other : Uuid}

theorem organization?_eq_none :
    t.organization? id = none ↔ ∀ o ∈ t.organizations, o.id ≠ id :=
  find?_key_eq_none

theorem entry?_eq_none : t.entry? id = none ↔ ∀ e ∈ t.entries, e.id ≠ id :=
  find?_key_eq_none

theorem column?_eq_none : t.column? id = none ↔ ∀ c ∈ t.columns, c.id ≠ id :=
  find?_key_eq_none

theorem organization?_spec {o : Organization} (h : t.organization? id = some o) :
    o ∈ t.organizations ∧ o.id = id :=
  mem_and_key_of_find? h

theorem entry?_spec {e : EntryRow} (h : t.entry? id = some e) : e ∈ t.entries ∧ e.id = id :=
  mem_and_key_of_find? h

theorem column?_spec {c : ColumnRow} (h : t.column? id = some c) : c ∈ t.columns ∧ c.id = id :=
  mem_and_key_of_find? h

theorem organization?_modifyOrganization (f : Organization → Organization)
    (hf : ∀ o, (f o).id = o.id) :
    (t.modifyOrganization other f).organization? id =
      if id = other then (t.organization? id).map f else t.organization? id :=
  find?_key_map_ite f hf other

theorem entry?_modifyEntry (f : EntryRow → EntryRow) (hf : ∀ e, (f e).id = e.id) :
    Tables.entry? (t.modifyEntry other f) id =
      if id = other then (t.entry? id).map f else t.entry? id :=
  find?_key_map_ite f hf other

theorem column?_modifyColumn (f : ColumnRow → ColumnRow) (hf : ∀ c, (f c).id = c.id) :
    (t.modifyColumn other f).column? id =
      if id = other then (t.column? id).map f else t.column? id :=
  find?_key_map_ite f hf other

/-- Changing a row that is not there changes nothing. -/
theorem modifyOrganization_of_none (f : Organization → Organization)
    (h : t.organization? id = none) : t.modifyOrganization id f = t := by
  have hid : ∀ o ∈ t.organizations, (if o.id = id then f o else o) = o := fun o ho =>
    if_neg (organization?_eq_none.mp h o ho)
  simp only [modifyOrganization, List.map_congr_left hid, List.map_id']

end Tables
end TableStore
