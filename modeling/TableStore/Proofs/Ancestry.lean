import Mathlib.Data.List.Perm.Subperm
import Mathlib.Logic.Relation
import TableStore.Proofs.Lookup
import TableStore.Store.Request

/-!
# Ancestors of entries

An entry points to its parent. `Ascent t id chain` says that following these pointers from `id`
leads to a root, and `chain` lists what stands on the way, `id` first. There is at most one such
chain (`Ascent.unique`), so it meets nothing twice (`Ascent.nodup`), and what stands on it is what
`id` is at or below (`Ascent.mem_iff`).

The last section says which chains survive a change of the pointers: those that do not come to a
changed one (`Ascent.congr`), and, where one entry gets a new parent, all of them, as long as the
new parent is not at or below that entry (`Ascent.exists_of_moved`).
-/

namespace TableStore.Tables

variable {t t' : Tables} {id other parent : Uuid} {chain chain' : List Uuid}

/-- The parent of an entry: `some none` at a root, and `none` where there is no entry. -/
def parentOf? (t : Tables) (id : Uuid) : Option (Option Uuid) :=
  (t.entry? id).map EntryRow.parent

/-- The way from an entry up to a root: the entry, its parent, the parent of that, and so on. -/
inductive Ascent (t : Tables) : Uuid → List Uuid → Prop where
  | root {id : Uuid} (h : t.parentOf? id = some none) : Ascent t id [id]
  | up {id parent : Uuid} {chain : List Uuid} (h : t.parentOf? id = some (some parent))
      (above : Ascent t parent chain) : Ascent t id (id :: chain)

/-- What is met on the way up from an entry, in at most so many steps. -/
def lineage (t : Tables) : Nat → Uuid → List Uuid
  | 0, _ => []
  | steps + 1, id =>
    match t.parentOf? id with
    | some (some parent) => id :: lineage t steps parent
    | some none => [id]
    | none => []

/-- The entry and all its ancestors, from below; there are no more of them than entries. -/
def ancestry (t : Tables) (id : Uuid) : List Uuid :=
  t.lineage t.entries.length id

/-- The first entry has the second one as its parent. -/
def IsChildOf (t : Tables) (child parent : Uuid) : Prop :=
  t.parentOf? child = some (some parent)

/-- The first entry is the second one or a descendant of it. -/
def AtOrBelow (t : Tables) : Uuid → Uuid → Prop :=
  Relation.ReflTransGen t.IsChildOf

theorem parentOf?_eq_some {p : Option Uuid} :
    t.parentOf? id = some p ↔ ∃ e, t.entry? id = some e ∧ e.parent = p := by
  simp [parentOf?]

theorem ancestry_congr (hp : ∀ x, t'.parentOf? x = t.parentOf? x)
    (hl : t'.entries.length = t.entries.length) : t'.ancestry id = t.ancestry id := by
  have hlineage : ∀ steps x, t'.lineage steps x = t.lineage steps x := by
    intro steps
    induction steps with
    | zero => exact fun _ => rfl
    | succ steps ih =>
      intro x
      simp only [lineage, hp, ih]
  rw [ancestry, hl, hlineage, ancestry]

/-- There are no more different identifiers than there are identifiers. -/
theorem length_le_of_nodup (h : chain.Nodup) : chain.length ≤ Request.identifierCount := by
  have hinj : Function.Injective fun u : Uuid => u.bits.toNat := fun a b hab => by
    cases a; cases b; simpa [BitVec.toNat_inj] using hab
  have hsub : chain.map (fun u => u.bits.toNat) ⊆ List.range (Nat.pow 2 128) := by
    intro n hn
    obtain ⟨u, -, rfl⟩ := List.mem_map.mp hn
    exact List.mem_range.mpr u.bits.isLt
  have hle := (List.subperm_of_subset (h.map hinj) hsub).length_le
  rwa [List.length_map, List.length_range] at hle

/-! ### The chain of an entry -/

namespace Ascent

theorem exists_tail (h : t.Ascent id chain) : ∃ above, chain = id :: above := by
  cases h with
  | root _ => exact ⟨[], rfl⟩
  | up _ _ => exact ⟨_, rfl⟩

theorem mem_self (h : t.Ascent id chain) : id ∈ chain := by
  obtain ⟨above, rfl⟩ := h.exists_tail
  exact List.mem_cons_self

/-- There is only one way up. -/
theorem unique (h : t.Ascent id chain) (h' : t.Ascent id chain') : chain = chain' := by
  induction h generalizing chain' with
  | root hp =>
    cases h' with
    | root _ => rfl
    | up hp' _ => rw [hp] at hp'; simp at hp'
  | up hp _ ih =>
    cases h' with
    | root hp' => rw [hp] at hp'; simp at hp'
    | up hp' above' =>
      rw [hp] at hp'
      obtain rfl := Option.some_inj.mp (Option.some_inj.mp hp')
      rw [ih above']

/-- Everything on the way has its own way up, which is a part of this one. -/
theorem exists_of_mem (h : t.Ascent id chain) (ho : other ∈ chain) :
    ∃ rest, t.Ascent other rest ∧ rest <:+ chain := by
  induction h with
  | root hp =>
    obtain rfl := List.mem_singleton.mp ho
    exact ⟨_, .root hp, List.suffix_refl _⟩
  | up hp above ih =>
    rcases List.mem_cons.mp ho with rfl | ho
    · exact ⟨_, .up hp above, List.suffix_refl _⟩
    · obtain ⟨rest, hr, hs⟩ := ih ho
      exact ⟨rest, hr, hs.trans (List.suffix_cons _ _)⟩

/-- Nothing is met twice on the way. -/
theorem nodup (h : t.Ascent id chain) : chain.Nodup := by
  induction h with
  | root _ => exact List.nodup_singleton _
  | up hp above ih =>
    refine List.nodup_cons.mpr ⟨fun hmem => ?_, ih⟩
    -- the entry's own chain would be a proper part of itself
    obtain ⟨rest, hr, hs⟩ := above.exists_of_mem hmem
    have hlen := hs.length_le
    rw [hr.unique (.up hp above), List.length_cons] at hlen
    omega

/-- Who goes up and remembers what has been met meets nothing again. -/
theorem notMem_visited {parent : Uuid} {visited : List Uuid} (h : t.Ascent parent chain)
    (hp : t.parentOf? id = some (some parent)) (hv : ∀ x ∈ id :: chain, x ∉ visited) :
    ∀ x ∈ chain, x ∉ id :: visited := by
  intro x hx hxv
  rcases List.mem_cons.mp hxv with rfl | hxv
  · exact (List.nodup_cons.mp (Ascent.up hp h).nodup).1 hx
  · exact hv x (List.mem_cons_of_mem _ hx) hxv

/-- What stands on the way is what the entry is at or below. -/
theorem mem_iff (h : t.Ascent id chain) : other ∈ chain ↔ t.AtOrBelow id other := by
  constructor
  · intro ho
    induction h with
    | root _ =>
      obtain rfl := List.mem_singleton.mp ho
      exact .refl
    | up hp _ ih =>
      rcases List.mem_cons.mp ho with rfl | ho
      · exact .refl
      · exact .head hp (ih ho)
  · intro hb
    induction hb using Relation.ReflTransGen.head_induction_on generalizing chain with
    | refl => exact h.mem_self
    | head hc _ ih =>
      cases h with
      | root hp => rw [IsChildOf, hp] at hc; simp at hc
      | up hp above =>
        rw [IsChildOf, hp] at hc
        obtain rfl := Option.some_inj.mp (Option.some_inj.mp hc)
        exact List.mem_cons_of_mem _ (ih above)

/-- Everything on the way is an entry. -/
theorem isSome_of_mem (h : t.Ascent id chain) (ho : other ∈ chain) : (t.entry? other).isSome := by
  obtain ⟨rest, hr, -⟩ := h.exists_of_mem ho
  have hp : ∃ p, t.parentOf? other = some p := by
    cases hr with
    | root hp => exact ⟨_, hp⟩
    | up hp _ => exact ⟨_, hp⟩
  obtain ⟨p, hp⟩ := hp
  obtain ⟨e, he, -⟩ := parentOf?_eq_some.mp hp
  simp [he]

/-- A way up is no longer than there are identifiers. -/
theorem length_le (h : t.Ascent id chain) : chain.length ≤ Request.identifierCount :=
  length_le_of_nodup h.nodup

theorem lineage_eq (h : t.Ascent id chain) {steps : Nat} (hle : chain.length ≤ steps) :
    t.lineage steps id = chain := by
  induction h generalizing steps with
  | root hp =>
    cases steps with
    | zero => simp at hle
    | succ steps => simp only [lineage, hp]
  | up hp _ ih =>
    cases steps with
    | zero => simp at hle
    | succ steps =>
      simp only [lineage, hp, ih (Nat.le_of_succ_le_succ hle)]

/-- A way up is no longer than there are entries. -/
theorem length_le_entries (h : t.Ascent id chain) : chain.length ≤ t.entries.length := by
  have hsub : chain ⊆ t.entries.map EntryRow.id := fun x hx => by
    obtain ⟨e, he⟩ := Option.isSome_iff_exists.mp (h.isSome_of_mem hx)
    obtain ⟨hm, rfl⟩ := entry?_spec he
    exact List.mem_map_of_mem hm
  have hle := (List.subperm_of_subset h.nodup hsub).length_le
  rwa [List.length_map] at hle

/-- The way up can be computed. -/
theorem ancestry_eq (h : t.Ascent id chain) : t.ancestry id = chain :=
  h.lineage_eq h.length_le_entries

/-! ### Changed pointers -/

/-- A way up stays where nothing on it gets another parent. -/
theorem congr (h : t.Ascent id chain) (hc : ∀ x ∈ chain, t'.parentOf? x = t.parentOf? x) :
    t'.Ascent id chain := by
  induction h with
  | root hp => exact .root ((hc _ List.mem_cons_self).trans hp)
  | up hp _ ih =>
    exact .up ((hc _ List.mem_cons_self).trans hp)
      (ih fun x hx => hc x (List.mem_cons_of_mem _ hx))

/-- Where one entry gets a new parent that has a way up, all that had a way up have one. -/
theorem exists_of_moved (h : t.Ascent id chain)
    (hc : ∀ x, x ≠ other → t'.parentOf? x = t.parentOf? x) (hm : ∃ way, t'.Ascent other way) :
    ∃ way, t'.Ascent id way := by
  induction h with
  | @root id hp =>
    by_cases hid : id = other
    · exact hid ▸ hm
    · exact ⟨_, .root ((hc id hid).trans hp)⟩
  | @up id _ _ hp _ ih =>
    by_cases hid : id = other
    · exact hid ▸ hm
    · obtain ⟨way, hw⟩ := ih
      exact ⟨_, .up ((hc id hid).trans hp) hw⟩

end Ascent
end TableStore.Tables
