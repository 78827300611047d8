import Mathlib.Data.List.Chain
import TableStore.Proofs.Sound

/-!
# Trails

A way up need not lead to a root: where parents point in a circle it does not end. `Tables.trail` is
what is met on it by someone who remembers what has been met and stops there. Nothing is met twice
(`Tables.nodup_trail`), each is the parent of the one before (`Tables.isChain_trail`), and a trail
that has not been cut short is closed under parents (`Tables.exists_parent_trail`), so it is all
that its start is at or below (`Tables.mem_trail_iff`).

In `Tables.Linked` tables, where a parent is an entry at least, a trail meets entries only. There
are no more steps than entries then, and with more steps the trail stays the same
(`Tables.Linked.trail_eq`). A way up that leads to a root is a trail (`Tables.Ascent.trail_eq`).
-/

namespace TableStore.Tables

variable {t : Tables} {id x p start : Uuid} {steps steps' : Nat} {visited chain : List Uuid}
  {next : Option Uuid}

/-- What is met on the way up from `next`, in at most so many steps, up to what has been met
before. -/
def trail (t : Tables) : Nat → List Uuid → Option Uuid → List Uuid
  | 0, _, _ | _, _, none => []
  | steps + 1, visited, some current =>
    if current ∈ visited then []
    else current :: trail t steps (current :: visited) (t.parentOf? current).join

theorem trail_none : t.trail steps visited none = [] := by
  cases steps <;> rfl

theorem trail_of_mem (h : x ∈ visited) : t.trail steps visited (some x) = [] := by
  cases steps with
  | zero => rfl
  | succ steps => exact if_pos h

theorem trail_of_notMem (h : x ∉ visited) :
    t.trail (steps + 1) visited (some x) =
      x :: t.trail steps (x :: visited) (t.parentOf? x).join :=
  if_neg h

theorem join_parentOf? : (t.parentOf? x).join = some p ↔ t.IsChildOf x p := by
  rw [IsChildOf, Option.join_eq_some_iff]

/-- The cases of a trail that has steps left. -/
theorem trail_cases (steps : Nat) (visited : List Uuid) (next : Option Uuid) :
    t.trail (steps + 1) visited next = [] ∧ (∀ x, next = some x → x ∈ visited) ∨
      ∃ x, next = some x ∧ x ∉ visited ∧ t.trail (steps + 1) visited next =
        x :: t.trail steps (x :: visited) (t.parentOf? x).join := by
  cases next with
  | none => exact .inl ⟨rfl, nofun⟩
  | some x =>
    by_cases h : x ∈ visited
    · exact .inl ⟨trail_of_mem h, fun y hy => Option.some_inj.mp hy ▸ h⟩
    · exact .inr ⟨x, rfl, h, trail_of_notMem h⟩

/-! ### What is met -/

/-- What has been met is not met again. -/
theorem notMem_visited_of_mem_trail (h : x ∈ t.trail steps visited next) : x ∉ visited := by
  induction steps generalizing visited next with
  | zero => cases h
  | succ steps ih =>
    rcases trail_cases (t := t) steps visited next with ⟨heq, -⟩ | ⟨y, -, hy, heq⟩
    · rw [heq] at h
      cases h
    · rw [heq] at h
      rcases List.mem_cons.mp h with rfl | h
      · exact hy
      · exact fun hx => ih h (List.mem_cons_of_mem _ hx)

/-- **Nothing is met twice.** -/
theorem nodup_trail (t : Tables) (steps : Nat) (visited : List Uuid) (next : Option Uuid) :
    (t.trail steps visited next).Nodup := by
  induction steps generalizing visited next with
  | zero => exact List.nodup_nil
  | succ steps ih =>
    rcases trail_cases (t := t) steps visited next with ⟨heq, -⟩ | ⟨y, -, -, heq⟩
    · rw [heq]
      exact List.nodup_nil
    · rw [heq]
      exact List.nodup_cons.mpr
        ⟨fun hy => notMem_visited_of_mem_trail hy List.mem_cons_self, ih _ _⟩

theorem head?_trail (h : x ∈ (t.trail steps visited next).head?) : next = some x := by
  cases steps with
  | zero => cases h
  | succ steps =>
    rcases trail_cases (t := t) steps visited next with ⟨heq, -⟩ | ⟨y, rfl, -, heq⟩
    · rw [heq] at h
      cases h
    · rw [heq] at h
      exact congrArg some (Option.some_inj.mp h)

/-- **Each is the parent of the one that is met before.** -/
theorem isChain_trail (t : Tables) (steps : Nat) (visited : List Uuid) (next : Option Uuid) :
    (t.trail steps visited next).IsChain t.IsChildOf := by
  induction steps generalizing visited next with
  | zero => exact .nil
  | succ steps ih =>
    rcases trail_cases (t := t) steps visited next with ⟨heq, -⟩ | ⟨y, -, -, heq⟩
    · rw [heq]
      exact .nil
    · rw [heq]
      exact (ih _ _).cons fun p hp => join_parentOf?.mp (head?_trail hp)

/-- Where a trail has not been cut short, the parents of what is met are met too. -/
theorem exists_parent_trail (h : (t.trail steps visited next).length < steps) :
    (∀ p, next = some p → p ∈ visited ∨ p ∈ t.trail steps visited next) ∧
      ∀ x ∈ t.trail steps visited next, ∀ p, t.IsChildOf x p →
        p ∈ visited ∨ p ∈ t.trail steps visited next := by
  induction steps generalizing visited next with
  | zero => cases h
  | succ steps ih =>
    rcases trail_cases (t := t) steps visited next with ⟨heq, hmet⟩ | ⟨y, rfl, hy, heq⟩
    · rw [heq]
      exact ⟨fun p hp => .inl (hmet p hp), nofun⟩
    · rw [heq] at h ⊢
      obtain ⟨hnext, hparents⟩ := ih (Nat.lt_of_succ_lt_succ h)
      have hlift : ∀ p, (p ∈ y :: visited ∨
          p ∈ t.trail steps (y :: visited) (t.parentOf? y).join) →
            p ∈ visited ∨ p ∈ y :: t.trail steps (y :: visited) (t.parentOf? y).join := by
        intro p hp
        simp only [List.mem_cons] at hp ⊢
        tauto
      refine ⟨fun p hp => .inr (Option.some_inj.mp hp ▸ List.mem_cons_self), fun x hx p hp => ?_⟩
      rcases List.mem_cons.mp hx with rfl | hx
      · exact hlift p (hnext p (join_parentOf?.mpr hp))
      · exact hlift p (hparents x hx p hp)

/-- With more steps a trail stays the same, unless it has been cut short. -/
theorem trail_of_le (h : (t.trail steps visited next).length < steps) (hle : steps ≤ steps') :
    t.trail steps' visited next = t.trail steps visited next := by
  induction steps generalizing visited next steps' with
  | zero => cases h
  | succ steps ih =>
    obtain ⟨more, rfl⟩ := Nat.exists_eq_succ_of_ne_zero (Nat.ne_zero_of_lt hle)
    rcases trail_cases (t := t) steps visited next with ⟨heq, hmet⟩ | ⟨y, rfl, hy, heq⟩
    · rw [heq]
      cases next with
      | none => exact trail_none
      | some x => exact trail_of_mem (hmet x rfl)
    · rw [heq] at h
      rw [heq, trail_of_notMem hy, ih (Nat.lt_of_succ_lt_succ h) (Nat.le_of_succ_le_succ hle)]

/-- What is met is above the start. -/
theorem atOrBelow_of_mem_trail (h : x ∈ t.trail steps visited (some start)) :
    t.AtOrBelow start x := by
  induction steps generalizing visited start with
  | zero => cases h
  | succ steps ih =>
    by_cases hmet : start ∈ visited
    · rw [trail_of_mem hmet] at h
      cases h
    · rw [trail_of_notMem hmet] at h
      rcases List.mem_cons.mp h with rfl | h
      · exact .refl
      · cases hp : (t.parentOf? start).join with
        | none =>
          rw [hp, trail_none] at h
          cases h
        | some p =>
          rw [hp] at h
          exact .head (join_parentOf?.mp hp) (ih h)

/-- **A trail is all that its start is at or below**, unless it has been cut short. -/
theorem mem_trail_iff (h : (t.trail steps [] (some start)).length < steps) :
    x ∈ t.trail steps [] (some start) ↔ t.AtOrBelow start x := by
  refine ⟨atOrBelow_of_mem_trail, fun hx => ?_⟩
  obtain ⟨hstart, hparents⟩ := exists_parent_trail h
  induction hx with
  | refl => exact (hstart start rfl).resolve_left List.not_mem_nil
  | tail _ hchild ih => exact (hparents _ ih _ hchild).resolve_left List.not_mem_nil

/-- There are enough steps for every trail. -/
theorem length_trail_lt (t : Tables) (visited : List Uuid) (next : Option Uuid) :
    (t.trail (Request.identifierCount + 1) visited next).length < Request.identifierCount + 1 :=
  Nat.lt_succ_of_le (length_le_of_nodup (nodup_trail t _ _ _))

theorem atOrBelow_of_mem_lineage (h : x ∈ t.lineage steps start) : t.AtOrBelow start x := by
  induction steps generalizing start with
  | zero => cases h
  | succ steps ih =>
    rw [lineage] at h
    split at h
    case h_1 parent hp =>
      rcases List.mem_cons.mp h with rfl | h
      · exact .refl
      · exact .head hp (ih h)
    case h_2 => exact List.mem_singleton.mp h ▸ .refl
    case h_3 => cases h

/-! ### Ways up are trails -/

/-- A way up that leads to a root is what is met on it. -/
theorem Ascent.trail_eq (h : t.Ascent id chain) (hlen : chain.length ≤ steps)
    (hv : ∀ x ∈ chain, x ∉ visited) : t.trail steps visited (some id) = chain := by
  induction h generalizing steps visited with
  | root hp =>
    obtain ⟨steps, rfl⟩ := Nat.exists_eq_succ_of_ne_zero (Nat.ne_zero_of_lt hlen)
    rw [trail_of_notMem (hv _ List.mem_cons_self), hp]
    exact congrArg _ trail_none
  | up hp above ih =>
    obtain ⟨steps, rfl⟩ := Nat.exists_eq_succ_of_ne_zero (Nat.ne_zero_of_lt hlen)
    rw [trail_of_notMem (hv _ List.mem_cons_self), hp]
    exact congrArg _ (ih (Nat.le_of_succ_le_succ hlen) (above.notMem_visited hp hv))

/-! ### Linked tables -/

/-- Tables whose parents are entries, in circles or not. The types of entries and columns are known,
and folders have their markers. -/
structure Linked (t : Tables) : Prop where
  entryType : ∀ e ∈ t.entries, ∃ type : EntryType, e.type = type.name
  columnType : ∀ c ∈ t.columns, ∃ type : ColumnType, c.type = type.name
  mem_folders : ∀ id, t.IsEntry id .folder → id ∈ t.folders
  parent : ∀ e ∈ t.entries, ∀ p, e.parent = some p → (t.entry? p).isSome = true

namespace Linked

variable (hl : t.Linked)
include hl

theorem isSome_of_isChildOf (h : t.IsChildOf id p) : (t.entry? p).isSome = true := by
  obtain ⟨e, he, hp⟩ := parentOf?_eq_some.mp h
  exact hl.parent e (entry?_spec he).1 p hp

/-- Only entries are met. -/
theorem isSome_of_mem_trail (hnext : ∀ p, next = some p → (t.entry? p).isSome = true)
    (h : x ∈ t.trail steps visited next) : (t.entry? x).isSome = true := by
  induction steps generalizing visited next with
  | zero => cases h
  | succ steps ih =>
    rcases trail_cases (t := t) steps visited next with ⟨heq, -⟩ | ⟨y, rfl, -, heq⟩
    · rw [heq] at h
      cases h
    · rw [heq] at h
      rcases List.mem_cons.mp h with rfl | h
      · exact hnext x rfl
      · exact ih (fun p hp => hl.isSome_of_isChildOf (join_parentOf?.mp hp)) h

/-- There are no more steps than entries. -/
theorem length_trail_le (hnext : ∀ p, next = some p → (t.entry? p).isSome = true) :
    (t.trail steps visited next).length ≤ t.entries.length := by
  have hsub : t.trail steps visited next ⊆ t.entries.map EntryRow.id := fun x hx => by
    obtain ⟨e, he⟩ := Option.isSome_iff_exists.mp (hl.isSome_of_mem_trail hnext hx)
    obtain ⟨hm, rfl⟩ := entry?_spec he
    exact List.mem_map_of_mem hm
  have hle := (List.subperm_of_subset (nodup_trail t _ _ _) hsub).length_le
  rwa [List.length_map] at hle

/-- **A trail ends by itself**: it is the same for all numbers of steps that are greater than the
number of entries. -/
theorem trail_eq (hnext : ∀ p, next = some p → (t.entry? p).isSome = true)
    (h : t.entries.length < steps) :
    t.trail steps visited next = t.trail (Request.identifierCount + 1) visited next := by
  have hlt : (t.trail steps visited next).length < steps :=
    Nat.lt_of_le_of_lt (hl.length_trail_le hnext) h
  rcases Nat.le_total steps (Request.identifierCount + 1) with hle | hle
  · exact (trail_of_le hlt hle).symm
  · exact trail_of_le (length_trail_lt t visited next) hle

/-- In as many steps as a trail has, all is met that the trail meets. -/
theorem mem_lineage_of_mem_trail (hstart : (t.entry? start).isSome = true) {n : Nat}
    (hlen : (t.trail steps visited (some start)).length ≤ n)
    (h : x ∈ t.trail steps visited (some start)) : x ∈ t.lineage n start := by
  induction steps generalizing visited start n with
  | zero => cases h
  | succ steps ih =>
    by_cases hmet : start ∈ visited
    · rw [trail_of_mem hmet] at h
      cases h
    · rw [trail_of_notMem hmet] at hlen h
      obtain ⟨n, rfl⟩ := Nat.exists_eq_succ_of_ne_zero (Nat.ne_zero_of_lt hlen)
      obtain ⟨e, he⟩ := Option.isSome_iff_exists.mp hstart
      have hparent : t.parentOf? start = some e.parent := parentOf?_eq_some.mpr ⟨e, he, rfl⟩
      rw [hparent] at hlen h
      rw [lineage, hparent]
      cases hp : e.parent with
      | none =>
        rw [hp, Option.join_some, trail_none] at h
        exact h
      | some p =>
        rw [hp] at hparent hlen h
        rcases List.mem_cons.mp h with rfl | h
        · exact List.mem_cons_self
        · exact List.mem_cons_of_mem _
            (ih (hl.isSome_of_isChildOf hparent) (Nat.le_of_succ_le_succ hlen) h)

/-- The ancestry of an entry is what it is at or below, whether or not it leads to a root. -/
theorem mem_ancestry (hstart : (t.entry? start).isSome = true) :
    x ∈ t.ancestry start ↔ t.AtOrBelow start x := by
  refine ⟨atOrBelow_of_mem_lineage, fun h => ?_⟩
  have hnext : ∀ p, some start = some p → (t.entry? p).isSome = true := fun p hp =>
    Option.some_inj.mp hp ▸ hstart
  exact hl.mem_lineage_of_mem_trail hstart (hl.length_trail_le hnext)
    ((mem_trail_iff (length_trail_lt t [] (some start))).mpr h)

end Linked

theorem Sound.linked (hs : t.Sound) : t.Linked where
  entryType := hs.entryType
  columnType := hs.columnType
  mem_folders := fun id => (hs.mem_folders id).mpr
  parent := fun e he p hp => by
    obtain ⟨folder, hfolder, -⟩ := hs.parent e he p hp
    exact Option.isSome_iff_exists.mpr ⟨folder, hfolder⟩

end TableStore.Tables
