import Mathlib.Data.List.Nodup
import TableStore.ColumnOrder

/-!
# Placing and reordering

What `ColumnOrder.place` and `ColumnOrder.reorder` do to an order that lists nothing twice: placing
a member or reordering gives a permutation (`place_perm_of_mem`, `reorder_perm`), placing something
new adds it, and both are the plain list operations they are described as (`place_of_notMem`,
`place_of_mem`, `reorder_eq`).
-/

namespace TableStore.ColumnOrder

variable {order requested : ColumnOrder} {c : Uuid} {desired : Option Nat}

/-! ### Placing -/

theorem clampPosition_le (desired : Option Nat) (count : Nat) :
    clampPosition desired count ≤ count := by
  cases desired with
  | none => exact Nat.le_refl count
  | some position => exact Nat.min_le_right position count

theorem without_of_notMem (hc : c ∉ order) : without order c = order :=
  List.filter_eq_self.mpr fun d hd => by simpa using fun h : d = c => hc (h ▸ hd)

theorem without_eq_erase (hn : order.Nodup) : without order c = order.erase c :=
  (hn.erase_eq_filter c).symm

theorem notMem_without : c ∉ without order c := by
  simp [without]

theorem nodup_without (hn : order.Nodup) : (without order c).Nodup :=
  hn.filter _

/-- Placing is adding to the others. -/
theorem place_perm_cons : (place order c desired).Perm (c :: without order c) :=
  List.perm_insertIdx c _ (clampPosition_le desired _)

/-- Placing something new adds it. -/
theorem place_perm_append (hc : c ∉ order) : (place order c desired).Perm (order ++ [c]) := by
  refine place_perm_cons.trans ?_
  rw [without_of_notMem hc]
  exact (List.perm_append_singleton c order).symm

/-- Placing a member keeps the members. -/
theorem place_perm_of_mem (hn : order.Nodup) (hc : c ∈ order) :
    (place order c desired).Perm order := by
  refine place_perm_cons.trans ?_
  rw [without_eq_erase hn]
  exact (List.perm_cons_erase hc).symm

theorem nodup_place (hn : order.Nodup) : (place order c desired).Nodup :=
  place_perm_cons.nodup_iff.mpr (List.nodup_cons.mpr ⟨notMem_without, nodup_without hn⟩)

/-- Something new lands where it was wished, or at the end. -/
theorem place_of_notMem (hc : c ∉ order) :
    place order c desired = order.insertIdx (clampPosition desired order.length) c := by
  rw [place, without_of_notMem hc]

/-- A member is taken out and put back where it was wished, or at the end of the others. -/
theorem place_of_mem (hn : order.Nodup) (hc : c ∈ order) :
    place order c desired =
      (order.erase c).insertIdx (clampPosition desired (order.length - 1)) c := by
  rw [place, without_eq_erase hn, List.length_erase_of_mem hc]

/-- Something new that comes last was added at the end. -/
theorem place_eq_append (hc : c ∉ order) (hl : (place order c desired).getLast? = some c) :
    place order c desired = order ++ [c] := by
  rw [place_of_notMem hc] at hl ⊢
  have hle : clampPosition desired order.length ≤ order.length := clampPosition_le desired _
  rcases Nat.eq_or_lt_of_le hle with heq | hlt
  · rw [heq, List.insertIdx_length_self]
  · -- otherwise the last of the order would still be the last
    rw [List.getLast?_eq_getElem?, List.length_insertIdx_of_le_length hle,
      List.getElem?_insertIdx_of_gt (by omega)] at hl
    exact absurd (List.mem_of_getElem? hl) hc

/-! ### Reordering -/

theorem mem_firstOccurrences {l : List Uuid} : c ∈ firstOccurrences l ↔ c ∈ l := by
  induction l with
  | nil => simp [firstOccurrences]
  | cons d l ih =>
    by_cases hd : c = d
    · simp [firstOccurrences, hd]
    · simp [firstOccurrences, ih, hd]

theorem nodup_firstOccurrences (l : List Uuid) : (firstOccurrences l).Nodup := by
  induction l with
  | nil => exact List.nodup_nil
  | cons d l ih => exact List.nodup_cons.mpr ⟨by simp, ih.filter _⟩

theorem firstOccurrences_filter (p : Uuid → Bool) (l : List Uuid) :
    firstOccurrences (l.filter p) = (firstOccurrences l).filter p := by
  induction l with
  | nil => rfl
  | cons d l ih =>
    by_cases hp : p d = true
    · rw [List.filter_cons_of_pos hp, firstOccurrences, firstOccurrences, ih,
        List.filter_cons_of_pos hp, List.filter_filter, List.filter_filter]
      simp only [Bool.and_comm]
    · rw [List.filter_cons_of_neg hp, firstOccurrences, ih, List.filter_cons_of_neg hp,
        List.filter_filter]
      refine List.filter_congr fun x _ => ?_
      by_cases hx : x = d
      · simp [hx, hp]
      · simp [hx]

/-- Dropping what came before is dropping repetitions. -/
theorem firstOccurrences_eq_eraseDups : ∀ l : List Uuid, firstOccurrences l = l.eraseDups
  | [] => rfl
  | d :: l => by
    have hlt : (l.filter fun x => !x == d).length < l.length + 1 :=
      Nat.lt_succ_of_le (List.length_filter_le _ l)
    rw [firstOccurrences, List.eraseDups_cons, ← firstOccurrences_eq_eraseDups,
      firstOccurrences_filter]
    rfl
termination_by l => l.length

theorem mem_named {x : Uuid} :
    x ∈ firstOccurrences (requested.filter fun c => order.contains c) ↔
      x ∈ requested ∧ x ∈ order := by
  simp [mem_firstOccurrences]

/-- The named members come first, each once, and the others keep their places. -/
theorem reorder_eq :
    reorder order requested =
      (requested.filter fun c => order.contains c).eraseDups ++
        order.filter fun c => !requested.contains c := by
  have hrest : ∀ x ∈ order,
      (!(firstOccurrences (requested.filter fun c => order.contains c)).contains x) =
        !requested.contains x := fun x hx => by
    have hiff : x ∈ firstOccurrences (requested.filter fun c => order.contains c) ↔
        x ∈ requested ∧ x ∈ order := mem_named
    by_cases hr : x ∈ requested <;> simp_all
  rw [reorder, List.filter_congr hrest, firstOccurrences_eq_eraseDups]

/-- Reordering keeps the members. -/
theorem reorder_perm (hn : order.Nodup) : (reorder order requested).Perm order := by
  have hnamed : (firstOccurrences (requested.filter fun c => order.contains c)).Perm
      (order.filter fun c =>
        (firstOccurrences (requested.filter fun c => order.contains c)).contains c) := by
    refine (List.perm_ext_iff_of_nodup (nodup_firstOccurrences _) (hn.filter _)).mpr fun x => ?_
    rw [List.mem_filter, List.contains_iff_mem]
    exact ⟨fun hx => ⟨(mem_named.mp hx).2, hx⟩, fun hx => hx.2⟩
  exact (hnamed.append_right _).trans (List.filter_append_perm _ order)

theorem nodup_reorder (hn : order.Nodup) : (reorder order requested).Nodup :=
  (reorder_perm hn).nodup_iff.mpr hn

end TableStore.ColumnOrder
