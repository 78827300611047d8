import Mathlib.Data.List.InsertIdx
import TableStore.Proofs.Placement

/-!
# The algebra of placing and reordering

`ColumnOrder.place` and `ColumnOrder.reorder` compose like assignments: of two placements of one
column the last one counts (`place_place`), and two reorderings are one that names the later columns
first (`reorder_reorder`). Placing a column where it stands leaves the order as it is
(`place_idxOf`), and asking for any order of the members gives this order (`reorder_of_perm`).
-/

namespace TableStore.ColumnOrder

variable {order requested later wanted : ColumnOrder} {c : Uuid} {first second : Option Nat}

/-! ### Placing -/

theorem without_insertIdx (others : ColumnOrder) (position : Nat) :
    without (others.insertIdx position c) c = without others c := by
  induction others generalizing position with
  | nil => cases position <;> simp [without]
  | cons d others ih =>
    cases position with
    | zero => simp [without]
    | succ position =>
      rw [List.insertIdx_succ_cons]
      by_cases hd : d = c
      · simpa [without, hd] using ih position
      · simpa [without, hd] using ih position

theorem without_without : without (without order c) c = without order c :=
  without_of_notMem notMem_without

/-- Placing a column moves none of the others. -/
theorem without_place : without (place order c first) c = without order c := by
  rw [place, without_insertIdx, without_without]

/-- The last placement wins. -/
theorem place_place : place (place order c first) c second = place order c second := by
  simp only [place.eq_1 (place order c first), place.eq_1 order c second, without_place]

theorem idxOf_insertIdx {others : ColumnOrder} (hc : c ∉ others) {position : Nat}
    (hp : position ≤ others.length) : (others.insertIdx position c).idxOf c = position := by
  induction others generalizing position with
  | nil => obtain rfl : position = 0 := Nat.le_zero.mp hp; simp
  | cons d others ih =>
    cases position with
    | zero => simp
    | succ position =>
      have hd : d ≠ c := fun h => hc (h ▸ List.mem_cons_self)
      rw [List.insertIdx_succ_cons, List.idxOf_cons_ne _ hd,
        ih (fun h => hc (List.mem_cons_of_mem d h)) (Nat.le_of_succ_le_succ hp)]

/-- A column stands where it was placed. -/
theorem idxOf_place :
    (place order c first).idxOf c = clampPosition first (without order c).length :=
  idxOf_insertIdx notMem_without (clampPosition_le first _)

theorem mem_place : c ∈ place order c first :=
  place_perm_cons.mem_iff.mpr List.mem_cons_self

/-- Placing a column where it stands changes nothing. -/
theorem place_idxOf (hn : order.Nodup) (hc : c ∈ order) :
    place order c (some (order.idxOf c)) = order := by
  have hlt : order.idxOf c < order.length := List.idxOf_lt_length_of_mem hc
  have hclamp : clampPosition (some (order.idxOf c)) (order.length - 1) = order.idxOf c :=
    Nat.min_eq_left (by omega)
  calc place order c (some (order.idxOf c))
      = (order.eraseIdx (order.idxOf c)).insertIdx (order.idxOf c) order[order.idxOf c] := by
        rw [place_of_mem hn hc, hclamp, List.erase_eq_eraseIdx_of_idxOf rfl, List.getElem_idxOf hlt]
    _ = order := List.insertIdx_eraseIdx_getElem hlt

/-! ### Reordering -/

theorem mem_reorder : c ∈ reorder order requested ↔ c ∈ order := by
  rw [reorder_eq, List.mem_append, List.mem_eraseDups, List.mem_filter, List.mem_filter]
  by_cases hr : c ∈ requested <;> simp [hr]

/-- Two reorderings are one, which names the columns of the second one first. -/
theorem reorder_reorder :
    reorder (reorder order requested) later = reorder order (later ++ requested) := by
  have hmember : (fun c => (reorder order requested).contains c) = fun c => order.contains c :=
    funext fun d => by
      rw [Bool.eq_iff_iff, List.contains_iff_mem, List.contains_iff_mem, mem_reorder]
  -- what the first reordering named comes next, unless the second one named it too
  have hnamed : ((requested.filter fun c => order.contains c).removeAll
        (later.filter fun c => order.contains c)).eraseDups =
      (requested.filter fun c => order.contains c).eraseDups.filter
        fun c => !later.contains c := by
    rw [List.removeAll, ← firstOccurrences_eq_eraseDups, firstOccurrences_filter,
      firstOccurrences_eq_eraseDups]
    refine List.filter_congr fun d hd => ?_
    have hd : d ∈ order := by simpa using (List.mem_filter.mp (List.mem_eraseDups.mp hd)).2
    simp [hd]
  have hrest : (order.filter fun c => !requested.contains c).filter (fun c => !later.contains c) =
      order.filter fun c => !(later ++ requested).contains c := by
    rw [List.filter_filter]
    exact List.filter_congr fun d _ => by simp
  rw [@reorder_eq (reorder order requested) later, hmember, reorder_eq, List.filter_append, hrest,
    @reorder_eq order (later ++ requested), List.filter_append, List.eraseDups_append, hnamed,
    List.append_assoc]

/-- Naming again what is named already changes nothing. -/
theorem reorder_append_of_subset (hs : requested ⊆ later) :
    reorder order (later ++ requested) = reorder order later := by
  have hnone : (requested.filter fun c => order.contains c).removeAll
      (later.filter fun c => order.contains c) = [] := by
    refine List.filter_eq_nil_iff.mpr fun d hd => ?_
    have hd := List.mem_filter.mp hd
    simpa using ⟨hs hd.1, by simpa using hd.2⟩
  have hrest : (fun c => !(later ++ requested).contains c) = fun c => !later.contains c :=
    funext fun d => by
      have himp : d ∈ requested → d ∈ later := fun h => hs h
      by_cases hl : d ∈ later <;> simp_all
  rw [reorder_eq, List.filter_append, List.eraseDups_append, hnone, hrest, reorder_eq]
  simp

theorem firstOccurrences_of_nodup {l : List Uuid} (hl : l.Nodup) : firstOccurrences l = l := by
  induction l with
  | nil => rfl
  | cons d l ih =>
    obtain ⟨hd, hl⟩ := List.nodup_cons.mp hl
    rw [firstOccurrences, ih hl]
    exact congrArg (d :: ·) (without_of_notMem hd)

/-- Every order of the members is reached, by asking for it. -/
theorem reorder_of_perm (hn : order.Nodup) (hp : wanted.Perm order) :
    reorder order wanted = wanted := by
  have hnamed : wanted.filter (fun c => order.contains c) = wanted :=
    List.filter_eq_self.mpr fun d hd => by simpa using hp.mem_iff.mp hd
  have honce : wanted.eraseDups = wanted := by
    rw [← firstOccurrences_eq_eraseDups, firstOccurrences_of_nodup (hp.nodup_iff.mpr hn)]
  have hrest : order.filter (fun c => !wanted.contains c) = [] :=
    List.filter_eq_nil_iff.mpr fun d hd => by simpa using hp.mem_iff.mpr hd
  rw [reorder_eq, hnamed, honce, hrest, List.append_nil]

/-! ### The laws -/

/-- **The algebra of placing and reordering**, over an order that lists nothing twice and requests
that may name columns repeatedly and columns of other tables. Reordering gives a permutation and
reaches each of them; it is idempotent, in what is asked for and in what is answered; and one
reordering after another is a single one. Of two placements of a column the last one wins, placing
it where it stands changes nothing, and placing it moves none of the others, among which it stands
at the wished position or, past their end and without a wish, last. -/
theorem placing_and_reordering_laws (hn : order.Nodup) (c : Uuid) (requested later : List Uuid)
    (first second : Option Nat) :
    (reorder order requested).Perm order ∧
      reorder (reorder order requested) requested = reorder order requested ∧
      reorder order (reorder order requested) = reorder order requested ∧
      (∀ wanted : List Uuid, wanted.Perm order → reorder order wanted = wanted) ∧
      reorder (reorder order requested) later = reorder order (later ++ requested) ∧
      place (place order c first) c second = place order c second ∧
      (c ∈ order → place order c (some (order.idxOf c)) = order) ∧
      without (place order c first) c = without order c ∧
      c ∈ place order c first ∧
      (place order c first).idxOf c =
        min (first.getD (without order c).length) (without order c).length := by
  have hsecond : reorder (reorder order requested) requested = reorder order requested := by
    rw [reorder_reorder, reorder_append_of_subset (List.Subset.refl requested)]
  have hat : (place order c first).idxOf c =
      min (first.getD (without order c).length) (without order c).length := by
    rw [idxOf_place]
    cases first with
    | none => exact (Nat.min_self _).symm
    | some position => rfl
  exact ⟨reorder_perm hn, hsecond, reorder_of_perm hn (reorder_perm hn),
    fun wanted hp => reorder_of_perm hn hp, reorder_reorder, place_place, place_idxOf hn,
    without_place, mem_place, hat⟩

/-- Four columns, of which the third one and the first one are asked for, the third one twice and
with a column of another table between them; then the last one is placed second. -/
theorem placing_and_reordering_laws_four :
    let order : ColumnOrder := [⟨1⟩, ⟨2⟩, ⟨3⟩, ⟨4⟩]
    let requested : List Uuid := [⟨3⟩, ⟨9⟩, ⟨3⟩, ⟨1⟩]
    order.Nodup ∧ reorder order requested = [⟨3⟩, ⟨1⟩, ⟨2⟩, ⟨4⟩] ∧
      (reorder order requested).Perm order ∧
      reorder (reorder order requested) [⟨4⟩, ⟨1⟩] = reorder order ([⟨4⟩, ⟨1⟩] ++ requested) ∧
      place order ⟨4⟩ (some 1) = [⟨1⟩, ⟨4⟩, ⟨2⟩, ⟨3⟩] ∧
      place (place order ⟨4⟩ (some 1)) ⟨4⟩ (some 7) = order := by
  intro order requested
  have hn : order.Nodup := by decide
  obtain ⟨hperm, -, -, -, hthen, hlast, -⟩ :=
    placing_and_reordering_laws hn ⟨4⟩ requested [⟨4⟩, ⟨1⟩] (some 1) (some 7)
  exact ⟨hn, by decide, hperm, hthen, by decide, hlast.trans (by decide)⟩

end TableStore.ColumnOrder
