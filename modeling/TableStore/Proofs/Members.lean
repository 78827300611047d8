import Mathlib.Data.List.Induction
import Mathlib.Data.String.Basic
import TableStore.Json.Members

/-!
# Members and their keys

The keys of members that were put in one by one ascend (`Members.Ascending`), so that each stands
once, and such members are known by what they hold for each key (`Members.Ascending.ext`). Of pairs
that are put in one after the other the last one with a key counts (`Members.get?_ofList`).
-/

namespace TableStore.Members

variable {α : Type} {members : Members α} {key other : String} {value : α}

/-- A key is there exactly if there is a value under it. -/
theorem mem_keys_iff : key ∈ members.keys ↔ ∃ value, get? key members = some value := by
  induction members with
  | nil => simp [keys, get?]
  | cons m rest ih =>
    obtain ⟨k, v⟩ := m
    rw [keys, List.map_cons, List.mem_cons, get?]
    by_cases hk : key = k
    · simp [hk]
    · rw [if_neg hk, ← ih, keys]
      simp [hk]

theorem get?_eq_lookup (key : String) (members : Members α) :
    get? key members = members.lookup key := by
  induction members with
  | nil => rfl
  | cons m rest ih =>
    obtain ⟨k, v⟩ := m
    rw [get?, List.lookup_cons, ih]
    by_cases h : key = k
    · simp [h]
    · simp [h, beq_false_of_ne h]

theorem mem_keys_insert : other ∈ (insert key value members).keys ↔
    other = key ∨ other ∈ members.keys := by
  rw [mem_keys_iff, mem_keys_iff, get?_insert]
  by_cases h : other = key <;> simp [h]

theorem mem_keys_erase : other ∈ (erase key members).keys ↔ other ≠ key ∧ other ∈ members.keys := by
  rw [mem_keys_iff, mem_keys_iff, get?_erase]
  by_cases h : other = key <;> simp [h]

/-! ### Ascending keys -/

/-- Each key is less than those after it. -/
def Ascending (members : Members α) : Prop :=
  members.keys.Pairwise (· < ·)

theorem Ascending.nil : Ascending ([] : Members α) :=
  List.Pairwise.nil

theorem ascending_cons : Ascending ((key, value) :: members) ↔
    (∀ other ∈ members.keys, key < other) ∧ Ascending members :=
  List.pairwise_cons

theorem Ascending.insert (h : Ascending members) : Ascending (insert key value members) := by
  induction members with
  | nil => exact List.pairwise_singleton _ _
  | cons m rest ih =>
    obtain ⟨k, v⟩ := m
    obtain ⟨hk, hrest⟩ := ascending_cons.mp h
    rw [Members.insert]
    by_cases heq : key = k
    · rw [if_pos heq]
      exact ascending_cons.mpr ⟨heq ▸ hk, hrest⟩
    · rw [if_neg heq]
      by_cases hlt : key < k
      · rw [if_pos hlt]
        refine ascending_cons.mpr ⟨fun other hother => ?_, h⟩
        rcases List.mem_cons.mp hother with rfl | hmem
        · exact hlt
        · exact hlt.trans (hk other hmem)
      · rw [if_neg hlt]
        have hgt : k < key := lt_of_le_of_ne (not_lt.mp hlt) (Ne.symm heq)
        refine ascending_cons.mpr ⟨fun other hother => ?_, ih hrest⟩
        rcases mem_keys_insert.mp hother with rfl | hmem
        · exact hgt
        · exact hk other hmem

theorem Ascending.erase (h : Ascending members) : Ascending (erase key members) := by
  induction members with
  | nil => exact h
  | cons m rest ih =>
    obtain ⟨k, v⟩ := m
    obtain ⟨hk, hrest⟩ := ascending_cons.mp h
    rw [Members.erase]
    by_cases heq : key = k
    · rw [if_pos heq]
      exact ih hrest
    · rw [if_neg heq]
      exact ascending_cons.mpr ⟨fun other hother => hk other (mem_keys_erase.mp hother).2, ih hrest⟩

theorem mem_of_mem_insert {m : String × α} (h : m ∈ insert key value members) :
    m = (key, value) ∨ m ∈ members := by
  induction members with
  | nil => exact .inl (List.mem_singleton.mp h)
  | cons first rest ih =>
    obtain ⟨k, v⟩ := first
    rw [Members.insert] at h
    split at h
    · exact (List.mem_cons.mp h).imp_right (List.mem_cons_of_mem _)
    · split at h
      · exact List.mem_cons.mp h
      · rcases List.mem_cons.mp h with rfl | hrest
        · exact .inr List.mem_cons_self
        · exact (ih hrest).imp_right (List.mem_cons_of_mem _)

theorem mem_of_mem_erase {m : String × α} (h : m ∈ erase key members) : m ∈ members := by
  induction members with
  | nil => exact h
  | cons first rest ih =>
    obtain ⟨k, v⟩ := first
    rw [Members.erase] at h
    split at h
    · exact List.mem_cons_of_mem _ (ih h)
    · rcases List.mem_cons.mp h with rfl | hrest
      · exact List.mem_cons_self
      · exact List.mem_cons_of_mem _ (ih hrest)

/-- With ascending keys every member is found. -/
theorem Ascending.mem_iff (h : Ascending members) :
    (key, value) ∈ members ↔ get? key members = some value := by
  induction members with
  | nil => simp [get?]
  | cons m rest ih =>
    obtain ⟨k, v⟩ := m
    obtain ⟨hk, hrest⟩ := ascending_cons.mp h
    rw [List.mem_cons, get?]
    by_cases heq : key = k
    · have hnot : (key, value) ∉ rest := fun hmem =>
        (hk key (List.mem_map_of_mem (f := Prod.fst) hmem)).ne heq.symm
      simp [heq, heq ▸ hnot, eq_comm]
    · rw [if_neg heq, ← ih hrest]
      simp [heq]

/-- **Members with ascending keys are known by what they hold.** -/
theorem Ascending.ext {members' : Members α} (h : Ascending members) (h' : Ascending members')
    (hget : ∀ key, get? key members = get? key members') : members = members' := by
  have hmem : ∀ m, m ∈ members ↔ m ∈ members' := by
    intro m
    obtain ⟨k, v⟩ := m
    rw [h.mem_iff, h'.mem_iff, hget]
  -- both lists are sorted by key, and a list of given members can be sorted in one way only
  have hlt : members.Pairwise fun a b => a.1 < b.1 := List.pairwise_map.mp h
  have hlt' : members'.Pairwise fun a b => a.1 < b.1 := List.pairwise_map.mp h'
  have hnodup : members.Nodup := hlt.imp fun hab heq => hab.ne (congrArg Prod.fst heq)
  have hnodup' : members'.Nodup := hlt'.imp fun hab heq => hab.ne (congrArg Prod.fst heq)
  have hperm : members.Perm members' := (List.perm_ext_iff_of_nodup hnodup hnodup').mpr hmem
  exact hperm.eq_of_pairwise (fun a b _ _ hab hba => absurd hba hab.asymm) hlt hlt'

/-! ### Members made of pairs -/

theorem get?_foldl_insert (pairs : List (String × α)) (key : String) (members : Members α) :
    get? key (pairs.foldl (fun sofar m => insert m.1 m.2 sofar) members) =
      (pairs.reverse.lookup key).or (get? key members) := by
  induction pairs generalizing members with
  | nil => rfl
  | cons pair rest ih =>
    obtain ⟨k, v⟩ := pair
    rw [List.foldl_cons, ih, get?_insert, List.reverse_cons, List.lookup_append, Option.or_assoc]
    by_cases h : key = k
    · simp [h]
    · simp [List.lookup_cons, h, beq_false_of_ne h]

/-- Of the pairs with one key the last one counts. -/
theorem get?_ofList (pairs : List (String × α)) (key : String) :
    get? key (ofList pairs) = pairs.reverse.lookup key := by
  rw [ofList, get?_foldl_insert, get?, Option.or_none]

/-- Of pairs with different keys each is found by its own. -/
theorem get?_ofList_of_nodup {pairs : List (String × α)} (key : String)
    (h : (pairs.map Prod.fst).Nodup) : get? key (ofList pairs) = pairs.lookup key := by
  rw [get?_ofList]
  induction pairs with
  | nil => rfl
  | cons pair rest ih =>
    obtain ⟨k, v⟩ := pair
    obtain ⟨hk, hrest⟩ := List.nodup_cons.mp h
    rw [List.reverse_cons, List.lookup_append, ih hrest, List.lookup_cons]
    by_cases hkey : key = k
    · subst hkey
      have hnone : rest.lookup key = none := List.lookup_eq_none_iff.mpr fun p hp =>
        bne_iff_ne.mpr fun heq => hk (List.mem_map.mpr ⟨p, hp, heq.symm⟩)
      simp [hnone]
    · have hne : (key == k) = false := beq_false_of_ne hkey
      simp [List.lookup_cons, hne]

/-- What holds of no members and is kept when a pair is put in holds of members made of pairs. -/
theorem ofList_induction {motive : List (String × α) → Members α → Prop} (nil : motive [] [])
    (concat : ∀ pairs members (pair : String × α), motive pairs members →
      motive (pairs ++ [pair]) (insert pair.1 pair.2 members))
    (pairs : List (String × α)) : motive pairs (ofList pairs) := by
  induction pairs using List.reverseRecOn with
  | nil => exact nil
  | append_singleton front pair ih =>
    rw [ofList, List.foldl_append]
    exact concat front _ pair ih

theorem ascending_ofList (pairs : List (String × α)) : Ascending (ofList pairs) :=
  ofList_induction (motive := fun _ members => Ascending members) Ascending.nil
    (fun _ _ _ h => h.insert) pairs

theorem mem_of_mem_ofList {pairs : List (String × α)} {m : String × α} :
    m ∈ ofList pairs → m ∈ pairs := by
  refine ofList_induction (motive := fun pairs members => m ∈ members → m ∈ pairs) id ?_ pairs
  intro front members pair h hmem
  rcases mem_of_mem_insert hmem with rfl | hmem
  · exact List.mem_append_right _ (List.mem_singleton_self _)
  · exact List.mem_append_left _ (h hmem)

/-- Pairs in the order of their keys are members already. -/
theorem Ascending.ofList_eq (h : Ascending members) : ofList members = members := by
  have hnodup : (members.map Prod.fst).Nodup := h.imp fun hlt => hlt.ne
  refine (ascending_ofList members).ext h fun key => ?_
  rw [get?_ofList_of_nodup key hnodup, get?_eq_lookup]

/-- Members made of pairs can be put in instead of the pairs. -/
theorem lookup_reverse_ofList (pairs : List (String × α)) (key : String) :
    (ofList pairs).reverse.lookup key = pairs.reverse.lookup key := by
  -- each key stands once, so that it doesn't matter from which end it is looked for
  have hnodup : ((ofList pairs).map Prod.fst).Nodup :=
    (ascending_ofList pairs).imp fun hlt => hlt.ne
  rw [← get?_ofList, get?_ofList_of_nodup key hnodup, ← get?_eq_lookup, get?_ofList]

theorem mem_keys_ofList {pairs : List (String × α)} :
    key ∈ (ofList pairs).keys ↔ key ∈ pairs.map Prod.fst := by
  refine ofList_induction (motive := fun pairs members =>
    key ∈ members.keys ↔ key ∈ pairs.map Prod.fst) Iff.rfl ?_ pairs
  intro front members pair h
  rw [mem_keys_insert, h, List.map_append, List.mem_append, List.map_singleton,
    List.mem_singleton, or_comm]

end TableStore.Members
