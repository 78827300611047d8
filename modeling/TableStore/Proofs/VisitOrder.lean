import TableStore.Proofs.Members
import TableStore.Proofs.QueryDocuments
import TableStore.Proofs.Visits

/-!
# The order of visits

In whatever role a part is read, the decoder goes through its own parts in one order: items of an
array from the first to the last, fields of an object as `Query.fieldOrder` says (`Query.Before`).
It goes only to parts that are there, and it leaves none out, unless it complains first or looks no
further (`Query.Role.tours`).
-/

namespace TableStore.Query

open Json (Address Step)

variable {limits : Limits} {role : Role} {j : Json}

/-! ### Parts -/

/-- The parts that are gone to. -/
def parts (visits : List Visit) : List (Step × Role) :=
  visits.filterMap fun
    | .complain _ => none
    | .part s r => some (s, r)

theorem mem_parts {visits : List Visit} {s : Step} {r : Role} :
    (s, r) ∈ parts visits ↔ .part s r ∈ visits := by
  rw [parts, List.mem_filterMap]
  constructor
  · rintro ⟨v, hv, h⟩
    cases v with
    | complain c => cases h
    | part t r' =>
      obtain ⟨rfl, rfl⟩ := Prod.mk.inj (Option.some.inj h)
      exact hv
  · exact fun h => ⟨_, h, rfl⟩

/-! ### The order of parts -/

/-- The fields of all objects, in one order. Those of one object are visited in this order. -/
def fieldOrder : List String :=
  ["columns", "values", "where", "order_by", "offset", "limit", "expr", "direction", "name", "args"]

/-- The order in which the decoder goes through the parts of an object or an array. -/
def Before : Step → Step → Prop
  | .index i, .index k => i < k
  | .key a, .key b => fieldOrder.idxOf a < fieldOrder.idxOf b
  | _, _ => False

instance (s t : Step) : Decidable (Before s t) :=
  match s, t with
  | .index i, .index k => inferInstanceAs (Decidable (i < k))
  | .key a, .key b => inferInstanceAs (Decidable (fieldOrder.idxOf a < fieldOrder.idxOf b))
  | .index _, .key _ => .isFalse id
  | .key _, .index _ => .isFalse id

theorem Before.asymm {s t : Step} (h : Before s t) : ¬ Before t s := by
  cases s with
  | key a =>
    cases t with
    | key b => exact Nat.lt_asymm h
    | index k => exact h.elim
  | index i =>
    cases t with
    | key b => exact h.elim
    | index k => exact Nat.lt_asymm h

theorem Before.ne {s t : Step} (h : Before s t) : s ≠ t := by
  rintro rfl
  exact h.asymm h

/-- The visits go to parts of `j` in their order, and to all of them unless they begin with a
complaint. -/
structure Tours (j : Json) (visits : List Visit) : Prop where
  exists_part : ∀ s r, .part s r ∈ visits → ∃ part, j.step? s = some part
  ordered : (parts visits).Pairwise fun x y => Before x.1 y.1
  thorough : ∀ s r, visits.head? = some (.part s r) → ∀ t part, j.step? t = some part →
    ∃ r, .part t r ∈ visits

theorem Tours.of_parts_eq_nil {visits : List Visit} (h : parts visits = []) : Tours j visits := by
  have hnot (s : Step) (r : Role) : .part s r ∉ visits := fun hmem => by
    have hparts := mem_parts.mpr hmem
    rw [h] at hparts
    cases hparts
  refine ⟨fun s r hmem => absurd hmem (hnot s r), h ▸ .nil, fun s r hhead => ?_⟩
  exact absurd (List.mem_of_head? hhead) (hnot s r)

theorem Tours.ite {c : Prop} [Decidable c] {visits visits' : List Visit} (h' : Tours j visits')
    (h : parts visits = []) : Tours j (if c then visits else visits') := by
  split
  case isTrue => exact .of_parts_eq_nil h
  case isFalse => exact h'

theorem parts_append (visits visits' : List Visit) :
    parts (visits ++ visits') = parts visits ++ parts visits' :=
  List.filterMap_append

theorem parts_check (passed : Bool) (f : Fault) : parts (check passed f) = [] := by
  cases passed <;> rfl

theorem parts_windowVisits {window : Window} {default max : Nat} :
    parts (windowVisits window default max j) = [] := by
  rw [windowVisits]
  cases if j.isNull then some default else j.natural? with
  | none => rfl
  | some n =>
    dsimp only
    split <;> rfl

/-- A check at the end changes nothing about the parts. -/
theorem Tours.append_check {visits : List Visit} (h : Tours j visits) (passed : Bool) (f : Fault) :
    Tours j (visits ++ check passed f) := by
  have hparts : parts (visits ++ check passed f) = parts visits := by
    rw [parts_append, parts_check, List.append_nil]
  have hmem (s : Step) (r : Role) : .part s r ∈ visits ++ check passed f ↔ .part s r ∈ visits := by
    rw [← mem_parts, hparts, mem_parts]
  refine ⟨fun s r hpart => h.exists_part s r ((hmem s r).mp hpart), hparts ▸ h.ordered, ?_⟩
  intro s r hhead t part ht
  have hvisit := (hmem s r).mp (List.mem_of_head? hhead)
  have hhead' : visits.head? = some (.part s r) := by
    cases visits with
    | nil => cases hvisit
    | cons v rest => exact hhead
  obtain ⟨r', hr'⟩ := h.thorough s r hhead' t part ht
  exact ⟨r', (hmem t r').mpr hr'⟩

theorem tours_payloadVisits {visit : String → Visit}
    (hvisit : ∀ key s r, visit key = .part s r → s = .key key) :
    Tours j (payloadVisits visit j) := by
  cases j with
  | obj members =>
    rcases members with _ | ⟨⟨key, payload⟩, _ | ⟨m, rest⟩⟩
    · exact .of_parts_eq_nil rfl
    · have hstep : (Json.obj [(key, payload)]).step? (.key key) = some payload := if_pos rfl
      show Tours _ [visit key]
      cases hkey : visit key with
      | complain c => exact .of_parts_eq_nil rfl
      | part s r =>
        obtain rfl := hvisit key s r hkey
        refine ⟨fun s' r' hmem => ?_, List.pairwise_singleton _ _, fun s' r' _ t part ht => ?_⟩
        · obtain ⟨rfl, rfl⟩ := Visit.part.inj (List.mem_singleton.mp hmem)
          exact ⟨payload, hstep⟩
        · refine ⟨r, List.mem_singleton.mpr ?_⟩
          cases t with
          | key key' =>
            obtain ⟨rfl, -⟩ := eq_of_get?_singleton ht
            rfl
          | index i => cases ht
    · exact .of_parts_eq_nil rfl
  | _ => exact .of_parts_eq_nil rfl

theorem parts_itemVisits (item : Role) (n : Nat) :
    parts ((List.range n).map fun i => .part (.index i) item) =
      (List.range n).map fun i => (.index i, item) := by
  rw [parts, List.filterMap_map, ← List.filterMap_eq_map]
  rfl

theorem tours_itemVisits (item : Role) : Tours j (itemVisits item j) := by
  cases j with
  | arr items =>
    have hvisits : itemVisits item (.arr items) =
        (List.range items.length).map fun i => .part (.index i) item := rfl
    rw [hvisits]
    refine ⟨fun s r hmem => ?_, ?_, fun s r _ t part ht => ?_⟩
    · obtain ⟨i, hi, heq⟩ := List.mem_map.mp hmem
      obtain ⟨rfl, rfl⟩ := Visit.part.inj heq
      exact ⟨_, List.getElem?_eq_getElem (List.mem_range.mp hi)⟩
    · rw [parts_itemVisits, List.pairwise_map]
      exact List.pairwise_lt_range
    · cases t with
      | key key => cases ht
      | index i =>
        obtain ⟨hi, -⟩ := List.getElem?_eq_some_iff.mp ht
        exact ⟨item, List.mem_map.mpr ⟨i, List.mem_range.mpr hi, rfl⟩⟩
  | _ => exact .of_parts_eq_nil rfl

theorem parts_flatMap_slots {slots : List Slot} (habsent : ∀ s ∈ slots, parts s.absent = [])
    (keys : List String) :
    parts (slots.flatMap (Slot.visits keys)) =
      (slots.filter fun s => s.key ∈ keys).map fun s => (.key s.key, s.role) := by
  induction slots with
  | nil => rfl
  | cons s rest ih =>
    obtain ⟨hs, hrest⟩ := List.forall_mem_cons.mp habsent
    rw [List.flatMap_cons, parts_append, ih hrest, Slot.visits]
    by_cases h : s.key ∈ keys
    · rw [if_pos h, List.filter_cons_of_pos (by simpa using h)]
      rfl
    · rw [if_neg h, hs, List.filter_cons_of_neg (by simpa using h)]
      rfl

theorem parts_unknownField (allowed keys : List String) :
    parts (unknownField allowed keys) = [] := by
  rw [unknownField]
  cases keys.find? fun key => !allowed.contains key <;> rfl

theorem parts_objectVisits {slots : List Slot} (habsent : ∀ s ∈ slots, parts s.absent = [])
    (members : Members Json) :
    parts (objectVisits slots (.obj members)) =
      (slots.filter fun s => s.key ∈ members.keys).map fun s => (.key s.key, s.role) := by
  have hkeys : (Json.obj members).keys? = some members.keys := rfl
  rw [objectVisits, hkeys, parts_append, parts_unknownField, List.nil_append,
    parts_flatMap_slots habsent]

theorem tours_objectVisits {slots : List Slot} (habsent : ∀ s ∈ slots, parts s.absent = [])
    (hslots : (slots.map Slot.key).Pairwise fun a b => Before (.key a) (.key b)) :
    Tours j (objectVisits slots j) := by
  cases j with
  | obj members =>
    have hparts := parts_objectVisits habsent members
    refine ⟨fun s r hmem => ?_, ?_, fun s r hhead t part ht => ?_⟩
    · rw [← mem_parts, hparts, List.mem_map] at hmem
      obtain ⟨slot, hslot, heq⟩ := hmem
      obtain ⟨rfl, rfl⟩ := Prod.mk.inj heq
      exact Members.mem_keys_iff.mp (by simpa using (List.mem_filter.mp hslot).2)
    · rw [hparts, List.pairwise_map]
      exact (List.pairwise_map.mp hslots).filter _
    · cases t with
      | key key =>
        have hkeys : (Json.obj members).keys? = some (Members.keys members) := rfl
        have hkey : key ∈ Members.keys members := Members.mem_keys_iff.mpr ⟨part, ht⟩
        -- a key that no slot has would have been complained of first
        have hallowed : key ∈ slots.map Slot.key := by
          by_contra hnot
          cases hfind : (Members.keys members).find? fun key =>
              !(slots.map Slot.key).contains key with
          | none => exact hnot (by simpa using List.find?_eq_none.mp hfind key hkey)
          | some unknown =>
            simp only [objectVisits, hkeys, unknownField, hfind] at hhead
            cases hhead
        obtain ⟨slot, hslot, rfl⟩ := List.mem_map.mp hallowed
        refine ⟨slot.role, mem_parts.mp ?_⟩
        rw [hparts]
        exact List.mem_map.mpr ⟨slot, List.mem_filter.mpr ⟨hslot, by simpa using hkey⟩, rfl⟩
      | index i => cases ht
  | _ => exact .of_parts_eq_nil rfl

/-- The fields that an object in a role may have, in the order in which they are visited. -/
def Role.fields : Role → List String
  | .insert => ["columns", "values"]
  | .select => ["columns", "where", "order_by", "offset", "limit"]
  | .sort => ["expr", "direction"]
  | .func => ["name", "args"]
  | _ => []

theorem Role.map_key_slots : (role.slots limits).map Slot.key = role.fields := by
  cases role <;> rfl

/-- Nothing is gone to for a field that is absent. -/
theorem Role.parts_absent : ∀ s ∈ role.slots limits, parts s.absent = [] := by
  have hlimit : parts (limitVisits limits .null) = [] := parts_windowVisits
  have hoffset : parts (offsetVisits .null) = [] := parts_windowVisits
  have hmissing (key : String) : parts [.complain (.fault (.missingField key))] = [] := rfl
  have hnone : parts [] = [] := rfl
  cases role <;> simp [slots, Slot.required, Slot.optional, hlimit, hoffset, hmissing, hnone]

theorem Role.tours_slots : Tours j (objectVisits (role.slots limits) j) := by
  refine tours_objectVisits Role.parts_absent ?_
  rw [map_key_slots]
  cases role with
  | unknown key => exact List.Pairwise.nil
  | _ => decide

/-- **The decoder goes through the parts of a part in their order**, and leaves none out. -/
theorem Role.tours (limits : Limits) (role : Role) (j : Json) : Tours j (role.visits limits j) := by
  have hexpr : Tours j (exprVisits j) :=
    tours_payloadVisits fun key s r h => (Visit.part.inj h).1.symm
  cases role with
  | document =>
    refine tours_payloadVisits fun key s r h => ?_
    rw [kindVisit] at h
    split at h
    · exact (Visit.part.inj h).1.symm
    · cases h
  | insert => exact tours_slots
  | select => exact tours_slots
  | sort => exact tours_slots
  | func => exact tours_slots
  | columnRef => exact hexpr.append_check _ _
  | cell => exact hexpr.append_check _ _
  | expr => exact hexpr
  | filter => exact hexpr.ite rfl
  | sorts => exact (tours_itemVisits _).ite rfl
  | rows => exact (tours_itemVisits _).ite rfl
  | outputs => exact (tours_itemVisits _).ite rfl
  | operands =>
    rw [visits]
    split
    · exact tours_itemVisits _
    · exact .of_parts_eq_nil rfl
    · exact .of_parts_eq_nil rfl
  | columnRefs => exact tours_itemVisits _
  | row => exact tours_itemVisits _
  | args => exact tours_itemVisits _
  | offset => exact .of_parts_eq_nil parts_windowVisits
  | limit => exact .of_parts_eq_nil parts_windowVisits
  | literal => exact .of_parts_eq_nil rfl
  | unknown key => exact .of_parts_eq_nil rfl
  | _ => exact .of_parts_eq_nil (parts_check _ _)

/-- The parts before one that is visited, and those after it. -/
theorem Tours.split {earlier later : List Visit} {s : Step} {r : Role}
    (h : Tours j (earlier ++ .part s r :: later)) :
    (∀ t r', .part t r' ∈ earlier → Before t s) ∧ ∀ t r', .part t r' ∈ later → Before s t := by
  have hordered := h.ordered
  rw [parts_append] at hordered
  obtain ⟨-, hlater, hearlier⟩ := List.pairwise_append.mp hordered
  refine ⟨fun t r' ht => ?_, fun t r' ht => ?_⟩
  · exact hearlier (t, r') (mem_parts.mpr ht) (s, r) List.mem_cons_self
  · exact (List.pairwise_cons.mp hlater).1 (t, r') (mem_parts.mpr ht)

/-- A part that comes before one that is visited without complaints has been visited. -/
theorem Tours.mem_earlier {earlier later : List Visit} {s t : Step} {r : Role} {part : Json}
    (h : Tours j (earlier ++ .part s r :: later))
    (hearlier : ∀ v ∈ earlier, v.complaints limits j = []) (hbefore : Before t s)
    (ht : j.step? t = some part) : ∃ r', .part t r' ∈ earlier := by
  have hhead : ∃ s' r', (earlier ++ .part s r :: later).head? = some (.part s' r') := by
    cases earlier with
    | nil => exact ⟨s, r, rfl⟩
    | cons v rest =>
      cases v with
      | complain c => cases hearlier _ List.mem_cons_self
      | part s' r' => exact ⟨s', r', rfl⟩
  obtain ⟨s', r', hhead⟩ := hhead
  obtain ⟨r'', hmem⟩ := h.thorough s' r' hhead t part ht
  rcases List.mem_append.mp hmem with hmem | hmem
  · exact ⟨r'', hmem⟩
  · rcases List.mem_cons.mp hmem with heq | hmem
    · exact absurd (Visit.part.inj heq).1 hbefore.ne
    · exact absurd (h.split.2 t r'' hmem) hbefore.asymm

end TableStore.Query
