import Mathlib.Order.Bounds.Basic
import TableStore.Proofs.Members
import TableStore.Proofs.Programs
import TableStore.Properties

/-!
# What property maps hold

A property map is known by what it was given: members one after the other, of which the last one
with a key counts, and `null` takes the key out (`Properties.lastValue`). `Properties.Follows` says
that a map is such a map. Updates keep it (`Follows.merge`), and so does writing and reading a map
again (`Follows.reread`), which keeps all keys, but may change the doubles among the values.

An update with a key that is not allowed is refused for the least of these keys
(`checkKeys_error`).
-/

namespace TableStore

namespace Json

/-! ### Reading again -/

mutual

/-- Whether there is a double in a document. -/
def hasDouble : Json → Bool
  | .num (.real _) => true
  | .arr items => listHasDouble items
  | .obj members => membersHaveDouble members
  | .null | .bool _ | .str _ | .num (.int _) => false

def listHasDouble : List Json → Bool
  | [] => false
  | item :: rest => hasDouble item || listHasDouble rest

def membersHaveDouble : List (String × Json) → Bool
  | [] => false
  | (_, value) :: rest => hasDouble value || membersHaveDouble rest

end

mutual

/-- What has no double in it is kept by writing and reading. -/
theorem reread_of_not_hasDouble : ∀ v : Json, v.hasDouble = false → v.reread = v
  | .null, _ | .bool _, _ | .str _, _ | .num (.int _), _ => by rw [reread]
  | .num (.real _), h => by simp [hasDouble] at h
  | .arr items, h => by
    rw [hasDouble] at h
    rw [reread, rereadList_of_not_hasDouble items h]
  | .obj members, h => by
    rw [hasDouble] at h
    rw [reread, rereadMembers_of_not_hasDouble members h]

theorem rereadList_of_not_hasDouble :
    ∀ items : List Json, listHasDouble items = false → rereadList items = items
  | [], _ => by rw [rereadList]
  | item :: rest, h => by
    rw [listHasDouble, Bool.or_eq_false_iff] at h
    rw [rereadList, reread_of_not_hasDouble item h.1, rereadList_of_not_hasDouble rest h.2]

theorem rereadMembers_of_not_hasDouble :
    ∀ members : List (String × Json), membersHaveDouble members = false →
      rereadMembers members = members
  | [], _ => by rw [rereadMembers]
  | (key, value) :: rest, h => by
    rw [membersHaveDouble, Bool.or_eq_false_iff] at h
    rw [rereadMembers, reread_of_not_hasDouble value h.1, rereadMembers_of_not_hasDouble rest h.2]

end

theorem reread_eq_null {v : Json} : v.reread = .null ↔ v = .null := by
  match v with
  | .null => rfl
  | .bool _ | .str _ | .num (.int _) | .num (.real _) | .arr _ | .obj _ => simp [reread]

theorem keys_rereadMembers (members : Members Json) :
    Members.keys (rereadMembers members) = members.keys := by
  induction members with
  | nil => rfl
  | cons m rest ih => exact congrArg (m.1 :: ·) ih

theorem get?_rereadMembers (members : Members Json) (key : String) :
    Members.get? key (rereadMembers members) = (Members.get? key members).map reread := by
  induction members with
  | nil => rfl
  | cons m rest ih =>
    obtain ⟨k, v⟩ := m
    rw [rereadMembers, Members.get?, Members.get?]
    split
    · rfl
    · exact ih

end Json

/-! ### Keys that are not allowed -/

variable {members : Members Json} {key : String}

/-- The keys of members that are not allowed. -/
def invalidKeys (members : Members Json) : Set String :=
  {key | key ∈ members.keys ∧ isKey key = false}

theorem checkKeys_ok : checkKeys members = .ok () ↔ ∀ key ∈ members.keys, isKey key = true := by
  induction members with
  | nil => simp [checkKeys, Members.keys]
  | cons m rest ih =>
    obtain ⟨k, v⟩ := m
    rw [checkKeys, checkKey, Members.keys, List.map_cons, List.forall_mem_cons]
    cases hk : isKey k with
    | true => exact ih.trans (by simp [Members.keys])
    | false => exact ⟨nofun, fun h => absurd h.1 (by simp)⟩

/-- **Members are refused for the least key that is not allowed**, in the order of bytes. -/
theorem checkKeys_error (hascending : members.Ascending) {e : PropertyError}
    (h : checkKeys members = .error e) :
    ∃ key, IsLeast (invalidKeys members) key ∧ e = .invalidKey key := by
  induction members with
  | nil => cases h
  | cons m rest ih =>
    obtain ⟨k, v⟩ := m
    obtain ⟨hless, hrest⟩ := Members.ascending_cons.mp hascending
    rw [checkKeys, checkKey] at h
    cases hk : isKey k with
    | true =>
      rw [if_pos hk] at h
      obtain ⟨key, ⟨⟨hmem, hkey⟩, hleast⟩, he⟩ := ih hrest h
      refine ⟨key, ⟨⟨List.mem_cons_of_mem _ hmem, hkey⟩, ?_⟩, he⟩
      rintro other ⟨hother, hinvalid⟩
      rcases List.mem_cons.mp hother with rfl | hother
      · rw [hk] at hinvalid
        cases hinvalid
      · exact hleast ⟨hother, hinvalid⟩
    | false =>
      rw [if_neg (by simp [hk])] at h
      refine ⟨k, ⟨⟨List.mem_cons_self, hk⟩, ?_⟩, (Except.error.inj h).symm⟩
      rintro other ⟨hother, -⟩
      rcases List.mem_cons.mp hother with rfl | hother
      · exact le_refl _
      · exact (hless other hother).le

namespace Properties

/-! ### What a map was given -/

/-- The last value that a key was given, if it is not `null`. -/
def lastValue (given : List (String × Json)) (key : String) : Option Json :=
  (given.reverse.lookup key).filter fun v => v ≠ .null

theorem lastValue_concat (given : List (String × Json)) (key other : String) (v : Json) :
    lastValue (given ++ [(key, v)]) other =
      if other = key then (if v = .null then none else some v) else lastValue given other := by
  rw [lastValue, List.reverse_concat, List.lookup_cons]
  by_cases h : other = key
  · by_cases hv : v = .null <;> simp [h, hv]
  · simp [h, beq_false_of_ne h, lastValue]

/-- Only what was given last to each key counts. -/
theorem lastValue_append_congr (given : List (String × Json)) {last last' : List (String × Json)}
    (h : ∀ key, last.reverse.lookup key = last'.reverse.lookup key) (key : String) :
    lastValue (given ++ last) key = lastValue (given ++ last') key := by
  rw [lastValue, lastValue, List.reverse_append, List.reverse_append, List.lookup_append,
    List.lookup_append, h]

/-- The map holds what it was given last. -/
structure Follows (p : Properties) (given : List (String × Json)) : Prop where
  ascending : p.members.Ascending
  isKey : ∀ key ∈ p.members.keys, isKey key = true
  ne_null : ∀ key, p.get? key ≠ some .null
  /-- A key is there exactly if it was given last a value other than `null`. -/
  isSome_get? : ∀ key, (p.get? key).isSome = (lastValue given key).isSome
  /-- It has this value, if writing and reading keeps the value. -/
  get?_eq : ∀ key, (∀ v, lastValue given key = some v → v.reread = v) →
    p.get? key = lastValue given key

variable {p q : Properties} {given given' : List (String × Json)}

theorem follows_empty : empty.Follows [] :=
  ⟨Members.Ascending.nil, nofun, nofun, fun _ => rfl, fun _ _ => rfl⟩

theorem Follows.set (h : p.Follows given) (hkey : TableStore.isKey key = true) (v : Json) :
    (p.set key v).Follows (given ++ [(key, v)]) where
  ascending := by
    rw [Properties.set]
    split
    · exact h.ascending.erase
    · exact h.ascending.insert
  isKey := by
    rw [Properties.set]
    intro other hother
    split at hother
    · exact h.isKey other (Members.mem_keys_erase.mp hother).2
    · rcases Members.mem_keys_insert.mp hother with rfl | hmem
      · exact hkey
      · exact h.isKey other hmem
  ne_null other := by
    rw [get?_set]
    by_cases hother : other = key
    · by_cases hv : v = .null <;> simp [hother, hv]
    · simpa [hother] using h.ne_null other
  isSome_get? other := by
    rw [get?_set, lastValue_concat]
    split
    · rfl
    · exact h.isSome_get? other
  get?_eq other := by
    rw [get?_set, lastValue_concat]
    split
    · exact fun _ => rfl
    · exact h.get?_eq other

/-- What is written is read with the same keys. -/
theorem Follows.reread (h : p.Follows given) : p.reread.Follows given where
  ascending := by
    rw [Members.Ascending, Properties.reread, Json.keys_rereadMembers]
    exact h.ascending
  isKey := by
    rw [Properties.reread, Json.keys_rereadMembers]
    exact h.isKey
  ne_null key := by
    rw [Properties.get?, Properties.reread, Json.get?_rereadMembers]
    intro hnull
    obtain ⟨v, hv, hreread⟩ := Option.map_eq_some_iff.mp hnull
    exact h.ne_null key (hv.trans (congrArg some (Json.reread_eq_null.mp hreread)))
  isSome_get? key := by
    rw [Properties.get?, Properties.reread, Json.get?_rereadMembers, Option.isSome_map]
    exact h.isSome_get? key
  get?_eq key hsteady := by
    have hget : Members.get? key p.members = lastValue given key := h.get?_eq key hsteady
    rw [Properties.get?, Properties.reread, Json.get?_rereadMembers, hget]
    cases hlast : lastValue given key with
    | none => rfl
    | some v => exact congrArg some (hsteady v hlast)

/-- **An update that is accepted adds to what a map was given.** -/
theorem Follows.merge (h : p.Follows given) (hmerge : p.merge members = .ok q) :
    q.Follows (given ++ members) := by
  obtain ⟨update, hupdate, hq⟩ := bind_ok hmerge
  obtain ⟨⟨⟩, hkeys, hmembers⟩ := bind_ok hupdate
  cases hmembers
  cases hq
  have hallowed := checkKeys_ok.mp hkeys
  clear hmerge hupdate hkeys
  -- each member that is merged is one more that the map was given
  show (members.foldl (fun p m => p.set m.1 m.2) p).Follows (given ++ members)
  induction members generalizing p given with
  | nil => simpa using h
  | cons m rest ih =>
    rw [List.append_cons]
    exact ih (h.set (hallowed m.1 List.mem_cons_self) m.2) fun key hkey =>
      hallowed key (List.mem_cons_of_mem _ hkey)

/-- Maps that were given the same values last have the same keys. -/
theorem Follows.isSome_eq (h : p.Follows given) (h' : q.Follows given')
    (hlast : ∀ key, lastValue given key = lastValue given' key) (key : String) :
    (p.get? key).isSome = (q.get? key).isSome := by
  rw [h.isSome_get?, h'.isSome_get?, hlast]

/-- They are the same, if writing and reading keeps these values. -/
theorem Follows.eq (h : p.Follows given) (h' : q.Follows given')
    (hlast : ∀ key, lastValue given key = lastValue given' key)
    (hkept : ∀ key v, lastValue given key = some v → v.reread = v) : p = q := by
  have hmembers : p.members = q.members := h.ascending.ext h'.ascending fun key => by
    have hp := h.get?_eq key (hkept key)
    have hq := h'.get?_eq key (hlast key ▸ hkept key)
    exact hp.trans ((hlast key).trans hq.symm)
  cases p
  cases q
  exact congrArg _ hmembers

end Properties
end TableStore
