import TableStore.Proofs.Visits

/-!
# Replacing parts of a document

`Json.put` replaces the part at an address. Further inside than one step this keeps how a document
looks from outside (`Json.SameOutline`), which is all that decides what the decoder visits
(`Query.Role.visits_congr`), and one step away it changes only the part in which something is
replaced (`Json.step?_put`).
-/

namespace TableStore

/-- The members with the values of a key changed. -/
def Members.modify {α : Type} (key : String) (f : α → α) (members : Members α) : Members α :=
  members.map fun m => if m.1 = key then (m.1, f m.2) else m

theorem Members.keys_modify {α : Type} (key : String) (f : α → α) (members : Members α) :
    (members.modify key f).keys = members.keys := by
  rw [modify, keys, keys, List.map_map]
  refine List.map_congr_left fun m _ => ?_
  rw [Function.comp_apply]
  split <;> rfl

theorem Members.get?_modify {α : Type} (key other : String) (f : α → α) (members : Members α) :
    (members.modify key f).get? other =
      if other = key then (members.get? key).map f else members.get? other := by
  induction members with
  | nil => simp [modify, get?]
  | cons m rest ih =>
    obtain ⟨k, v⟩ := m
    rw [modify] at ih
    rw [modify, List.map_cons]
    by_cases hk : k = key
    · subst hk
      rw [if_pos rfl, get?, ih, get?, get?]
      by_cases h : other = k <;> simp [h]
    · rw [if_neg hk, get?, ih, get?, get?]
      by_cases h : other = key
      · subst h
        simp [Ne.symm hk]
      · simp [h]

namespace Json

/-- The document with another part at an address. Where it has no such part it stays as it is. -/
def put (j : Json) (address : Address) (part : Json) : Json :=
  match address, j with
  | [], _ => part
  | .key k :: rest, .obj members =>
    .obj (Members.modify k (fun inner => inner.put rest part) members)
  | .index i :: rest, .arr items => .arr (items.modify i fun inner => inner.put rest part)
  | _ :: _, j => j

/-- Two documents that look the same from outside: what is in their members and items does not
matter. -/
structure SameOutline (j j' : Json) : Prop where
  keys : j.keys? = j'.keys?
  count : j.count? = j'.count?
  text : j.text? = j'.text?
  natural : j.natural? = j'.natural?
  null : j.isNull = j'.isNull

/-- The document with several parts replaced, one after the other. -/
def putAll (j : Json) (edits : List (Address × Json)) : Json :=
  edits.foldl (fun j edit => j.put edit.1 edit.2) j

variable {part j : Json} {s t : Step} {rest : Address}

theorem sameOutline_put : SameOutline (j.put (s :: rest) part) j := by
  cases s with
  | key k =>
    cases j with
    | obj members => exact ⟨congrArg some (Members.keys_modify k _ members), rfl, rfl, rfl, rfl⟩
    | _ => exact ⟨rfl, rfl, rfl, rfl, rfl⟩
  | index i =>
    cases j with
    | arr items => exact ⟨rfl, congrArg some (List.length_modify ..), rfl, rfl, rfl⟩
    | _ => exact ⟨rfl, rfl, rfl, rfl, rfl⟩

/-- One step away only the part changes in which a part is replaced. -/
theorem step?_put : (j.put (s :: rest) part).step? t =
    if t = s then (j.step? s).map (fun inner => inner.put rest part) else j.step? t := by
  cases s with
  | key k =>
    cases j with
    | obj members =>
      cases t with
      | key k' =>
        show Members.get? k' (Members.modify k _ members) = _
        rw [Members.get?_modify]
        simp only [Step.key.injEq]
        rfl
      | index i => rfl
    | _ => cases t <;> simp [put, step?, members?, items?]
  | index i =>
    cases j with
    | arr items =>
      cases t with
      | key k => rfl
      | index i' =>
        show (items.modify i _)[i']? = _
        rw [List.getElem?_modify]
        by_cases h : i' = i
        · subst h
          simp [step?, items?]
        · simp [h, Ne.symm h, step?, items?]
    | _ => cases t <;> simp [put, step?, members?, items?]

end Json

namespace Query

variable {limits : Limits} {role : Role} {j j' : Json}

/-- What the decoder does with a part depends on its outline only. -/
theorem Role.visits_congr (h : j.SameOutline j') :
    role.visits limits j = role.visits limits j' := by
  cases role <;>
    simp only [visits, exprVisits, payloadVisits, objectVisits, itemVisits, offsetVisits,
      limitVisits, windowVisits, h.keys, h.count, h.text, h.natural, h.null]

end Query
end TableStore
