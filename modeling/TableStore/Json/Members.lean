/-!
# Members of an object

An object keeps its members in the order of their keys, each key once. Keys are ordered by their
code points, which is also the order of their bytes. `insert` replaces the value of a key that is
there and `erase` takes a key out; both keep the order.
-/

namespace TableStore

/-- Members by key, in ascending order of the keys when built by `insert`. -/
abbrev Members (α : Type) := List (String × α)

namespace Members

variable {α β : Type}

/-- The members with `key` holding `value`. -/
def insert (key : String) (value : α) : Members α → Members α
  | [] => [(key, value)]
  | (k, v) :: rest =>
    if key = k then (key, value) :: rest
    else if key < k then (key, value) :: (k, v) :: rest
    else (k, v) :: insert key value rest

/-- The members without `key`. -/
def erase (key : String) : Members α → Members α
  | [] => []
  | (k, v) :: rest => if key = k then erase key rest else (k, v) :: erase key rest

/-- The value of a key. -/
def get? (key : String) : Members α → Option α
  | [] => none
  | (k, v) :: rest => if key = k then some v else get? key rest

/-- Members in the order of their keys; of two with one key the later one counts. -/
def ofList (members : List (String × α)) : Members α :=
  members.foldl (fun sofar m => insert m.1 m.2 sofar) []

def keys (members : Members α) : List String :=
  members.map Prod.fst

/-! ### Reading back what was written -/

theorem get?_insert (key other : String) (value : α) (members : Members α) :
    get? other (insert key value members) =
      if other = key then some value else get? other members := by
  induction members with
  | nil => simp [insert, get?]
  | cons m rest ih =>
    obtain ⟨k, v⟩ := m
    by_cases hk : key = k
    · subst hk
      by_cases h : other = key <;> simp [insert, get?, h]
    · by_cases hlt : key < k
      · simp [insert, get?, hk, hlt]
      · by_cases h : other = k
        · subst h
          simp [insert, get?, hk, hlt, Ne.symm hk]
        · simp [insert, get?, hk, hlt, h, ih]

theorem get?_erase (key other : String) (members : Members α) :
    get? other (erase key members) = if other = key then none else get? other members := by
  induction members with
  | nil => simp [erase, get?]
  | cons m rest ih =>
    obtain ⟨k, v⟩ := m
    by_cases hk : key = k
    · subst hk
      rw [erase, if_pos rfl, ih]
      by_cases h : other = key <;> simp [get?, h]
    · by_cases h : other = k
      · subst h
        simp [erase, get?, hk, Ne.symm hk]
      · simp [erase, get?, hk, h, ih]

end Members
end TableStore
