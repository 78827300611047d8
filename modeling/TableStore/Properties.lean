import TableStore.Json.Basic
import TableStore.Text.Quoted

/-!
# Property maps

Entries and columns carry a map of properties. A key is one or more ASCII letters, digits or
underscores, and `null` is never stored: an update that gives it to a key takes the key out. An
update is checked as a whole (`PropertiesUpdate.ofMembers?`) before any of it is applied.
-/

namespace TableStore

/-- Why a property map is refused. -/
inductive PropertyError where
  | invalidKey (key : String)
deriving DecidableEq, Repr

def PropertyError.message : PropertyError → String
  | .invalidKey key =>
    "Invalid property key " ++ Text.quoted key ++
      ": keys may only contain ASCII letters, digits and underscores"

/-- Whether a character may stand in a property key or an alias. -/
def isKeyChar (c : Char) : Bool :=
  c.isAlphanum || c == '_'

/-- Whether a text is one or more characters of a key. -/
def isKey (key : String) : Bool :=
  !key.toList.isEmpty && key.toList.all isKeyChar

/-- Refuses a text that is no key. -/
def checkKey (key : String) : Except PropertyError Unit :=
  if isKey key then .ok () else .error (.invalidKey key)

/-- Refuses members with a key that is none; the first one is reported. -/
def checkKeys : Members Json → Except PropertyError Unit
  | [] => .ok ()
  | (key, _) :: rest => do
    checkKey key
    checkKeys rest

/-- The properties of an entry or a column. -/
structure Properties where
  members : Members Json
deriving DecidableEq, Inhabited

/-- New values for some keys, all of them valid; `null` stands for taking the key out. -/
structure PropertiesUpdate where
  members : Members Json
deriving DecidableEq, Inhabited

namespace PropertiesUpdate

/-- The update that members describe. -/
def ofMembers? (members : Members Json) : Except PropertyError PropertiesUpdate := do
  checkKeys members
  return ⟨members⟩

end PropertiesUpdate

namespace Properties

def empty : Properties :=
  ⟨[]⟩

/-- One key changed: `null` takes it out, any other value is stored. -/
def set (p : Properties) (key : String) (value : Json) : Properties :=
  if value = .null then ⟨p.members.erase key⟩ else ⟨p.members.insert key value⟩

/-- The properties after an update. -/
def apply (p : Properties) (update : PropertiesUpdate) : Properties :=
  update.members.foldl (fun p m => p.set m.1 m.2) p

/-- The properties after an update that is still to be checked. -/
def merge (p : Properties) (members : Members Json) : Except PropertyError Properties := do
  let update ← PropertiesUpdate.ofMembers? members
  return p.apply update

/-- The map that members describe. -/
def ofMembers? (members : Members Json) : Except PropertyError Properties :=
  empty.merge members

/-- The value of a key. -/
def get? (p : Properties) (key : String) : Option Json :=
  p.members.get? key

def isEmpty (p : Properties) : Bool :=
  p.members.isEmpty

/-- The map as a document. -/
def toJson (p : Properties) : Json :=
  .obj p.members

/-- The map read again after it has been written as text, if it nests below the reader's bound. -/
def reread (p : Properties) : Properties :=
  ⟨Json.rereadMembers p.members⟩

/-! ### What an update does to a key -/

theorem get?_set (p : Properties) (key other : String) (value : Json) :
    (p.set key value).get? other =
      if other = key then (if value = .null then none else some value) else p.get? other := by
  by_cases h : value = .null
  · simp [set, get?, h, Members.get?_erase]
  · simp [set, get?, h, Members.get?_insert]

end Properties
end TableStore
