import TableStore.Catalog.Operation
import TableStore.Json.Source

/-!
# Bodies of requests

What the service reads from the body of a request. A structure is an object, or a list of its fields
in order; fields that it does not know are not looked at, but a field it knows may not come twice.
-/

namespace TableStore.Http

/-- The fields of a structure that are there. -/
structure Fields where
  /-- Whether the structure is a list, in which no field may be left out but at the end. -/
  inOrder : Bool
  values : List (String × Source)

namespace Fields

/-- The fields with the given names. -/
def ofSource? (names : List String) : Source → Option Fields
  | .obj members => do
    let members ← members.mapM fun (key, value) => key.map fun key => (key, value)
    let known := members.filter fun m => names.contains m.1
    if (known.map Prod.fst).Nodup then some ⟨false, known⟩ else none
  | .arr items => if names.length < items.length then none else some ⟨true, names.zip items⟩
  | _ => none

def get? (f : Fields) (name : String) : Option Source :=
  (f.values.find? fun v => v.1 == name).map Prod.snd

/-- A field that has to be there. -/
def required {α : Type} (f : Fields) (name : String) (read : Source → Option α) : Option α :=
  (f.get? name).bind read

/-- A field that has a default. -/
def defaulted {α : Type} (f : Fields) (name : String) (default : α) (read : Source → Option α) :
    Option α :=
  match f.get? name with
  | some s => read s
  | none => some default

/-- A field that may be absent or nothing; in a list it has to be there. -/
def optional {α : Type} (f : Fields) (name : String) (read : Source → Option α) :
    Option (Option α) :=
  match f.get? name with
  | some .null => some none
  | some s => (read s).map some
  | none => if f.inOrder then none else some none

end Fields

namespace Body

/-! ### Parts -/

def text : Source → Option String
  | .str s => s
  | _ => none

def uuid (s : Source) : Option Uuid :=
  (text s).bind Uuid.read?

/-- An integer that fits 64 bits with a sign. -/
def integer : Source → Option Int
  | .num (some (.int n)) => if Json.fitsSigned n then some n else none
  | _ => none

/-- The members of an object inside so many containers. -/
def members (depth : Nat) : Source → Option (Members Json)
  | .obj parts => ((Source.obj parts).valueAt? depth).bind Json.members?
  | _ => none

/-- The items of a list. -/
def items {α : Type} (read : Source → Option α) : Source → Option (List α)
  | .arr parts => parts.mapM read
  | _ => none

/-! ### Structures -/

/-- The name of an organization. -/
def organizationName (s : Source) : Option String := do
  (← Fields.ofSource? ["name"] s).required "name" text

/-- A column inside so many containers. -/
def definition (depth : Nat) (s : Source) : Option ColumnDefinition := do
  let f ← Fields.ofSource? ["name", "type", "properties"] s
  return {
    name := ← f.required "name" text
    type := ← f.required "type" text
    properties := ← f.defaulted "properties" [] (members (depth + 1)) }

/-- Parent, properties and columns of a new entry. -/
def newEntry (s : Source) : Option (Option Uuid × Members Json × List ColumnDefinition) := do
  let f ← Fields.ofSource? ["parent_folder_id", "properties", "columns"] s
  let parent ← f.optional "parent_folder_id" uuid
  let properties ← f.defaulted "properties" [] (members 1)
  let columns ← f.defaulted "columns" [] (items (definition 2))
  return (parent, properties, columns)

/-- Properties to be updated. -/
def properties (s : Source) : Option (Members Json) := do
  (← Fields.ofSource? ["properties"] s).required "properties" (members 1)

/-- The destination of a move. -/
def destination (s : Source) : Option (Option Uuid) := do
  (← Fields.ofSource? ["destination_id"] s).optional "destination_id" uuid

/-- A new column and its position. It has to be an object all of whose members have values. -/
def newColumn (s : Source) : Option (ColumnDefinition × Option Int) := do
  match s with
  | .obj parts =>
    let f ← Fields.ofSource? ["name", "type", "properties", "index"] s
    guard (parts.all fun (_, value) => (value.valueAt? 1).isSome)
    let name ← f.required "name" text
    let type ← f.required "type" text
    let properties ← f.defaulted "properties" [] (members 1)
    let index ← f.optional "index" integer
    return (⟨name, type, properties⟩, index)
  | _ => none

/-- Changes to a column. -/
def changes (s : Source) : Option ColumnChanges := do
  let f ← Fields.ofSource? ["name", "type", "properties", "index"] s
  return {
    name := ← f.optional "name" text
    type := ← f.optional "type" text
    properties := ← f.optional "properties" (members 1)
    index := ← f.optional "index" integer }

/-- Columns in a new order. -/
def columnIds (s : Source) : Option (List Uuid) := do
  (← Fields.ofSource? ["column_ids"] s).required "column_ids" (items uuid)

/-- Any document. -/
def document (s : Source) : Option Json :=
  s.valueAt? 0

end Body
end TableStore.Http
