import TableStore.Properties
import TableStore.Sql.Dialect
import TableStore.Sql.Expr
import TableStore.Text.Blank

/-!
# Sorting of listings

A listing of entries is sorted by keys. A key is written as a directive `field` or
`field:direction`, where the field is `id`, `type`, `created_at`, `updated_at` or `properties.` with
a property key (`SortKey.read`, `SortKey.directive`). `effectiveKeys` is what a list of keys stands
for: without any it is the time of creation, and the identifier always breaks ties.
`orderByClause` writes it in a dialect of SQL.
-/

namespace TableStore

/-- Ascending or descending. -/
inductive Direction where
  | asc
  | desc
deriving DecidableEq, Repr, Inhabited

namespace Direction

def name : Direction → String
  | .asc => "asc"
  | .desc => "desc"

/-- The keyword of SQL. -/
def keyword : Direction → String
  | .asc => "ASC"
  | .desc => "DESC"

/-- Reads a name whatever the case of its ASCII letters. -/
def read? (text : String) : Option Direction :=
  let lower := text.toList.map Char.toLower
  if lower = Direction.asc.name.toList then some .asc
  else if lower = Direction.desc.name.toList then some .desc
  else none

end Direction

/-- What a listing is sorted by. -/
inductive SortField where
  | id
  | type
  | createdAt
  | updatedAt
  | property (key : String)
deriving DecidableEq, Repr, Inhabited

/-- A field and a direction. -/
structure SortKey where
  field : SortField
  direction : Direction
deriving DecidableEq, Repr, Inhabited

/-- Why a directive is refused. -/
inductive SortError where
  | unknownField (text : String)
  | invalidDirection (text : String)
deriving DecidableEq, Repr

def SortError.message : SortError → String
  | .unknownField text => "Unknown sort field " ++ Text.quoted text
  | .invalidDirection text =>
    "Invalid sort direction " ++ Text.quoted text ++ ": expected \"asc\" or \"desc\""

namespace SortField

/-- The written form of a field. -/
def name : SortField → String
  | .id => "id"
  | .type => "type"
  | .createdAt => "created_at"
  | .updatedAt => "updated_at"
  | .property key => "properties." ++ key

/-- Reads a field. -/
def read (text : String) : Except SortError SortField :=
  if text = "id" then .ok .id
  else if text = "type" then .ok .type
  else if text = "created_at" then .ok .createdAt
  else if text = "updated_at" then .ok .updatedAt
  else
    match Text.stripHead? text "properties." with
    | some key => if isKey key then .ok (.property key) else .error (.unknownField text)
    | none => .error (.unknownField text)

/-- The expression for a field of the table with the given qualifier. -/
def expression (d : Sql.Dialect) (qualifier : String) : SortField → String
  | .id => qualifier ++ ".id"
  | .type => qualifier ++ ".type"
  | .createdAt => qualifier ++ ".created_at"
  | .updatedAt => qualifier ++ ".updated_at"
  | .property key => d.jsonText (qualifier ++ ".properties") key

/-- What a field is to the embedded engine. -/
def expr (qualifier : String) : SortField → Sql.Expr
  | .id => .column (qualifier ++ ".id")
  | .type => .column (qualifier ++ ".type")
  | .createdAt => .column (qualifier ++ ".created_at")
  | .updatedAt => .column (qualifier ++ ".updated_at")
  | .property key => .jsonExtract (.column (qualifier ++ ".properties")) key

end SortField

namespace SortKey

/-- The directive that writes a key in full. -/
def directive (k : SortKey) : String :=
  k.field.name ++ ":" ++ k.direction.name

/-- Reads a directive. Everything after the first colon is the direction, and blanks around the
field do not count. -/
def read (text : String) : Except SortError SortKey := do
  let (field, direction) ←
    match Text.cutAt ':' text.toList with
    | some (field, direction) =>
      let direction := String.ofList direction
      match Direction.read? direction with
      | some d => pure (String.ofList field, d)
      | none => throw (.invalidDirection direction)
    | none => pure (text, Direction.asc)
  return ⟨← SortField.read (Text.trim field), direction⟩

/-- Whether a directive is blank. -/
def isBlank (text : String) : Bool :=
  text.toList.all Text.isBlank

/-- Reads directives, skipping blank ones; the first bad one is reported. -/
def readAll (directives : List String) : Except SortError (List SortKey) :=
  (directives.filter fun d => !isBlank d).mapM read

/-- The directives of a parameter that separates them by commas. -/
def splitParameter (parameter : String) : List String :=
  ((Text.pieces ',' parameter.toList).filter fun p => !p.isEmpty).map String.ofList

/-- What keys stand for: by time of creation if there are none, and by identifier in the end. -/
def effectiveKeys (keys : List SortKey) : List SortKey :=
  let keys := if keys.isEmpty then [⟨.createdAt, .asc⟩] else keys
  if keys.any fun k => k.field == .id then keys else keys ++ [⟨.id, .asc⟩]

/-- A key as a term of SQL. -/
def term (d : Sql.Dialect) (qualifier : String) (k : SortKey) : String :=
  k.field.expression d qualifier ++ " " ++ k.direction.keyword

/-- The clause that sorts by keys. -/
def orderByClause (d : Sql.Dialect) (qualifier : String) (keys : List SortKey) : String :=
  "ORDER BY " ++ ", ".intercalate ((effectiveKeys keys).map (term d qualifier))

end SortKey
end TableStore
