import TableStore.Json.Printer
import TableStore.Number.Extended
import TableStore.Timestamp
import TableStore.Uuid

/-!
# Values of the embedded engine

The values that columns, parameters and expressions have in the embedded database. Identifiers are
binary strings; timestamps and documents are kept as text, but stay recognisable here as what they
are. Values are ordered across types: nothing, then numbers, then text, then identifiers.
-/

namespace TableStore.Sql

/-- A value in the embedded database. -/
inductive Value where
  | null
  | int (n : Int)
  | real (x : Binary64)
  | text (s : String)
  | time (t : Timestamp)
  | document (j : Json)
  | uuid (u : Uuid)
deriving DecidableEq, Inhabited

namespace Value

/-- The value of an integer: one that does not fit becomes a float. -/
def ofInt (n : Int) : Value :=
  if Json.fitsSigned n then .int n else .real (Binary64.ofInt n)

/-- A literal as it is bound; containers give their text. -/
def ofJson : Json → Value
  | .null => .null
  | .bool b => .int (if b then 1 else 0)
  | .num (.int n) => ofInt n
  | .num (.real x) => .real x
  | .str s => .text s
  | .arr items => .text (Json.arr items).compact
  | .obj members => .text (Json.obj members).compact

/-- A part of a stored document taken out as a scalar. The engine reads numbers from their text. -/
def ofStored : Json → Value
  | .num (.int n) => if Json.fitsSigned n then .int n else .real (Binary64.databaseValueOfInt n)
  | .num (.real x) => .real x.databaseValue
  | j => ofJson j

/-- The type of a part of a document, as the engine names it. -/
def jsonTypeName : Json → String
  | .null => "null"
  | .bool true => "true"
  | .bool false => "false"
  | .num (.int _) => "integer"
  | .num (.real _) => "real"
  | .str _ => "text"
  | .arr _ => "array"
  | .obj _ => "object"

/-- The value read as text. -/
def toText : Value → Value
  | .int n => .text (toString n)
  | .real x => .text x.databaseText
  | .document j => .text j.compact
  | v => v

/-- The value as a cell of an answer. -/
def toJson : Value → Json
  | .null => .null
  | .int n => .num (.int n)
  | .real x => .num (.real x)
  | .text s => .str s
  | .time t => .str t.longText
  | .document j => .str j.compact
  | .uuid u => .str u.text

/-- The place of a value's type in the order. -/
def rank : Value → Nat
  | .null => 0
  | .int _ | .real _ => 1
  | .text _ | .time _ | .document _ => 2
  | .uuid _ => 3

/-- The order of values. Numbers compare as reals and texts by their bytes. -/
def compare (a b : Value) : Ordering :=
  match a, b with
  | .int m, .int n => Ord.compare m n
  | .real x, .real y => x.compare y
  | .int m, .real y => (Binary64.compareInt y m).swap
  | .real x, .int n => Binary64.compareInt x n
  | .text s, .text t => Ord.compare s t
  | .time s, .time t => Ord.compare s.millis t.millis
  | .document i, .document j => Ord.compare i.compact j.compact
  | .uuid u, .uuid v => Ord.compare u v
  | a, b => Ord.compare a.rank b.rank

/-- Whether two values are equal; nothing is known of nothing. -/
def equals : Value → Value → Value
  | .null, _ => .null
  | _, .null => .null
  | a, b => .int (if a.compare b = .eq then 1 else 0)

/-- Whether a row with this value for its condition is kept. -/
def isTrue : Value → Bool
  | .int n => n != 0
  | _ => false

end Value
end TableStore.Sql
