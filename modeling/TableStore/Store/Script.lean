import TableStore.Json.Printer
import TableStore.Store.Connection

/-!
# Scripted servers

A server that answers from a list of prepared answers, without keeping any data. Each answer says
which commands it is for: the first one whose patterns stand in the text and in the shown bindings
of a command is given. A command that no prepared answer is for is carried out without rows.
-/

namespace TableStore

/-- The types of columns in prepared rows. -/
inductive CellType where
  | bool
  | int
  | float4
  | float8
  | text
  | uuid
  | time
  | document
deriving DecidableEq, Repr

namespace CellType

/-- The type with a given name. -/
def read? : String → Option CellType
  | "bool" => some .bool
  | "int4" | "int8" => some .int
  | "float4" => some .float4
  | "float8" => some .float8
  | "text" | "varchar" => some .text
  | "uuid" => some .uuid
  | "timestamptz" => some .time
  | "json" | "jsonb" => some .document
  | _ => none

end CellType

namespace Cell

/-- A float in a document: a number, or the name of one that documents cannot hold. -/
def float? : Json → Option Binary64
  | .num (.int n) => some (Binary64.ofInt n)
  | .num (.real x) => some x
  | .str "NaN" => some .nan
  | .str "inf" => some .infinity
  | .str "-inf" => some Binary64.infinity.negate
  | _ => none

/-- The value of a type that a document writes. Nothing of any type is written `null`. -/
def ofJson? : CellType → Json → Option Cell
  | _, .null => some .null
  | .bool, .bool b => some (.bool b)
  | .int, .num (.int n) => some (.int n)
  | .float4, j => (float? j).map fun x => .real x.narrowed
  | .float8, j => (float? j).map .real
  | .text, .str s => some (.text s)
  | .uuid, .str s => (Uuid.read? s).map .uuid
  | .time, .str s => (Timestamp.read? s).map .time
  | .document, j => some (.document j)
  | _, _ => none

end Cell

/-- A prepared answer, and the commands it is for. -/
structure ScriptedAnswer where
  /-- What has to stand in the text of the command. -/
  inText : String
  /-- What has to stand in its shown bindings. -/
  inParams : Option String
  /-- Whether the answer holds while a database is opened; otherwise it holds afterwards. -/
  opening : Bool
  answer : Answer

namespace ScriptedAnswer

/-- Whether an answer is for a command. -/
def isFor (a : ScriptedAnswer) (command : Command) : Bool :=
  Text.contains command.text a.inText &&
    match a.inParams with
    | some pattern =>
      Text.contains (Json.arr (command.params.map Binding.toJson)).compact pattern
    | none => true

/-- What a command is answered where no prepared answer is for it: the database asked for is there,
and nothing else has rows. -/
def unprepared (command : Command) : Answer :=
  if Text.contains command.text "pg_database" then .ok [⟨[("exists", .bool true)]⟩] else .ok []

end ScriptedAnswer

/-- The server of a script, while it opens a database or afterwards. -/
def Server.scripted (script : List ScriptedAnswer) (opening : Bool) : Server where
  answer _ command :=
    match script.find? fun a => a.opening == opening && a.isFor command with
    | some a => a.answer
    | none => if opening then ScriptedAnswer.unprepared command else .ok []

/-- Opens a database of a scripted server. Says whether that went well, and which commands it
took. -/
def Connection.openScripted (script : List ScriptedAnswer) (database schema : String) :
    Bool × Connection :=
  let (opened, c) := openDatabase (.scripted script true) database schema
  (opened, { c with server := .scripted script false })

/-! ### Schemas for scratch work -/

/-- The length of the name of a scratch schema. -/
def scratchSchemaLength : Nat :=
  20

/-- The letters that names of scratch schemas are made of. -/
def schemaLetters : List Char :=
  "ABCDEFGHIJKLMNOPQRSTUVWXYZabcdefghijklmnopqrstuvwxyz".toList

/-- The name of a scratch schema, made of letters that are drawn by number. -/
def scratchSchema (draw : Nat → Nat) : String :=
  String.ofList ((List.range scratchSchemaLength).map fun i =>
    schemaLetters.getD (draw i % schemaLetters.length) 'A')

end TableStore
