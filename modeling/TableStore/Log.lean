import TableStore.Json.Printer
import TableStore.Text.Scan
import TableStore.Timestamp

/-!
# The log

What the program says while it works: messages of different importance. A `LogFilter` chooses those
that are shown, and a `LogFormat` is how a message is written down.
-/

namespace TableStore

/-- How important a message is. -/
inductive LogLevel where
  | debug
  | info
  | warn
  | error
deriving DecidableEq, Repr

def LogLevel.name : LogLevel → String
  | .debug => "DEBUG"
  | .info => "INFO"
  | .warn => "WARN"
  | .error => "ERROR"

/-- The number of the level, the least important first. -/
def LogLevel.rank : LogLevel → Nat
  | .debug => 0
  | .info => 1
  | .warn => 2
  | .error => 3

/-- A message in the log. -/
structure LogLine where
  level : LogLevel
  message : String
deriving DecidableEq, Repr

/-- The name of the program in its log. -/
def LogLine.programName : String :=
  "tabula"

/-! ### Filters -/

/-- Which messages are shown: those at least as important as a level, or none. -/
structure LogFilter where
  least : Option LogLevel
deriving DecidableEq, Repr

namespace LogFilter

/-- The level with a name, in letters of any case. -/
def level? (name : String) : Option (Option LogLevel) :=
  match name.toLower with
  | "trace" | "debug" => some (some .debug)
  | "info" => some (some .info)
  | "warn" => some (some .warn)
  | "error" => some (some .error)
  | "off" => some none
  | _ => none

/-- The filter where none is given, or where it can't be understood. -/
def standard : LogFilter :=
  ⟨some .info⟩

/-- Whether a filter for programs whose names begin with a text is about this one. -/
def concerns (head : List Char) : Bool :=
  head.isPrefixOf LogLine.programName.toList

/-- Reads a filter: a level, perhaps for those programs alone whose names begin with a text. A name
without a level shows everything, and an empty filter shows errors. -/
def read (text : String) : LogFilter :=
  match Text.cutAt '=' text.toList with
  | some (name, level) =>
    match level? (String.ofList level) with
    | some least => ⟨if concerns name then least else none⟩
    | none => standard
  | none =>
    if text.isEmpty then ⟨some .error⟩
    else
      match level? text with
      | some least => ⟨least⟩
      | none => ⟨if concerns text.toList then some .debug else none⟩

/-- The name of the environment variable that holds a filter. -/
def variableName : String :=
  "RUST_LOG"

/-- The filter that environment variables ask for. -/
def ofEnvironment (environment : List (String × String)) : LogFilter :=
  match environment.find? fun v => v.1 == variableName with
  | some (_, text) => read text
  | none => standard

def shows (f : LogFilter) (line : LogLine) : Bool :=
  match f.least with
  | some least => least.rank ≤ line.level.rank
  | none => false

end LogFilter

/-! ### Formats -/

/-- How messages are written down. -/
inductive LogFormat where
  | text
  | json
deriving DecidableEq, Repr

/-- A message as it is written down at a time. -/
def LogFormat.render (time : Timestamp) (line : LogLine) : LogFormat → String
  | .text => time.text ++ " " ++ line.level.name ++ " " ++ LogLine.programName ++ ": " ++
      line.message
  | .json => Json.compact (.obj [("fields", .obj [("message", .str line.message)]),
      ("level", .str line.level.name), ("target", .str LogLine.programName),
      ("timestamp", .str time.text)])

end TableStore
