import TableStore.Json.Address
import TableStore.Number.Decimal
import TableStore.Query.Basic
import TableStore.Text.Quoted

/-!
# Configurations

What the program is configured to do: where its catalog is, whether and where it listens, and the
limits of queries; and every way a configuration can be refused.
-/

namespace TableStore

/-- How the embedded database keeps its journal. -/
inductive JournalMode where
  | wal
  | delete
  | truncate
  | persist
  | memory
  | off
deriving DecidableEq, Repr, Inhabited

namespace JournalMode

def name : JournalMode → String
  | .wal => "wal"
  | .delete => "delete"
  | .truncate => "truncate"
  | .persist => "persist"
  | .memory => "memory"
  | .off => "off"

def all : List JournalMode :=
  [.wal, .delete, .truncate, .persist, .memory, .off]

/-- Reads the name of a mode, in letters of any case. -/
def read? (text : String) : Option JournalMode :=
  all.find? fun m => m.name == text.toLower

end JournalMode

/-- Where the catalog is kept. -/
inductive CatalogConfig where
  | server (dsn schema : String)
  | embedded (dsn : String) (journalMode : JournalMode) (readOnly : Bool)
deriving DecidableEq, Inhabited

/-- Where requests are listened for, and which origins may send them from a browser. -/
structure HttpConfig where
  bindHost : String
  bindPort : Nat
  allowedOrigins : List String
deriving DecidableEq, Inhabited

def HttpConfig.standard : HttpConfig :=
  ⟨"127.0.0.1", 8080, ["*"]⟩

/-- A configuration. -/
structure Config where
  catalog : CatalogConfig
  http : Option HttpConfig
  limits : Query.Limits
deriving DecidableEq, Inhabited

/-! ### Refusals -/

/-- What was found where something else was wanted. -/
inductive Found where
  | nothing
  | bool (b : Bool)
  | int (n : Int)
  | real (x : Binary64)
  | text (s : String)
  | list
  | table
deriving DecidableEq

/-- The value of an integer: one that does not fit 64 bits with a sign is a float. -/
def JsonNumber.settled : JsonNumber → JsonNumber
  | .int n => if Json.fitsSigned n then .int n else .real (Binary64.ofInt n)
  | .real x => .real x

/-- Numbers written out without an exponent. -/
def Decimal.plainLayout : Decimal.Layout :=
  ⟨-400, 400, false, 1⟩

/-- The text of a double without an exponent; it always has a point. -/
def Binary64.plainText (x : Binary64) : String :=
  if x.isFinite then
    String.ofList ((if x.isNegative then ['-'] else []) ++
      (if x.isZero then ['0', '.', '0'] else Decimal.plainLayout.text (Decimal.shortest x)))
  else if x.isInfinite then (if x.isNegative then "-inf" else "inf")
  else "NaN"

namespace Found

/-- What a document is. -/
def of : Json → Found
  | .null => .nothing
  | .bool b => .bool b
  | .num n =>
    match n.settled with
    | .int n => .int n
    | .real x => .real x
  | .str s => .text s
  | .arr _ => .list
  | .obj _ => .table

/-- What was found, in the words of a structure that does not fit. -/
def shapeText : Found → String
  | .nothing => "unit value"
  | .bool b => "boolean `" ++ toString b ++ "`"
  | .int n => "integer `" ++ toString n ++ "`"
  | .real x => "floating point `" ++ x.plainText ++ "`"
  | .text s => "string " ++ Text.quoted s
  | .list => "sequence"
  | .table => "map"

/-- What was found, in the words of a value that can't be converted. -/
def valueText : Found → String
  | .int n => "integer 64 bit `" ++ toString n ++ "`"
  | f => f.shapeText

end Found

/-- Why a configuration is refused. -/
inductive ConfigError where
  /-- The path of the file is no text. -/
  | invalidPath (shown : String)
  | missingFile
  /-- The file can't be read as settings. -/
  | malformed
  | misshapen (found : Found) (wanted : String)
  | wrongLength (length : Nat) (wanted : String)
  /-- A value can't be converted. -/
  | unreadable (found : Found) (wanted : String) (address : Json.Address)
  | missingField (name : String)
  | unknownType (name : String)
  | unknownJournalMode (text : String)
  | limitTooHigh (max : Nat)
  | defaultLimitTooHigh
  | readOnlyMemory
deriving DecidableEq

namespace ConfigError

def message : ConfigError → String
  | .invalidPath shown => "Invalid config path " ++ shown
  | .missingFile => "configuration file not found"
  | .malformed => "configuration file can't be read"
  | .misshapen found wanted => "invalid type: " ++ found.shapeText ++ ", expected " ++ wanted
  | .wrongLength length wanted => "invalid length " ++ toString length ++ ", expected " ++ wanted
  | .unreadable found wanted _ => found.valueText ++ ", expected " ++ wanted
  | .missingField name => "missing field `" ++ name ++ "`"
  | .unknownType name =>
    "unknown variant `" ++ name ++ "`, expected `postgres` or `sqlite`"
  | .unknownJournalMode text =>
    "error with configuration: unknown value " ++ Text.quoted text ++
      " for `journal_mode`"
  | .limitTooHigh max => "misc.max_query_limit can't be higher than " ++ toString max
  | .defaultLimitTooHigh => "misc.default_query_limit can't be higher than misc.max_query_limit"
  | .readOnlyMemory => "An in-memory SQLite catalog can't be opened in read-only mode"

/-- The error seen from one step further out. -/
def within (step : Json.Step) : ConfigError → ConfigError
  | .unreadable found wanted address => .unreadable found wanted (step :: address)
  | e => e

/-- The key of an address: parts with points between them, positions in brackets. -/
def keyText : Json.Address → String
  | [] => ""
  | step :: rest =>
    let head :=
      match step with
      | .key k => k
      | .index i => "[" ++ toString i ++ "]"
    match rest with
    | [] => head
    | .key _ :: _ => head ++ "." ++ keyText rest
    | .index _ :: _ => head ++ keyText rest

end ConfigError
end TableStore
