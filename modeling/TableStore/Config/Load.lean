import TableStore.Config.Settings
import TableStore.Config.Toml
import TableStore.Json.Source
import TableStore.Text.Utf8

/-!
# Loading configurations

Settings come from a file, as TOML or as a document, and from environment variables, which go over
those of the file. The variable `TABULA__MISC__MAX_QUERY_LIMIT` holds the field `max_query_limit` of
the table `misc`; letters count without regard to case.
-/

namespace TableStore.Config

/-! ### Environment variables -/

/-- The beginning of the names of variables that are settings, in lower case. -/
def variableHead : String :=
  "tabula__"

/-- Whether a character may stand in a part of a name. -/
def isNameChar (c : Char) : Bool :=
  c.isAlphanum || c == '_' || c == '-' || c == ' '

/-- The parts of a name with points between them. A name that has other characters, or an empty
part, is a single part. -/
def nameParts (name : String) : List String :=
  let parts := Text.pieces '.' name.toList
  if parts.all fun p => !p.isEmpty && p.all isNameChar then parts.map String.ofList else [name]

/-- Puts a value where a name leads. What is on the way and no table becomes one. -/
def put : List String → Json → Json → Json
  | [], value, _ => value
  | part :: rest, value, settings =>
    let members := settings.members?.getD []
    let inner := (Members.get? part members).getD .null
    .obj (members.insert part (put rest value inner))

/-- The name of a setting that a variable holds. -/
def settingName? (variableName : String) : Option String :=
  (Text.stripHead? variableName.toLower variableHead).map fun name =>
    Text.replaceAll name "__" "."

/-- Settings with those from variables over them. -/
def overlay (environment : List (String × String)) (settings : Json) : Json :=
  environment.foldl
    (fun settings (variableName, value) =>
      match settingName? variableName with
      | some name => put (nameParts name) (.str value) settings
      | none => settings)
    settings

/-- Where settings are found. -/
def settingAddresses : List (List String) :=
  [["catalog", "type"], ["catalog", "dsn"], ["catalog", "schema"], ["catalog", "journal_mode"],
    ["catalog", "read_only"], ["frontend", "http", "bind_host"], ["frontend", "http", "bind_port"],
    ["frontend", "http", "cors_allowed_origins"], ["misc", "default_query_limit"],
    ["misc", "max_query_limit"]]

/-- The variables that hold settings, as they are usually written. -/
def variableNames : List String :=
  settingAddresses.map fun address => (variableHead ++ "__".intercalate address).toUpper

/-! ### Files -/

/-- The formats of files. -/
inductive FileFormat where
  | toml
  | json
deriving DecidableEq, Repr

def FileFormat.suffix : FileFormat → String
  | .toml => "toml"
  | .json => "json"

def FileFormat.all : List FileFormat :=
  [.toml, .json]

/-- The settings that a text of a format holds: a table of them. -/
def FileFormat.read? (format : FileFormat) (text : String) : Option Json :=
  let settings :=
    match format with
    | .toml => Toml.read? text
    | .json => (Source.read text).bind (Source.valueAt? 0)
  settings.bind fun j => if j.members?.isSome then some j else none

/-- A path before and after the point of its last name; there is no point at the beginning of a
name. -/
def splitSuffix (path : String) : String × Option String :=
  let backwards := path.toList.reverse
  match Text.cutAt '.' backwards with
  | some (suffix, stem) =>
    if suffix.contains '/' ∨ stem.isEmpty ∨ stem.head? = some '/' then (path, none)
    else (String.ofList stem.reverse, some (String.ofList suffix.reverse))
  | none => (path, none)

/-- The names of the files that a path may stand for. -/
def fileNames (path : String) : List String :=
  path :: FileFormat.all.map fun format => (splitSuffix path).1 ++ "." ++ format.suffix

/-- The text of the file that a path names, and its format. A path that names no file may lack the
suffix of its format or have another one. -/
def findFile (files : String → Option String) (path : String) :
    Except ConfigError (FileFormat × String) :=
  let (stem, suffix) := splitSuffix path
  match files path with
  | some text =>
    match FileFormat.all.find? fun format => some format.suffix == suffix with
    | some format => .ok (format, text)
    | none => .error .missingFile
  | none =>
    let candidates := FileFormat.all.filterMap fun format =>
      (files (stem ++ "." ++ format.suffix)).map fun text => (format, text)
    match candidates with
    | found :: _ => .ok found
    | [] => .error .missingFile

/-! ### Configurations -/

/-- The configuration that a text of TOML holds, without the last checks. -/
def ofToml (text : String) : Except ConfigError Config :=
  match FileFormat.toml.read? text with
  | some settings => ofSettings settings
  | none => .error .malformed

/-- The configuration of a file and of environment variables. -/
def load (files : String → Option String) (environment : List (String × String)) (path : String) :
    Except ConfigError Config := do
  let (format, text) ← findFile files path
  match format.read? text with
  | some settings => validate (← ofSettings (overlay environment settings))
  | none => throw .malformed

/-- The path that bytes write. -/
def pathOfBytes (bytes : List Nat) : Except ConfigError String :=
  match Text.Utf8.decode? bytes with
  | some path => .ok path
  | none => .error (.invalidPath (Text.Utf8.decodeLossy bytes))

end TableStore.Config
