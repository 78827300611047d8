import TableStore.Config.Basic
import TableStore.Text.Scan

/-!
# Reading settings

A configuration is read from settings, a document. Tables may also be given as lists, their fields
in order. Numbers, texts and switches are converted into each other where that makes sense, except
in the settings of the catalog, which have to have the right type. What is absent has a default, but
for the type and the address of the catalog. `Config.validate` checks what no single setting shows.
-/

namespace TableStore.Config

/-- A field of a table by its name, of a list by its position. -/
def field? (j : Json) (position : Nat) (name : String) : Option (Json.Step × Json) :=
  match j with
  | .obj members => (Members.get? name members).map fun value => (.key name, value)
  | .arr items => items[position]?.map fun value => (.index position, value)
  | _ => none

/-- Reads a field; one that is absent has a default. -/
def field {α : Type} (j : Json) (position : Nat) (name : String) (default : α)
    (read : Json → Except ConfigError α) : Except ConfigError α :=
  match field? j position name with
  | none => .ok default
  | some (step, value) => (read value).mapError (ConfigError.within step)

/-- Refuses what is neither a table nor a list. -/
def checkFields (wanted : String) (j : Json) : Except ConfigError Unit :=
  match j with
  | .obj _ | .arr _ => .ok ()
  | j => .error (.misshapen (Found.of j) wanted)

/-! ### Converted values -/

/-- The greatest unsigned 64-bit integer that a float rounds to, half away from zero. -/
def roundedNatural (x : Binary64) : Nat :=
  if x.isNegative then 0
  else
    let (num, den) := x.ratio
    min ((2 * num + den) / (2 * den)) Json.maxUnsigned

/-- Reads a number. -/
def readNatural (j : Json) : Except ConfigError Nat :=
  let refuse := Except.error (.unreadable (Found.of j) "an integer" [])
  match j with
  | .num n =>
    match n.settled with
    | .int (.ofNat n) => .ok n
    | .int _ =>
      .error (.unreadable (Found.of j) "an unsigned 64 bit or less integer" [])
    | .real x => .ok (roundedNatural x)
  | .bool b => .ok (if b then 1 else 0)
  | .str s =>
    if ["true", "on", "yes"].contains s.toLower then .ok 1
    else if ["false", "off", "no"].contains s.toLower then .ok 0
    else
      match Numeral.readUnsigned? s with
      | some n => .ok n
      | none => refuse
  | .null | .arr _ | .obj _ => refuse

/-- Reads a port: the low sixteen bits of a number. -/
def readPort (j : Json) : Except ConfigError Nat :=
  (readNatural j).map fun n => n % 65536

/-- The text of a number. -/
def numberText (n : JsonNumber) : String :=
  match n.settled with
  | .int n => toString n
  | .real x =>
    let text := x.plainText.toList
    String.ofList
      (if text.drop (text.length - 2) = ['.', '0'] then text.dropLast.dropLast else text)

/-- Reads a text. -/
def readText (j : Json) : Except ConfigError String :=
  match j with
  | .str s => .ok s
  | .bool b => .ok (toString b)
  | .num n => .ok (numberText n)
  | .null | .arr _ | .obj _ => .error (.unreadable (Found.of j) "a string" [])

/-- Reads texts, from a position on. -/
def readTextsFrom : Nat → List Json → Except ConfigError (List String)
  | _, [] => .ok []
  | position, j :: rest => do
    let text ← (readText j).mapError (ConfigError.within (.index position))
    return text :: (← readTextsFrom (position + 1) rest)

/-- Reads a list of texts. -/
def readTexts (j : Json) : Except ConfigError (List String) :=
  match j with
  | .arr items => readTextsFrom 0 items
  | j => .error (.misshapen (Found.of j) "a sequence")

/-! ### Sections -/

def readHttp (j : Json) : Except ConfigError HttpConfig := do
  checkFields "struct HttpFrontend" j
  return {
    bindHost := ← field j 0 "bind_host" HttpConfig.standard.bindHost readText
    bindPort := ← field j 1 "bind_port" HttpConfig.standard.bindPort readPort
    allowedOrigins :=
      ← field j 2 "cors_allowed_origins" HttpConfig.standard.allowedOrigins readTexts }

/-- Reads how to listen; nothing means not to. -/
def readOptionalHttp : Json → Except ConfigError (Option HttpConfig)
  | .null => .ok none
  | j => (readHttp j).map some

def readFrontend (j : Json) : Except ConfigError (Option HttpConfig) := do
  checkFields "struct Frontend" j
  field j 0 "http" (some .standard) readOptionalHttp

def readLimits (j : Json) : Except ConfigError Query.Limits := do
  checkFields "struct Misc" j
  let default ← field j 0 "default_query_limit" Query.Limits.standard.default readNatural
  let max ← field j 1 "max_query_limit" Query.Limits.standard.max readNatural
  return ⟨default, max⟩

/-! ### The catalog -/

/-- Reads a text that has to be one. -/
def exactText (j : Json) : Except ConfigError String :=
  match j with
  | .str s => .ok s
  | j => .error (.misshapen (Found.of j) "a string")

/-- Reads a switch that has to be one. -/
def exactBool (j : Json) : Except ConfigError Bool :=
  match j with
  | .bool b => .ok b
  | j => .error (.misshapen (Found.of j) "a boolean")

def readJournalMode (j : Json) : Except ConfigError JournalMode := do
  let text ← exactText j
  match JournalMode.read? text with
  | some mode => return mode
  | none => throw (.unknownJournalMode text)

/-- The address of the catalog, which has to be there. -/
def requireDsn (j : Json) (wanted : String) : Option String → Except ConfigError String
  | some dsn => .ok dsn
  | none =>
    match j with
    | .arr _ => .error (.wrongLength 0 wanted)
    | _ => .error (.missingField "dsn")

/-- Refuses a list with more fields than there are. -/
def checkCount (j : Json) (count : Nat) : Except ConfigError Unit :=
  match j with
  | .arr items =>
    if count < items.length then
      .error (.wrongLength items.length (toString count ++ " elements in sequence"))
    else .ok ()
  | _ => .ok ()

def readDsn (j : Json) : Except ConfigError (Option String) :=
  field j 0 "dsn" none fun value => (exactText value).map some

def readServer (j : Json) : Except ConfigError CatalogConfig := do
  let dsn ← readDsn j
  let schema ← field j 1 "schema" "public" exactText
  let dsn ← requireDsn j "struct Postgres with 2 elements" dsn
  checkCount j 2
  return .server dsn schema

def readEmbedded (j : Json) : Except ConfigError CatalogConfig := do
  let dsn ← readDsn j
  let journalMode ← field j 1 "journal_mode" .wal readJournalMode
  let readOnly ← field j 2 "read_only" false exactBool
  let dsn ← requireDsn j "struct Sqlite with 3 elements" dsn
  checkCount j 3
  return .embedded dsn journalMode readOnly

/-- Reads where the catalog is, by its type. -/
def readCatalogOf (type : Json) (rest : Json) : Except ConfigError CatalogConfig :=
  match type with
  | .str "postgres" => readServer rest
  | .str "sqlite" => readEmbedded rest
  | .str name => .error (.unknownType name)
  | j => .error (.misshapen (Found.of j) "variant identifier")

def readCatalog (j : Json) : Except ConfigError CatalogConfig :=
  match j with
  | .obj members =>
    match Members.get? "type" members with
    | some type => readCatalogOf type j
    | none => .error (.missingField "type")
  | .arr (type :: rest) => readCatalogOf type (.arr rest)
  | .arr [] => .error (.missingField "type")
  | j => .error (.misshapen (Found.of j) "internally tagged enum Catalog")

/-! ### The whole -/

/-- Reads settings. -/
def ofSettings (settings : Json) : Except ConfigError Config := do
  let http ← field settings 1 "frontend" (some .standard) readFrontend
  let limits ← field settings 2 "misc" .standard readLimits
  let catalog ← field settings 0 "catalog" none fun j => (readCatalog j).map some
  match catalog with
  | some catalog => return ⟨catalog, http, limits⟩
  | none => throw (.missingField "catalog")

/-- Refuses limits that contradict each other or are beyond the fixed one, and a catalog in memory
that could never hold anything. -/
def validate (c : Config) : Except ConfigError Config := do
  if Query.Limits.standard.max < c.limits.max then
    throw (.limitTooHigh Query.Limits.standard.max)
  if c.limits.max < c.limits.default then throw .defaultLimitTooHigh
  match c.catalog with
  | .embedded dsn _ true => if Text.contains dsn ":memory:" then throw .readOnlyMemory
  | _ => pure ()
  return c

end TableStore.Config
