import TableStore.Config.Load
import TableStore.Config.Opening
import TableStore.Http.Listener
import TableStore.Invocation

/-!
# The command line

What the program does with its arguments: it loads its configuration, opens the catalog and listens,
and each of these can end it. `CommandLine.run` follows it up to where it listens.
-/

namespace TableStore.CommandLine

/-- The name and the version of the program. -/
def versionText : String :=
  "tabula 0.1.0\n"

/-- How far the program came. -/
inductive Ending where
  /-- It ended by itself, with an exit code. -/
  | exited (code : Nat)
  | listening (listener : Http.Listener)

/-- What the program did before it ended or listened. -/
structure Run where
  ending : Ending
  output : String
  format : LogFormat
  log : List LogLine

/-- A run that ended before anything was logged. -/
def quiet (code : Nat) (output : String) : Run :=
  ⟨.exited code, output, .text, []⟩

/-- What the program does once it has a configuration, and what it logs. A list of origins that
can't be understood ends it at once. -/
def start (disk : Disk) (c : Config) : Ending × List LogLine :=
  match c.catalog.open? disk none with
  | none => (.exited 1, [⟨.error, "Error setting up the catalog: unable to open database"⟩])
  | some catalog =>
    match c.http with
    | none => (.exited 0, [⟨.warn, "No frontends configured, nothing to do"⟩])
    | some http =>
      match Http.OriginPolicy.ofList? http.allowedOrigins with
      | none => (.exited 101, [])
      | some policy =>
        match Http.Listener.address? http.bindHost http.bindPort with
        | none => (.exited 1, [⟨.error, Http.Listener.invalidAddressMessage⟩])
        | some address =>
          (.listening ⟨address, policy, c.limits, catalog.database⟩,
            [⟨.info, "Listening for HTTP requests on " ++ address.hostText⟩])

/-- The names of the files that the program may want to read. -/
def fileNames (arguments : List String) : List String :=
  match Invocation.read? arguments with
  | some (.run path _) => Config.fileNames path
  | _ => []

/-- What the program does with a configuration, and what it logs. -/
def runWith (path : String) (environment files : List (String × String)) : Ending × List LogLine :=
  let find (name : String) : Option String :=
    (files.find? fun f => f.1 == Disk.plainName name).map Prod.snd
  match Config.load find environment path with
  | .error e => (.exited 1, [⟨.error, "Error loading config from " ++ path ++ ": " ++ e.message⟩])
  | .ok c =>
    let (ending, log) := start ⟨[""], [], files.map Prod.fst⟩ c
    (ending, c.catalog.openingLine :: log)

/-- Follows the program: its arguments, its environment variables, and the files it can read. -/
def run (arguments : List String) (environment files : List (String × String)) : Run :=
  match Invocation.read? arguments with
  | none => quiet 2 ""
  | some .help => quiet 0 ""
  | some .version => quiet 0 versionText
  | some (.run path format) =>
    let (ending, log) := runWith path environment files
    let log := ⟨.info, "Starting Tabula 0.1.0"⟩ :: log
    ⟨ending, "", format, log.filter (LogFilter.ofEnvironment environment).shows⟩

/-- What a program that listens logs when it is interrupted. -/
def interrupted (environment : List (String × String)) : List LogLine :=
  [⟨.info, "Received Ctrl-C, shutting down"⟩].filter (LogFilter.ofEnvironment environment).shows

end TableStore.CommandLine
