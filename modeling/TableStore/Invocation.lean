import TableStore.Log

/-!
# Invocations

What the arguments of the program ask for: help, its version, or to run with a configuration.
-/

namespace TableStore

/-- What arguments ask for. -/
inductive Invocation where
  | help
  | version
  | run (config : String) (log : LogFormat)
deriving DecidableEq, Repr

namespace Invocation

/-- The path of the configuration where no argument gives one. -/
def standardConfig : String :=
  "tabula.toml"

/-- Arguments part way through: the path given last, how often the log was asked for as JSON, and
whether an option without its value came. -/
structure Draft where
  config : String
  jsonLogs : Nat
  lacksValue : Bool

/-- The draft with a path; an empty one is refused. -/
def Draft.withConfig? (d : Draft) (path : String) : Option Draft :=
  if path.isEmpty then none else some { d with config := path }

/-- What an argument is that can't be the value of the option before it. -/
def isOption (argument : String) : Bool :=
  match argument.toList with
  | ['-'] => false
  | '-' :: _ => true
  | _ => false

/-- What short options ask for, before they take a value. -/
inductive Short where
  | done (invocation : Invocation)
  /-- The path follows; where it is missing it is the next argument. -/
  | path (attached : Option String)
  | unknown

/-- Reads the letters of short options. -/
def readShort : List Char → Short
  | 'h' :: _ => .done .help
  | 'V' :: _ => .done .version
  | ['c'] => .path none
  | 'c' :: '=' :: rest => .path (some (String.ofList rest))
  | 'c' :: rest => .path (some (String.ofList rest))
  | _ => .unknown

/-- Reads arguments one after the other. Help and version end it, and so does what is not known;
what is missing or given too often counts only in the end. -/
def readFrom (d : Draft) : List String → Option Invocation
  | [] =>
    if d.lacksValue ∨ 1 < d.jsonLogs then none
    else some (.run d.config (if d.jsonLogs = 0 then .text else .json))
  | argument :: rest =>
    if argument = "--help" then some .help
    else if argument = "--version" then some .version
    else if argument = "--json-logs" then readFrom { d with jsonLogs := d.jsonLogs + 1 } rest
    else if argument = "--" then if rest.isEmpty then readFrom d [] else none
    else
      match Text.stripHead? argument "--config=" with
      | some path =>
        match d.withConfig? path with
        | some d => readFrom d rest
        | none => none
      | none =>
        let short :=
          match argument.toList with
          | '-' :: '-' :: name => if name = "config".toList then Short.path none else .unknown
          | '-' :: letters => readShort letters
          | _ => .unknown
        match short, rest with
        | .done invocation, _ => some invocation
        | .unknown, _ => none
        | .path (some path), rest =>
          match d.withConfig? path with
          | some d => readFrom d rest
          | none => none
        | .path none, [] => none
        | .path none, value :: rest =>
          if isOption value then readFrom { d with lacksValue := true } (value :: rest)
          else
            match d.withConfig? value with
            | some d => readFrom d rest
            | none => none
  termination_by arguments => arguments.length

/-- Reads arguments; there is no invocation where they can't be understood. -/
def read? (arguments : List String) : Option Invocation :=
  readFrom ⟨standardConfig, 0, false⟩ arguments

end Invocation

end TableStore
