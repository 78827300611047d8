import TableStore.Store.Command
import TableStore.Store.Request
import TableStore.Store.ResultRow

/-!
# The connection to a database server

A `Server` answers commands, knowing what was sent before; nothing is assumed about its answers. A
`Connection` sends commands to it and keeps them. `Connection.serve` carries out a request: a
transaction is opened and made serializable before anything else, committed after its last
statement, and rolled back where it fails once it is open, also by its commit.
-/

namespace TableStore

/-- What a command is answered: rows, or a fault. -/
abbrev Answer := Except DatabaseFault (List ResultRow)

/-- A database server: what it answers a command, given the commands before it. -/
structure Server where
  answer : List Command → Command → Answer

/-- A connection, with the commands that were sent, the last one first. -/
structure Connection where
  server : Server
  sent : List Command

namespace Connection

/-- Sends a command. -/
def send (c : Connection) (command : Command) : Answer × Connection :=
  (c.server.answer c.sent command, { c with sent := command :: c.sent })

/-- Sends a command; a fault is told by its code. -/
def tell (c : Connection) (command : Command) : Except StoreError Unit × Connection :=
  match c.send command with
  | (.ok _, c) => (.ok (), c)
  | (.error fault, c) => (.error (.ofServerFault fault), c)

/-- Carries out one statement. -/
def execute {α : Type} (s : Statement α) (c : Connection) : Except StoreError α × Connection :=
  match c.send s.command with
  | (.ok rows, c) => (s.read rows, c)
  | (.error fault, c) => (.error (.ofServerFault fault), c)

/-- Ends a transaction that failed. -/
def abandon {α : Type} (c : Connection) (e : StoreError) : Except StoreError α × Connection :=
  (.error e, (c.send .rollback).2)

/-- Carries out a batch as one transaction. -/
def transact {α : Type} (batch : Batch α) (c : Connection) : Except StoreError α × Connection :=
  match c.tell .begin with
  | (.error e, c) => (.error e, c)
  | (.ok (), c) =>
    match c.tell .serializable with
    | (.error e, c) => c.abandon e
    | (.ok (), c) =>
      match batch.run execute c with
      | (.error e, c) => c.abandon e
      | (.ok answer, c) =>
        match c.tell .commit with
        | (.error e, c) => c.abandon e
        | (.ok (), c) => (.ok answer, c)

/-- Carries out a request. -/
def serve {α : Type} (r : Request α) (c : Connection) : Except StoreError α × Connection :=
  if r.atomic then c.transact r.batch else r.batch.run execute c

/-! ### Opening -/

/-- The statements that bring a schema up to date, as one command. -/
def migration : Command :=
  ⟨"(migration)", []⟩

/-- The name of a database between quotes. -/
def quotedName (name : String) : String :=
  "\"" ++ Text.replaceAll name "\"" "\"\"" ++ "\""

/-- Sends commands until one fails; says whether all were carried out. -/
def sendAll : List Command → Connection → Bool × Connection
  | [], c => (true, c)
  | command :: rest, c =>
    match c.send command with
    | (.ok _, c) => sendAll rest c
    | (.error _, c) => (false, c)

/-- The commands that get a schema ready. -/
def preparation (schema : String) : List Command :=
  [⟨Text.squeeze ("SET search_path TO " ++ schema ++ ",public;"), []⟩,
    ⟨Text.squeeze ("CREATE SCHEMA IF NOT EXISTS " ++ schema ++ ";"), []⟩,
    .begin, migration, .commit]

/-- Opens a database of a server: makes it if it is not there, which may fail, then gets the schema
ready. Says whether that went well. -/
def openDatabase (server : Server) (database schema : String) : Bool × Connection :=
  let c : Connection := ⟨server, []⟩
  let question : Command :=
    ⟨"select exists(SELECT 1 from pg_database WHERE datname = $1)", [.text database]⟩
  match c.send question with
  | (.ok (⟨(_, .bool there) :: _⟩ :: _), c) =>
    let c := if there then c else (c.send ⟨"CREATE DATABASE " ++ quotedName database, []⟩).2
    sendAll (preparation schema) c
  | (_, c) => (false, c)

end Connection
end TableStore
