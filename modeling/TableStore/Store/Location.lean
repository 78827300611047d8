import TableStore.Config.Basic
import TableStore.Store.Engine
import TableStore.Text.Percent

/-!
# Where embedded databases are

The address of an embedded database names a file, or asks for one in memory that lasts while it is
open. A `Disk` holds the files, and `Disk.open?` opens one: it is made if it is not there, except
for reading only. A file remembers whether its journal is a write-ahead log; a database open for
reading only can't change that, and neither can one whose file is open elsewhere.
-/

namespace TableStore

/-- What the address of an embedded database says. -/
structure Location where
  file : String
  inMemory : Bool
  readOnly : Bool
deriving DecidableEq, Repr

namespace Location

/-- The text after as many of the given beginnings as it has. -/
def dropHeads (head text : List Char) : Nat → List Char
  | 0 => text
  | bound + 1 =>
    if head.isPrefixOf text ∧ !head.isEmpty then dropHeads head (text.drop head.length) bound
    else text

/-- The address without the name of its scheme. -/
def withoutScheme (dsn : String) : List Char :=
  let text := dsn.toList
  let text := dropHeads "sqlite://".toList text text.length
  dropHeads "sqlite:".toList text text.length

/-- One parameter of an address; unknown ones are refused. -/
def parameter (l : Location) (name value : String) : Option Location :=
  match name, value with
  | "mode", "ro" => some { l with readOnly := true }
  | "mode", "rw" | "mode", "rwc" => some l
  | "mode", "memory" => some { l with inMemory := true }
  | "cache", "private" | "cache", "shared" => some l
  | "immutable", "true" | "immutable", "1" | "immutable", "false" | "immutable", "0" => some l
  | "vfs", _ => some l
  | _, _ => none

/-- Reads an address. -/
def read? (dsn : String) : Option Location := do
  let address := withoutScheme dsn
  let (database, parameters) :=
    match Text.cutAt '?' address with
    | some (database, parameters) => (database, Text.Percent.pairs (String.ofList parameters))
    | none => (address, [])
  let location ←
    if database = ":memory:".toList then some ⟨"", true, false⟩
    else (Text.Percent.decode? (String.ofList database)).map fun file => ⟨file, false, false⟩
  parameters.foldlM (fun l (name, value) => l.parameter name value) location

end Location

/-- A file that holds a database. -/
structure DatabaseFile where
  name : String
  tables : Tables
  /-- Whether the journal is a write-ahead log. -/
  wal : Bool
deriving DecidableEq

/-- Files and the directories they can be made in. -/
structure Disk where
  directories : List String
  files : List DatabaseFile
  /-- Files that hold something else than a database. -/
  otherFiles : List String
deriving DecidableEq

namespace Disk

/-- The plain name of a file: without empty steps and steps that stay where they are. -/
def plainName (name : String) : String :=
  let steps := (Text.pieces '/' name.toList).filter fun step => step ≠ [] ∧ step ≠ ['.']
  (if name.toList.head? = some '/' then "/" else "") ++
    "/".intercalate (steps.map String.ofList)

/-- The directory part of the name of a file: what stands before the last slash. -/
def directoryOf (file : String) : String :=
  match Text.cutAt '/' file.toList.reverse with
  | some (_, directory) => if directory.isEmpty then "/" else String.ofList directory.reverse
  | none => ""

def file? (d : Disk) (name : String) : Option DatabaseFile :=
  d.files.find? fun f => f.name == name

/-- The disk with a file as given. -/
def write (d : Disk) (file : DatabaseFile) : Disk :=
  { d with files := file :: d.files.filter fun f => f.name != file.name }

/-- Opens the file with a plain name. -/
def openFile? (d : Disk) (held : Option String) (name : String) (wal readOnly : Bool) :
    Option (Database × Option String × Disk) :=
  if d.otherFiles.contains name || d.directories.contains name then none
  else
    match d.file? name with
    | some file =>
      let fixed := readOnly || (file.wal && held == some name)
      if file.wal != wal && fixed then none
      else some (⟨file.tables, readOnly, none⟩, some name, d.write { file with wal := wal })
    | none =>
      if readOnly || !d.directories.contains (directoryOf name) then none
      else some (⟨.empty, false, none⟩, some name, d.write ⟨name, .empty, wal⟩)

/-- Opens a database, for reading only if so wanted; `held` is the name of the file that is open
already. Answers the database, the name of its file if it has one, and the disk. -/
def open? (d : Disk) (held : Option String) (location : Location) (mode : JournalMode)
    (readOnly : Bool) : Option (Database × Option String × Disk) :=
  let readOnly := readOnly || location.readOnly
  if location.inMemory ∨ location.file = "" then some (⟨.empty, readOnly, none⟩, none, d)
  else if location.file.toList.getLast? = some '/' then none
  else d.openFile? held (plainName location.file) (mode == .wal) readOnly

end Disk
end TableStore
