import TableStore.Catalog.Argument
import TableStore.Catalog.Path

/-!
# Operations on entries

Making, reading, listing, moving, changing and deleting entries. Arguments are checked before
anything is read, and what they refer to is checked before anything is written. `validateMove` makes
the checks of a move without the move.
-/

namespace TableStore

/-- A window of children, and the number of all of them. -/
structure ChildrenPage where
  entries : List Entry
  total : Int
deriving DecidableEq, Inhabited

namespace Catalog

/-- The entry with its columns, if it is a table. -/
def withColumns (entry : Entry) : Program Entry :=
  match entry.type with
  | .folder => return entry
  | .table => do return { entry with columns := some (← Stored.listColumns entry.id) }

/-- Makes an entry. A parent in another organization is as good as missing. -/
def createEntry (env : Surroundings) (organization : Uuid) (type : EntryType) (parent : Option Uuid)
    (properties : Members Json) (columns : List ColumnDefinition) : Program Entry := do
  let properties ← check (checkProperties properties)
  let columns ← check (columns.mapM checkDefinition)
  let _ ← Stored.getOrganization organization
  match parent with
  | some id =>
    let folder ← getFolder id
    if folder.organizationId ≠ organization then Program.fail (.entryNotFound id)
  | none => pure ()
  -- the columns of a folder are handed on like those of a table
  let entry ← Stored.createEntry organization type parent properties columns env.now env.fresh
  Program.note .info
    ("Created " ++ type.name ++ " " ++ entry.id.text ++ " in organization " ++ organization.text)
  match type with
  | .folder => return entry
  | .table => do return { entry with columns := some (← Stored.listColumns entry.id) }

/-- An entry with its columns, and its path if asked for. -/
def getEntry (id : Uuid) (path : Bool) : Program Entry := do
  let entry ← Stored.getEntry id
  let entry ← withColumns entry
  if path then return { entry with path := some (← pathOf entry) } else return entry

/-- The path of an entry. -/
def computePath (id : Uuid) : Program (List PathElement) := do
  pathOf (← Stored.getEntry id)

/-- A window of the children of a root or a folder. All of them have the same path, so it is built
once. -/
def listChildren (env : Surroundings) (parent : Parent) (sort : List String) (offset : Nat)
    (limit : Option Nat) (path : Bool) : Program ChildrenPage := do
  let keys ← Program.ofExcept .invalidSort (SortKey.readAll sort)
  let limit ← check (checkLimit env.limits limit)
  let offset ← check (checkOffset offset)
  let (organization, folder, above) ←
    match parent with
    | .root organization => do
      let _ ← Stored.getOrganization organization
      pure (organization, none, [])
    | .folder id => do
      let folder ← getFolder id
      let above ←
        if path then do
          let above ← pathOf folder
          pure (above ++ [folder.toPathElement])
        else pure []
      pure (folder.organizationId, some id, above)
  let (entries, total) ← Stored.listChildren organization folder keys offset limit
  let entries := if path then entries.map fun e => { e with path := some above } else entries
  return ⟨entries, total⟩

/-- Says whether a move would be accepted, without making it. -/
def validateMove (entry : Entry) (destination : Option Uuid) : Program Unit :=
  match destination with
  | none => return ()
  | some destination =>
    let cycle : Program Unit := .fail (.cycleDetected entry.id destination)
    if destination = entry.id then cycle
    else do
      let folder ← getFolder destination
      if folder.organizationId ≠ entry.organizationId then
        Program.fail (.organizationMismatch entry.id destination)
      let path ← pathOf folder
      if path.any fun above => above.id == entry.id then cycle

/-- How messages show a destination. -/
def destinationText : Option Uuid → String
  | none => "None"
  | some id => "Some(" ++ id.text ++ ")"

/-- Moves an entry to a folder, or to the root of its organization. -/
def moveEntry (env : Surroundings) (id : Uuid) (destination : Option Uuid) : Program Entry := do
  let _ ← Stored.moveEntry id destination env.now
  Program.note .info ("Moved entry " ++ id.text ++ " into " ++ destinationText destination)
  getEntry id false

/-- Changes the properties of an entry. -/
def updateProperties (env : Surroundings) (id : Uuid) (properties : Members Json) :
    Program Entry := do
  let update ← check (checkUpdate properties)
  let _ ← Stored.updateProperties id update env.now
  getEntry id false

/-- Deletes an entry and everything under it. -/
def deleteEntry (id : Uuid) : Program Unit := do
  Stored.deleteEntry id
  Program.note .info ("Deleted entry " ++ id.text ++ " and everything under it")

end Catalog
end TableStore
