import TableStore.Catalog.Stored

/-!
# Paths

A path is the chain of folders above an entry, the root's child first. It is built by walking up
(`climb`), and a walk that comes to a folder twice ends there with a warning.
-/

namespace TableStore.Catalog

/-- A folder. -/
def getFolder (id : Uuid) : Program Entry := do
  let folder ← Stored.getEntry id
  if folder.isFolder then return folder else .fail (.notAFolder id)

/-- Walks up from `next` and puts each folder in front of the path. It ends at a root, or with a
warning where it comes a second time; there are fewer than `steps` identifiers left to come to. -/
def climb (start : Uuid) :
    (steps : Nat) → List Uuid → Option Uuid → List PathElement → Program (List PathElement)
  | _, _, none, path | 0, _, _, path => .done path
  | steps + 1, visited, some parent, path =>
    if visited.contains parent then
      .log ⟨.warn, "Cycle in the ancestors of entry " ++ start.text ++ ": " ++ parent.text ++
        " visited twice"⟩ (.done path)
    else do
      let folder ← Stored.getEntry parent
      climb start steps (parent :: visited) folder.parent (folder.toPathElement :: path)

/-- The folders above an entry, the root's child first. -/
def pathOf (entry : Entry) : Program (List PathElement) :=
  climb entry.id (Request.identifierCount + 1) [entry.id] entry.parent []

end TableStore.Catalog
