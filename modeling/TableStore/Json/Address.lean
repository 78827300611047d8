import TableStore.Json.Basic

/-!
# Addresses in a document

An address leads from a document to one of its parts, by keys of objects and positions in arrays.
It is written `.key` and `[position]` one after the other, and `.` where it is empty.
-/

namespace TableStore.Json

/-- One step into a document. -/
inductive Step where
  | key (k : String)
  | index (i : Nat)
deriving DecidableEq, Repr

def Step.text : Step → String
  | .key k => "." ++ k
  | .index i => "[" ++ toString i ++ "]"

/-- Steps from a document to one of its parts. -/
abbrev Address := List Step

/-- The written form of an address. -/
def Address.text (a : Address) : String :=
  if a.isEmpty then "." else String.join (a.map Step.text)

/-- The part one step away. -/
def step? (j : Json) : Step → Option Json
  | .key k => j.members?.bind (Members.get? k)
  | .index i => j.items?.bind (·[i]?)

/-- The part at an address. -/
def at? (j : Json) : Address → Option Json
  | [] => some j
  | s :: rest => (j.step? s).bind fun part => at? part rest

end TableStore.Json
