import TableStore.Number.Reading
import TableStore.Sort
import TableStore.Text.Percent

/-!
# Parameters of requests

What the service reads from the query string of a request. Names that it does not know are not
looked at, but a name it knows may not come twice.
-/

namespace TableStore.Http

/-- How children are listed. -/
structure ListParameters where
  sort : List String
  offset : Nat
  limit : Option Nat
  path : Bool
deriving DecidableEq, Repr

namespace Parameters

/-- The value of each name that is known, as far as it is there. -/
def known? (names : List String) (query : String) : Option (List (String × String)) :=
  let known := (Text.Percent.pairs query).filter fun p => names.contains p.1
  if (known.map Prod.fst).Nodup then some known else none

/-- A parameter that may be absent. -/
def read {α : Type} (known : List (String × String)) (name : String)
    (read : String → Option α) : Option (Option α) :=
  match known.find? fun p => p.1 == name with
  | some (_, value) => (read value).map some
  | none => some none

def flag? : String → Option Bool
  | "true" => some true
  | "false" => some false
  | _ => none

/-- Whether the path of an entry is asked for. -/
def entry? (query : String) : Option Bool := do
  let known ← known? ["path"] query
  return (← read known "path" flag?).getD false

/-- How the children of an entry are to be listed. -/
def list? (query : String) : Option ListParameters := do
  let known ← known? ["sort", "offset", "limit", "path"] query
  let sort ← read known "sort" some
  return {
    sort := (sort.map SortKey.splitParameter).getD []
    offset := (← read known "offset" Numeral.readUnsigned?).getD 0
    limit := ← read known "limit" Numeral.readUnsigned?
    path := (← read known "path" flag?).getD false }

end Parameters
end TableStore.Http
