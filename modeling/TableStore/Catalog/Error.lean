import TableStore.Query.Basic
import TableStore.Store.Error

/-!
# Failures of catalog operations

Every way a catalog operation can fail, the kind of failure it is, and its message. Failures of the
store become failures of the catalog by `ofStore`; an operation that knows which row was missing
says so (`organizationMissing`, `entryMissing`, `columnMissing`).
-/

namespace TableStore

/-- How a failure is to be reported. -/
inductive ErrorKind where
  | notFound
  | invalidInput
  | conflict
  | unimplemented
  | storage
deriving DecidableEq, Repr

/-- Why a catalog operation fails. -/
inductive CatalogError where
  | organizationNotFound (id : Uuid)
  | entryNotFound (id : Uuid)
  | tableNotFound (id : Uuid)
  | columnNotFound (id : Uuid)
  | wrongTable (column table : Uuid)
  | invalidType (name : String)
  | invalidIndex (index : Int)
  | invalidLimit (limit max : Nat)
  | invalidOffset (offset max : Nat)
  | invalidProperty (error : PropertyError)
  | invalidSort (error : SortError)
  | invalidQuery (error : QueryError)
  | notAFolder (id : Uuid)
  | cycleDetected (entry destination : Uuid)
  | organizationMismatch (entry destination : Uuid)
  | concurrentModification (cause : DatabaseFault)
  | unimplemented (what : Query.Unimplemented)
  | storage
  | corruptEntry (id : Uuid) (type : String)
  | corruptColumn (id : Uuid) (type : String)
deriving DecidableEq

namespace CatalogError

def kind : CatalogError → ErrorKind
  | .organizationNotFound _ | .entryNotFound _ | .tableNotFound _ | .columnNotFound _ => .notFound
  | .wrongTable _ _ | .invalidType _ | .invalidIndex _ | .invalidLimit _ _ | .invalidOffset _ _
  | .invalidProperty _ | .invalidSort _ | .invalidQuery _ | .notAFolder _ => .invalidInput
  | .cycleDetected _ _ | .organizationMismatch _ _ | .concurrentModification _ => .conflict
  | .unimplemented _ => .unimplemented
  | .storage | .corruptEntry _ _ | .corruptColumn _ _ => .storage

def message : CatalogError → String
  | .organizationNotFound id => "Organization " ++ id.text ++ " doesn't exist"
  | .entryNotFound id => "Entry " ++ id.text ++ " doesn't exist"
  | .tableNotFound id => "Table " ++ id.text ++ " doesn't exist"
  | .columnNotFound id => "Column " ++ id.text ++ " doesn't exist"
  | .wrongTable column table =>
    "Column " ++ column.text ++ " doesn't belong to table " ++ table.text
  | .invalidType name => "Unknown column type " ++ Text.quoted name
  | .invalidIndex index =>
    "Invalid column index " ++ toString index ++ ": must not be negative"
  | .invalidLimit limit max => (QueryError.limitTooLarge limit max).message
  | .invalidOffset offset max => (QueryError.offsetTooLarge offset max).message
  | .invalidProperty error => error.message
  | .invalidSort error => error.message
  | .invalidQuery error => error.message
  | .notAFolder id => "Entry " ++ id.text ++ " is not a folder"
  | .cycleDetected entry destination =>
    "Can't move entry " ++ entry.text ++ " into " ++ destination.text ++
      ": it's the entry itself or one of its descendants"
  | .organizationMismatch entry destination =>
    "Can't move entry " ++ entry.text ++ " into " ++ destination.text ++
      ": they belong to different organizations"
  | .concurrentModification cause =>
    "Conflicting concurrent update, try again: " ++ cause.text
  | .unimplemented what => "Not implemented: " ++ what.message
  | .storage => "Internal SQL error"
  | .corruptEntry id type =>
    "Invalid value stored in the catalog: entry " ++ id.text ++ " has unknown type " ++
      Text.quoted type
  | .corruptColumn id type =>
    "Invalid value stored in the catalog: column " ++ id.text ++ " has unknown type " ++
      Text.quoted type

/-- What a failure of the store is to the catalog. -/
def ofStore : StoreError → CatalogError
  | .invalidMove entry destination .cycle => .cycleDetected entry destination
  | .invalidMove entry destination .organizationMismatch =>
    .organizationMismatch entry destination
  | .invalidMove _ destination .notAFolder => .notAFolder destination
  | .invalidMove _ destination .destinationNotFound => .entryNotFound destination
  | .serializationFailure cause => .concurrentModification cause
  | .uniqueViolation | .foreignKeyViolation | .rowNotFound | .failed => .storage

/-- What a failure of the store is where a missing row is a missing organization. -/
def organizationMissing (id : Uuid) : StoreError → CatalogError
  | .rowNotFound => .organizationNotFound id
  | e => ofStore e

/-- What a failure of the store is where a missing row is a missing entry. -/
def entryMissing (id : Uuid) : StoreError → CatalogError
  | .rowNotFound => .entryNotFound id
  | e => ofStore e

/-- What a failure of the store is where a missing row is a missing column. -/
def columnMissing (id : Uuid) : StoreError → CatalogError
  | .rowNotFound => .columnNotFound id
  | e => ofStore e

/-- What a failure is when an entry is stored: a broken reference is blamed on the parent, or on the
organization where there is none. -/
def ofCreation (organization : Uuid) (parent : Option Uuid) : StoreError → CatalogError
  | .foreignKeyViolation =>
    match parent with
    | some id => .notAFolder id
    | none => .organizationNotFound organization
  | e => ofStore e

/-- What a failure is when a column is stored: a broken reference is a missing table. -/
def ofColumnCreation (table : Uuid) : StoreError → CatalogError
  | .foreignKeyViolation => .tableNotFound table
  | e => ofStore e

/-- What a refused query is to the catalog. -/
def ofQuery : QueryError → CatalogError
  | .unimplemented what => .unimplemented what
  | e => .invalidQuery e

end CatalogError
end TableStore
