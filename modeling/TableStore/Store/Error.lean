import TableStore.Text.Quoted
import TableStore.Text.Scan
import TableStore.Uuid

/-!
# Failures of statements

What can go wrong while statements run. The embedded engine is told apart by the text of its
message, the database server by the code of its fault.
-/

namespace TableStore

/-- Why a move is refused. -/
inductive MoveRefusal where
  | cycle
  | organizationMismatch
  | notAFolder
  | destinationNotFound
deriving DecidableEq, Repr

/-- A fault that a database reports. -/
structure DatabaseFault where
  code : Option String
  message : String
deriving DecidableEq, Repr, Inhabited

/-- The fault as it is shown in messages. -/
def DatabaseFault.text (f : DatabaseFault) : String :=
  "Database(PgDatabaseError \x7b severity: Error, code: " ++ Text.quoted (f.code.getD "") ++
    ", message: " ++ Text.quoted f.message ++
    ", detail: None, hint: None, position: None, where: None, schema: None, table: None, " ++
    "column: None, data_type: None, constraint: None, file: None, line: None, routine: None \x7d)"

/-- How an operation of the store can fail. -/
inductive StoreError where
  | uniqueViolation
  | foreignKeyViolation
  /-- A serializable transaction lost to a concurrent one. -/
  | serializationFailure (cause : DatabaseFault)
  | invalidMove (entry destination : Uuid) (reason : MoveRefusal)
  /-- A statement that has to find a row found none. -/
  | rowNotFound
  | failed
deriving DecidableEq

namespace StoreError

/-- What a fault of the embedded engine means. -/
def ofEngineMessage (message : String) : StoreError :=
  if Text.contains message "FOREIGN KEY constraint failed" then .foreignKeyViolation
  else if Text.contains message "UNIQUE constraint failed" then .uniqueViolation
  else .failed

/-- What a fault of the database server means. -/
def ofServerFault (fault : DatabaseFault) : StoreError :=
  if fault.code = some "23505" then .uniqueViolation
  else if fault.code = some "23503" then .foreignKeyViolation
  else if fault.code = some "40001" then .serializationFailure fault
  else .failed

end StoreError
end TableStore
