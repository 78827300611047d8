import TableStore.Http.Body
import TableStore.Http.MediaType
import TableStore.Http.Message
import TableStore.Http.Parameters

/-!
# Routes

Which operation a request asks for. The path and the method of a request lead to at most one
endpoint (`endpoints`), which reads the rest of the operation from the body or the query string.
-/

namespace TableStore.Http

/-- What a path and a method lead to. -/
inductive Endpoint where
  | createOrganization
  | listOrganizations
  | getOrganization (id : Uuid)
  | renameOrganization (id : Uuid)
  | deleteOrganization (id : Uuid)
  | createEntry (organization : Uuid) (type : EntryType)
  | listChildren (parent : Parent)
  | getEntry (id : Uuid)
  | updateEntry (id : Uuid)
  | deleteEntry (id : Uuid)
  | moveEntry (id : Uuid)
  | listColumns (table : Uuid)
  | createColumn (table : Uuid)
  | reorderColumns (table : Uuid)
  | updateColumn (table column : Uuid)
  | deleteColumn (table column : Uuid)
  | query (table : Uuid)
deriving DecidableEq

namespace Endpoint

/-- The endpoints at the path with the given segments, each with its method. -/
def atPath : List String → List (String × Endpoint)
  | ["organizations"] => [("POST", .createOrganization), ("GET", .listOrganizations)]
  | ["organizations", id] =>
    match Uuid.read? id with
    | some id =>
      [("GET", .getOrganization id), ("PATCH", .renameOrganization id),
        ("DELETE", .deleteOrganization id)]
    | none => []
  | ["organizations", id, part] =>
    match Uuid.read? id, part with
    | some id, "folders" => [("POST", .createEntry id .folder)]
    | some id, "tables" => [("POST", .createEntry id .table)]
    | some id, "children" => [("GET", .listChildren (.root id))]
    | _, _ => []
  | ["entries", id] =>
    match Uuid.read? id with
    | some id => [("GET", .getEntry id), ("PATCH", .updateEntry id), ("DELETE", .deleteEntry id)]
    | none => []
  | ["entries", id, part] =>
    match Uuid.read? id, part with
    | some id, "children" => [("GET", .listChildren (.folder id))]
    | some id, "move" => [("POST", .moveEntry id)]
    | _, _ => []
  | ["tables", table, part] =>
    match Uuid.read? table, part with
    | some table, "columns" => [("GET", .listColumns table), ("POST", .createColumn table)]
    | some table, "query" => [("POST", .query table)]
    | _, _ => []
  | ["tables", table, "columns", part] =>
    match Uuid.read? table with
    | some table =>
      if part = "reorder" then [("POST", .reorderColumns table)]
      else
        match Uuid.read? part with
        | some column =>
          [("PATCH", .updateColumn table column), ("DELETE", .deleteColumn table column)]
        | none => []
    | none => []
  | _ => []

/-- The endpoint of a request. -/
def of (r : Request) : Except Rejection Endpoint :=
  match atPath r.segments with
  | [] => .error .notFound
  | endpoints =>
    match endpoints.find? fun e => e.1 == r.method with
    | some (_, e) => .ok e
    | none => .error .methodNotAllowed

/-- What is read from the body of a request, which has to be a document. -/
def fromBody {α : Type} (r : Request) (read : Source → Option α) : Except Rejection α :=
  let typeFits :=
    match r.header? "content-type" with
    | some type => MediaType.isJson type
    | none => true
  if !typeFits then .error .unsupportedMediaType
  else
    match (Source.read r.body).bind read with
    | some answer => .ok answer
    | none => .error .badRequest

/-- What is read from the query string of a request. -/
def fromQuery {α : Type} (r : Request) (read : String → Option α) : Except Rejection α :=
  match read r.query with
  | some answer => .ok answer
  | none => .error .badRequest

/-- The operation that a request to an endpoint asks for. -/
def operation (r : Request) : Endpoint → Except Rejection Operation
  | .createOrganization => do return .createOrganization (← fromBody r Body.organizationName)
  | .listOrganizations => return .listOrganizations
  | .getOrganization id => return .getOrganization id
  | .renameOrganization id => do
    return .renameOrganization id (← fromBody r Body.organizationName)
  | .deleteOrganization id => return .deleteOrganization id
  | .createEntry organization type => do
    let (parent, properties, columns) ← fromBody r Body.newEntry
    return .createEntry organization type parent properties columns
  | .listChildren parent => do
    let p ← fromQuery r Parameters.list?
    return .listChildren parent p.sort p.offset p.limit p.path
  | .getEntry id => do return .getEntry id (← fromQuery r Parameters.entry?)
  | .updateEntry id => do return .updateProperties id (← fromBody r Body.properties)
  | .deleteEntry id => return .deleteEntry id
  | .moveEntry id => do return .moveEntry id (← fromBody r Body.destination)
  | .listColumns table => return .listColumns table
  | .createColumn table => do
    let (definition, index) ← fromBody r Body.newColumn
    return .createColumn table definition index
  | .reorderColumns table => do return .reorderColumns table (← fromBody r Body.columnIds)
  | .updateColumn table column => do
    return .updateColumn table column (← fromBody r Body.changes)
  | .deleteColumn table column => return .deleteColumn table column
  | .query table => do return .query table (← fromBody r Body.document)

/-- The operation that a request asks for. -/
def operationOf (r : Request) : Except Rejection Operation := do
  operation r (← Endpoint.of r)

end Endpoint
end TableStore.Http
