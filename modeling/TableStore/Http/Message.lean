import TableStore.Json.Basic
import TableStore.Text.Scan

/-!
# Requests and responses

HTTP requests as the service sees them, and its responses: a status and perhaps a document. The
address of a request has a path and a query string; what follows a number sign does not count.
-/

namespace TableStore.Http

/-- A request. Names of headers are in lower case. -/
structure Request where
  method : String
  address : String
  headers : List (String × String)
  body : String
deriving DecidableEq, Inhabited

namespace Request

/-- The value of a header. -/
def header? (r : Request) (name : String) : Option String :=
  (r.headers.find? fun h => h.1 == name).map Prod.snd

/-- The address without what follows a number sign. -/
def target (r : Request) : List Char :=
  r.address.toList.takeWhile (· ≠ '#')

def path (r : Request) : String :=
  String.ofList (r.target.takeWhile (· ≠ '?'))

/-- What follows the first question mark, or nothing. -/
def query (r : Request) : String :=
  match Text.cutAt '?' r.target with
  | some (_, query) => String.ofList query
  | none => ""

/-- The segments of the path. A slash at the end does not count. -/
def segments (r : Request) : List String :=
  let path := r.path.toList
  let path := if path.head? = some '/' then path.tail else path
  let pieces := Text.pieces '/' path
  (if pieces.getLast? = some [] then pieces.dropLast else pieces).map String.ofList

end Request

/-- A response. -/
structure Response where
  status : Nat
  body : Option Json
  /-- The origin that may read the response. -/
  allowedOrigin : Option String
deriving DecidableEq, Inhabited

/-- The words that go with a status. -/
def reason : Nat → String
  | 200 => "OK"
  | 201 => "Created"
  | 204 => "No Content"
  | 400 => "Bad Request"
  | 403 => "Forbidden"
  | 404 => "Not Found"
  | 405 => "Method Not Allowed"
  | 415 => "Unsupported Media Type"
  | 500 => "Internal Server Error"
  | 501 => "Not Implemented"
  | _ => ""

/-- Why a request is turned away before anything is done. -/
inductive Rejection where
  | badRequest
  | forbidden
  | notFound
  | methodNotAllowed
  | unsupportedMediaType
deriving DecidableEq, Repr

def Rejection.status : Rejection → Nat
  | .badRequest => 400
  | .forbidden => 403
  | .notFound => 404
  | .methodNotAllowed => 405
  | .unsupportedMediaType => 415

end TableStore.Http
