import TableStore.Http.Service
import TableStore.Json.Printer
import TableStore.Net.IpAddress
import TableStore.Store.Engine

/-!
# Listeners

A listener answers requests at an address, one after the other, from a catalog of its own. The
address is a host and a port from the configuration; the host has to be the number of an address.
Requests and responses can be written as lines.
-/

namespace TableStore.Http

/-! ### Lines -/

/-- Reads a request from a line: a method, an address, and as the body a document, which is what is
left of the line. -/
def Request.ofLine (line : String) : Request :=
  let word (text : List Char) : List Char × List Char := (Text.cutAt ' ' text).getD (text, [])
  let (method, rest) := word (line.toList.filter (· ≠ '\n'))
  let (address, body) := word rest
  ⟨String.ofList method, String.ofList address, [("content-type", "application/json")],
    String.ofList body⟩

/-- The line of a response: its status and its document. -/
def Response.line (r : Response) : String :=
  toString r.status ++ " " ++ (r.body.map Json.compact).getD (reason r.status)

/-! ### Answering -/

/-- A service at an address. -/
structure Listener where
  address : SocketAddress
  policy : OriginPolicy
  limits : Query.Limits
  database : Database

namespace Listener

/-- The message about an address that can't be listened at. -/
def invalidAddressMessage : String :=
  "Invalid listen address: invalid socket address syntax"

/-- The address to listen at. -/
def address? (host : String) (port : Nat) : Option SocketAddress :=
  SocketAddress.read? (host ++ ":" ++ toString port)

/-- Answers a request at a time, with fresh identifiers. The clock of the catalog shows whole
seconds. -/
def answer (l : Listener) (now : Timestamp) (fresh : Nat → Uuid) (r : Request) :
    Response × List LogLine × Listener :=
  let env : Surroundings := ⟨l.limits, .sqlite, now.truncated, fresh⟩
  let a := Http.answer Database.serve l.policy env r l.database
  (a.response, a.log, { l with database := a.state })

end Listener
end TableStore.Http
