import TableStore.Net.IpAddress
import TableStore.Text.Percent

/-!
# Addresses of database servers

A database server is named by a URL: a scheme, and after two slashes perhaps a user, a host and a
port, then a path and parameters. `ServerAddress.isWellFormed` says whether a text is such a URL and
its parameters can be understood; one that is not is refused before anything is sent.
-/

namespace TableStore.ServerAddress

/-- The text without blanks and control characters at its ends, and without line breaks and tabs
anywhere. -/
def cleaned (text : List Char) : List Char :=
  let isEdge (c : Char) : Bool := c ≤ ' '
  let inner := ((text.dropWhile isEdge).reverse.dropWhile isEdge).reverse
  inner.filter fun c => c ≠ '\t' && c ≠ '\n' && c ≠ '\r'

/-- What follows the scheme and its colon. -/
def afterScheme? (text : List Char) : Option (List Char) := do
  let (scheme, rest) ← Text.cutAt ':' text
  let isSchemeChar (c : Char) : Bool := c.isAlphanum || c == '+' || c == '-' || c == '.'
  match scheme with
  | c :: more => if c.isAlpha ∧ more.all isSchemeChar then some rest else none
  | [] => none

/-- Characters that no host has. -/
def forbiddenInHost : List Char :=
  ['\x00', ' ', '#', '/', ':', '<', '>', '?', '@', '[', '\\', ']', '^', '|']

/-- The text after the last `@`, or all of it, and whether there was something before. -/
def afterUser (authority : List Char) : Bool × List Char :=
  match Text.cutAt '@' authority.reverse with
  | some (host, user) => (!user.isEmpty, host.reverse)
  | none => (false, authority)

/-- Whether a text is empty or a colon and a port. -/
def isPortPart : List Char → Bool
  | [] => true
  | ':' :: digits =>
    digits.isEmpty ||
      (digits.all Char.isDigit && (IpAddress.readNumber 10 65536 digits).isSome)
  | _ => false

/-- Whether user, host and port fit. -/
def isAuthority (authority : List Char) : Bool :=
  let (hasUser, place) := afterUser authority
  match place with
  | '[' :: rest =>
    match Text.cutAt ']' rest with
    | some (host, port) =>
      (match IpAddress.readV6 host with
        | some (_, []) => true
        | _ => false) && isPortPart port
    | none => false
  | place =>
    let host := place.takeWhile (· ≠ ':')
    let port := place.dropWhile (· ≠ ':')
    !host.any forbiddenInHost.contains && isPortPart port &&
      !(host.isEmpty && (hasUser || !port.isEmpty))

/-- Whether a parameter can be understood; unknown ones always can. -/
def isParameter (name value : String) : Bool :=
  if name = "sslmode" ∨ name = "ssl-mode" then
    ["disable", "allow", "prefer", "require", "verify-ca", "verify-full"].contains value.toLower
  else if name = "statement-cache-capacity" then isNumber value (Nat.pow 2 64)
  else if name = "port" then isNumber value 65536
  else if name = "hostaddr" then (IpAddress.read? value).isSome
  else true
where
  /-- Whether a text is a number below a bound. -/
  isNumber (value : String) (bound : Nat) : Bool :=
    let digits :=
      match value.toList with
      | '+' :: rest => rest
      | chars => chars
    match IpAddress.readNumber 10 bound digits with
    | some (_, []) => true
    | _ => false

/-- Whether a text is the address of a database server. -/
def isWellFormed (dsn : String) : Bool :=
  match afterScheme? (cleaned dsn.toList) with
  | none => false
  | some rest =>
    let parameters :=
      match Text.cutAt '?' (rest.takeWhile (· ≠ '#')) with
      | some (_, query) => Text.Percent.pairs (String.ofList query)
      | none => []
    let placed :=
      match rest with
      | '/' :: '/' :: rest =>
        isAuthority (rest.takeWhile fun c => c ≠ '/' && c ≠ '?' && c ≠ '#')
      | _ => true
    placed && parameters.all fun (name, value) => isParameter name value

end TableStore.ServerAddress
