import TableStore.Http.Message

/-!
# Requests from other origins

A browser says which origin a request comes from, and asks before it sends one that changes
something. `OriginPolicy.judge` decides about both.
-/

namespace TableStore.Http

/-! ### Origins -/

namespace Origin

/-- Whether a character may stand in the name of a scheme. -/
def isSchemeChar (c : Char) : Bool :=
  c.isAlphanum || "+-.~".toList.contains c

/-- Whether a character may stand in an authority. -/
def isAuthorityChar (c : Char) : Bool :=
  c.isAlphanum || "!$&'()*+,-.:;=@[]_~%".toList.contains c

/-- What has been seen of an authority. -/
structure Seen where
  colons : Nat
  opened : Bool
  closed : Bool
  percent : Bool

/-- Looks at one more character of an authority. A host in brackets hides its colons, and so does
what stands before an at sign, which may have percent signs too. -/
def Seen.step? (s : Seen) (c : Char) : Option Seen :=
  match c with
  | ':' => if 8 ≤ s.colons then none else some { s with colons := s.colons + 1 }
  | '[' => if s.percent || s.opened then none else some { s with opened := true }
  | ']' =>
    if s.opened && !s.closed then some { s with closed := true, colons := 0, percent := false }
    else none
  | '@' => some { s with colons := 0, percent := false }
  | '%' => some { s with percent := true }
  | c => if isAuthorityChar c then some s else none

/-- Whether a text is the authority of an origin: a host with at most one port. -/
def isAuthority (text : List Char) : Bool :=
  match text.foldlM Seen.step? ⟨0, false, false, false⟩ with
  | some s => s.opened == s.closed && s.colons ≤ 1 && !s.percent && text ≠ [] &&
      text.getLast? ≠ some '@'
  | none => false

/-- The name of a scheme as origins are compared: the usual ones in lower case. -/
def schemeName (scheme : String) : String :=
  if ["http", "https"].contains scheme.toLower then scheme.toLower else scheme

/-- Reads an origin: a scheme and an authority. A slash after it does not count, and neither does
what follows a number sign. -/
def read? (text : String) : Option String := do
  let (scheme, rest) ← Text.cutAt ':' text.toList
  let rest ← Text.stripHead? (String.ofList rest) "//"
  let ends (c : Char) : Bool := c = '/' || c = '?' || c = '#'
  let authority := rest.toList.takeWhile fun c => !ends c
  let path := (rest.toList.dropWhile fun c => !ends c).takeWhile (· ≠ '#')
  if scheme.all isSchemeChar && scheme.length ≤ 64 && isAuthority authority &&
      (path = [] || path = ['/']) then
    some (schemeName (String.ofList scheme) ++ "://" ++ String.ofList authority)
  else none

end Origin

/-! ### Policies -/

/-- Which origins may send requests: any, or those of a list. -/
inductive OriginPolicy where
  | any
  | only (origins : List String)
deriving DecidableEq

/-- What is decided about a request. -/
inductive Verdict where
  /-- The request does not come from another origin. -/
  | plain
  | allowed (origin : String)
  /-- The question whether a request may be sent is answered with yes. -/
  | preflight (origin : String)
  | forbidden
deriving DecidableEq, Repr

namespace OriginPolicy

/-- The policy of a list of origins, in which a star stands for any. There is none where the list
has a text that is no origin. -/
def ofList? (origins : List String) : Option OriginPolicy :=
  if origins.contains "*" then some .any else (origins.mapM Origin.read?).map .only

def allows : OriginPolicy → String → Bool
  | .any, _ => true
  | .only origins, origin => origins.contains origin

/-- The methods that may be asked for. -/
def methods : List String :=
  ["GET", "POST", "PATCH", "DELETE"]

/-- The header that may be asked for. -/
def allowsHeader (name : String) : Bool :=
  name.toLower == "content-type"

/-- Whether method and headers that are asked for may be used. -/
def allowsUse (r : Request) : Bool :=
  (match r.header? "access-control-request-method" with
    | some method => methods.contains method
    | none => false) &&
  match r.header? "access-control-request-headers" with
  | some names => (Text.pieces ',' names.toList).all fun name => allowsHeader (String.ofList name)
  | none => true

/-- Decides about a request. -/
def judge (policy : OriginPolicy) (r : Request) : Verdict :=
  match r.header? "origin" with
  | none => .plain
  | some origin =>
    if !policy.allows origin then .forbidden
    else if r.method = "OPTIONS" then
      if allowsUse r then .preflight origin else .forbidden
    else .allowed origin

end OriginPolicy
end TableStore.Http
