import TableStore.Text.Hex

/-!
# Internet addresses

Addresses of version 4, four numbers with points between them, and of version 6, eight groups of
hexadecimal digits with colons between them, of which one run of zeros may be left out. A socket
address adds a port; an address of version 6 then stands in brackets, with a scope if it has one.
-/

namespace TableStore

/-- An address. -/
inductive IpAddress where
  | v4 (bytes : List Nat)
  | v6 (groups : List Nat)
deriving DecidableEq, Repr

/-- An address with a port, and the scope of an address of version 6. -/
structure SocketAddress where
  ip : IpAddress
  scope : Nat
  port : Nat
deriving DecidableEq, Repr

namespace IpAddress

/-! ### Numbers -/

/-- The value of a digit in a base. -/
def digit? (base : Nat) (c : Char) : Option Nat :=
  (Text.hexValue? c).bind fun d => if d < base then some d else none

/-- The digits at the beginning of a text, and what follows them. -/
def digits (base : Nat) : List Char → List Nat × List Char
  | [] => ([], [])
  | c :: rest =>
    match digit? base c with
    | some d =>
      let (more, left) := digits base rest
      (d :: more, left)
    | none => ([], c :: rest)

/-- The number that digits of a base write. -/
def value (base : Nat) (ds : List Nat) : Nat :=
  ds.foldl (fun n d => n * base + d) 0

/-- Reads a number below `bound`. -/
def readNumber (base bound : Nat) (text : List Char) : Option (Nat × List Char) :=
  let (ds, rest) := digits base text
  let n := value base ds
  if ds.isEmpty ∨ bound ≤ n then none else some (n, rest)

/-- Reads a byte in decimal, without zeros in front. -/
def readByte (text : List Char) : Option (Nat × List Char) :=
  match digits 10 text with
  | (0 :: _ :: _, _) => none
  | (ds, _) => if 3 < ds.length then none else readNumber 10 256 text

/-- Reads a group of at most four hexadecimal digits. -/
def readGroup (text : List Char) : Option (Nat × List Char) :=
  if 4 < (digits 16 text).1.length then none else readNumber 16 65536 text

/-- Reads one given character. -/
def readMark (mark : Char) : List Char → Option (List Char)
  | c :: rest => if c = mark then some rest else none
  | [] => none

/-! ### Addresses -/

/-- Reads four bytes with points between them. -/
def readV4 (text : List Char) : Option (List Nat × List Char) := do
  let (a, text) ← readByte text
  let (b, text) ← readByte (← readMark '.' text)
  let (c, text) ← readByte (← readMark '.' text)
  let (d, text) ← readByte (← readMark '.' text)
  return ([a, b, c, d], text)

/-- What follows a colon, or the whole text if it is the beginning. -/
def afterColon (first : Bool) (text : List Char) : Option (List Char) :=
  if first then some text else readMark ':' text

/-- Reads at most `limit` groups with colons between them, the last two of which may be written as
an address of version 4. Says whether they are. -/
def readGroups : (limit : Nat) → (first : Bool) → List Char → List Nat × Bool × List Char
  | 0, _, text => ([], false, text)
  | limit + 1, first, text =>
    -- an address of version 4 takes the room of two groups
    let embedded :=
      if limit = 0 then none else (afterColon first text).bind readV4
    match embedded with
    | some ([a, b, c, d], rest) => ([a * 256 + b, c * 256 + d], true, rest)
    | _ =>
      match (afterColon first text).bind readGroup with
      | some (group, rest) =>
        let (groups, embedded, rest) := readGroups limit false rest
        (group :: groups, embedded, rest)
      | none => ([], false, text)

/-- Reads eight groups, or fewer with two colons for the zeros that are left out. -/
def readV6 (text : List Char) : Option (List Nat × List Char) :=
  let (front, embedded, rest) := readGroups 8 true text
  if front.length = 8 then some (front, rest)
  else if embedded then none
  else do
    -- what is left out is at least one group
    let rest ← readMark ':' (← readMark ':' rest)
    let (back, _, rest) := readGroups (7 - front.length) true rest
    return (front ++ List.replicate (8 - front.length - back.length) 0 ++ back, rest)

/-- Reads an address. -/
def read? (text : String) : Option IpAddress :=
  match readV4 text.toList with
  | some (bytes, []) => some (.v4 bytes)
  | _ =>
    match readV6 text.toList with
    | some (groups, []) => some (.v6 groups)
    | _ => none

/-! ### Text -/

def v4Text (bytes : List Nat) : String :=
  ".".intercalate (bytes.map toString)

/-- A group without zeros in front. -/
def groupText (group : Nat) : String :=
  String.ofList (Nat.toDigits 16 group)

def groupsText (groups : List Nat) : String :=
  ":".intercalate (groups.map groupText)

/-- The length of the run of zeros at a position. -/
def zerosAt (groups : List Nat) (position : Nat) : Nat :=
  ((groups.drop position).takeWhile (· == 0)).length

/-- The first of the longest runs of zeros, if it is longer than one. -/
def longestZeros (groups : List Nat) : Option (Nat × Nat) :=
  let runs := (List.range groups.length).map fun position => (position, zerosAt groups position)
  let longest := (runs.map Prod.snd).foldl max 0
  if longest ≤ 1 then none else runs.find? fun run => run.2 == longest

/-- The text of an address of version 6: the longest run of zeros is left out. One that stands for
an address of version 4 ends in that. -/
def v6Text (groups : List Nat) : String :=
  match groups with
  | [0, 0, 0, 0, 0, 0xffff, a, b] =>
    "::ffff:" ++ v4Text [a / 256, a % 256, b / 256, b % 256]
  | groups =>
    match longestZeros groups with
    | some (position, length) =>
      groupsText (groups.take position) ++ "::" ++ groupsText (groups.drop (position + length))
    | none => groupsText groups

end IpAddress

namespace SocketAddress

open IpAddress

/-- Reads a port after a colon, to the end. -/
def readPort (text : List Char) : Option Nat := do
  match ← readNumber 10 65536 (← readMark ':' text) with
  | (port, []) => some port
  | _ => none

/-- Reads a scope after a percent sign, if there is one. -/
def readScope (text : List Char) : Nat × List Char :=
  match (readMark '%' text).bind (readNumber 10 (Nat.pow 2 32)) with
  | some (scope, rest) => (scope, rest)
  | none => (0, text)

/-- Reads a socket address. -/
def read? (text : String) : Option SocketAddress :=
  match text.toList with
  | '[' :: rest => do
    let (groups, rest) ← readV6 rest
    let (scope, rest) := readScope rest
    return ⟨.v6 groups, scope, ← readPort (← readMark ']' rest)⟩
  | chars => do
    let (bytes, rest) ← readV4 chars
    return ⟨.v4 bytes, 0, ← readPort rest⟩

/-- The address without its port. -/
def hostText (a : SocketAddress) : String :=
  match a.ip with
  | .v4 bytes => v4Text bytes
  | .v6 groups =>
    "[" ++ v6Text groups ++ (if a.scope = 0 then "" else "%" ++ toString a.scope) ++ "]"

end SocketAddress
end TableStore
