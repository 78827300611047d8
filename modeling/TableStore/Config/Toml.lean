import TableStore.Json.Basic
import TableStore.Text.Hex
import TableStore.Text.Scan

/-!
# Settings as TOML

A text of one-line TOML becomes a document: headers open tables, and a line `key = value` puts a
value into the table opened last. Values are strings, integers, floats, booleans, arrays and inline
tables. A text with a line that does not fit, a key that is given twice or a table that is opened
twice has no document.
-/

namespace TableStore.Toml

/-! ### Lexical parts -/

/-- Whether a character separates words within a line. -/
def isSpace (c : Char) : Bool :=
  c == ' ' || c == '\t'

/-- The text after the spaces it begins with. -/
def skipSpace (text : List Char) : List Char :=
  text.dropWhile isSpace

/-- Whether a character may stand in a key without quotes. -/
def isBareKeyChar (c : Char) : Bool :=
  c.isAlphanum || c == '_' || c == '-'

/-- Whether a character may stand in a string as it is. -/
def isPlain (c : Char) : Bool :=
  c == '\t' || (' ' ≤ c && c != '\x7f')

/-- The number that hexadecimal digits write. -/
def hexNumber? (digits : List Char) : Option Nat :=
  digits.foldlM (fun n c => (Text.hexValue? c).map (n * 16 + ·)) 0

/-- The character with a code point, if there is one. -/
def charOf? (code : Nat) : Option Char :=
  if h : code.isValidChar then some (Char.ofNatAux code h) else none

/-- The character of a short escape. -/
def shortEscape? : Char → Option Char
  | 'b' => some '\x08'
  | 't' => some '\t'
  | 'n' => some '\n'
  | 'f' => some '\x0c'
  | 'r' => some '\r'
  | '"' => some '"'
  | '\\' => some '\\'
  | _ => none

/-- The characters of a string with escapes up to its closing quote, and what follows. -/
def readBasic : List Char → Option (List Char × List Char)
  | '"' :: rest => some ([], rest)
  | '\\' :: 'u' :: a :: b :: c :: d :: rest => do
    let char ← charOf? (← hexNumber? [a, b, c, d])
    let (more, rest) ← readBasic rest
    return (char :: more, rest)
  | '\\' :: 'U' :: a :: b :: c :: d :: e :: f :: g :: h :: rest => do
    let char ← charOf? (← hexNumber? [a, b, c, d, e, f, g, h])
    let (more, rest) ← readBasic rest
    return (char :: more, rest)
  | '\\' :: c :: rest => do
    let char ← shortEscape? c
    let (more, rest) ← readBasic rest
    return (char :: more, rest)
  | c :: rest =>
    if isPlain c then (readBasic rest).map fun (more, rest) => (c :: more, rest) else none
  | [] => none

/-- The characters of a string without escapes up to its closing quote, and what follows. -/
def readLiteral (text : List Char) : Option (List Char × List Char) := do
  let (chars, rest) ← Text.cutAt '\'' text
  if chars.all isPlain then some (chars, rest) else none

/-! ### Keys -/

/-- One part of a key. -/
def readKeyPart : List Char → Option (String × List Char)
  | '"' :: rest => (readBasic rest).map fun (chars, rest) => (String.ofList chars, rest)
  | '\'' :: rest => (readLiteral rest).map fun (chars, rest) => (String.ofList chars, rest)
  | text =>
    let key := text.takeWhile isBareKeyChar
    if key.isEmpty then none else some (String.ofList key, text.dropWhile isBareKeyChar)

/-- A key of parts with points between them. Every part takes a character, which bounds their
number. -/
def readKey : Nat → List Char → Option (List String × List Char)
  | 0, _ => none
  | bound + 1, text => do
    let (part, rest) ← readKeyPart (skipSpace text)
    match skipSpace rest with
    | '.' :: rest => do
      let (parts, rest) ← readKey bound rest
      return (part :: parts, rest)
    | rest => return ([part], rest)

/-! ### Values -/

/-- The text of a number without the underscores between digits; there is none where one stands
elsewhere. -/
def withoutUnderscores : List Char → Option (List Char)
  | a :: '_' :: b :: rest =>
    if a.isAlphanum ∧ b.isAlphanum then (withoutUnderscores (b :: rest)).map (a :: ·) else none
  | '_' :: _ => none
  | [_, '_'] => none
  | a :: rest => (withoutUnderscores rest).map (a :: ·)
  | [] => some []

/-- The number that digits of a base write. -/
def inBase? (base : Nat) (digits : List Char) : Option Nat :=
  if digits.isEmpty then none
  else
    digits.foldlM
      (fun n c => do
        let d ← Text.hexValue? c
        if d < base then some (n * base + d) else none)
      0

/-- An integer that fits 64 bits. -/
def integer? (n : Int) : Option Json :=
  if Json.fitsSigned n then some (.num (.int n)) else none

/-- The value of a decimal number, with a sign already read. -/
def decimal? (text : List Char) : Option Json := do
  let (n, rest) ← Numeral.read text
  guard rest.isEmpty
  match n.fraction, n.exponent with
  | none, none =>
    let size : Int := Numeral.value n.whole
    integer? (if n.negative then -size else size)
  | _, _ => n.toBinary64.map fun x => .num (.real x)

/-- The value of a word. -/
def word? (word : List Char) : Option Json := do
  if word = "true".toList then some (.bool true)
  else if word = "false".toList then some (.bool false)
  else if word = "inf".toList ∨ word = "+inf".toList then some (.num (.real .infinity))
  else if word = "-inf".toList then some (.num (.real Binary64.infinity.negate))
  else if word = "nan".toList ∨ word = "+nan".toList ∨ word = "-nan".toList then
    some (.num (.real .nan))
  else
    match ← withoutUnderscores word with
    | '0' :: 'x' :: digits => integer? (← inBase? 16 digits)
    | '0' :: 'o' :: digits => integer? (← inBase? 8 digits)
    | '0' :: 'b' :: digits => integer? (← inBase? 2 digits)
    | '+' :: '-' :: _ => none
    | '+' :: rest => decimal? rest
    | text => decimal? text

/-- Whether a character may stand in a word. -/
def isWordChar (c : Char) : Bool :=
  c.isAlphanum || c == '_' || c == '-' || c == '+' || c == '.'

/-- Puts a value under a key of several parts into a table. What is on the way has to be a table,
and the last part must be new. -/
def assign : List String → Json → Members Json → Option (Members Json)
  | [], _, _ => none
  | [key], value, table =>
    if (table.get? key).isNone then some (table.insert key value) else none
  | key :: rest, value, table =>
    match table.get? key with
    | none => (assign rest value []).map fun inner => table.insert key (.obj inner)
    | some (.obj inner) => (assign rest value inner).map fun inner => table.insert key (.obj inner)
    | some _ => none

mutual

/-- The value at the beginning of a text, and what follows it. The first argument bounds how far it
reaches. -/
def readValue : Nat → List Char → Option (Json × List Char)
  | 0, _ => none
  | bound + 1, text =>
    match text with
    | '"' :: rest => (readBasic rest).map fun (chars, rest) => (.str (String.ofList chars), rest)
    | '\'' :: rest =>
      (readLiteral rest).map fun (chars, rest) => (.str (String.ofList chars), rest)
    | '[' :: rest => (readItems bound rest).map fun (items, rest) => (.arr items, rest)
    | '\x7b' :: rest =>
      match skipSpace rest with
      | '\x7d' :: rest => some (.obj [], rest)
      | rest => (readMembers bound [] rest).map fun (members, rest) => (.obj members, rest)
    | text => (word? (text.takeWhile isWordChar)).map fun j => (j, text.dropWhile isWordChar)

/-- The items of an array up to its closing bracket. -/
def readItems : Nat → List Char → Option (List Json × List Char)
  | 0, _ => none
  | bound + 1, text =>
    match skipSpace text with
    | ']' :: rest => some ([], rest)
    | text => do
      let (item, rest) ← readValue bound text
      match skipSpace rest with
      | ']' :: rest => return ([item], rest)
      | ',' :: rest => do
        let (items, rest) ← readItems bound rest
        return (item :: items, rest)
      | _ => none

/-- The members of an inline table up to its closing brace. -/
def readMembers : Nat → Members Json → List Char → Option (Members Json × List Char)
  | 0, _, _ => none
  | bound + 1, table, text => do
    let (key, rest) ← readKey bound text
    match rest with
    | '=' :: rest => do
      let (value, rest) ← readValue bound (skipSpace rest)
      let table ← assign key value table
      match skipSpace rest with
      | '\x7d' :: rest => return (table, rest)
      | ',' :: rest => readMembers bound table rest
      | _ => none
    | _ => none

end

/-! ### Lines -/

/-- What a line says. -/
inductive Line where
  | blank
  | header (key : List String)
  | assignment (key : List String) (value : Json)

/-- Whether nothing but a comment is left of a line. -/
def isOver (text : List Char) : Bool :=
  match skipSpace text with
  | [] | '#' :: _ => true
  | _ => false

/-- Reads a line. -/
def Line.read (text : List Char) : Option Line :=
  let bound := text.length + 1
  match skipSpace text with
  | [] | '#' :: _ => some .blank
  | '[' :: rest => do
    let (key, rest) ← readKey bound rest
    match rest with
    | ']' :: rest => if isOver rest then some (.header key) else none
    | _ => none
  | text => do
    let (key, rest) ← readKey bound text
    match rest with
    | '=' :: rest => do
      let (value, rest) ← readValue bound (skipSpace rest)
      if isOver rest then some (.assignment key value) else none
    | _ => none

/-- A text without the carriage return at its end. -/
def withoutReturn (text : List Char) : List Char :=
  if text.getLast? = some '\r' then text.dropLast else text

/-! ### Documents -/

/-- A document part way through: its tables, the headers so far, and the last one. -/
structure Draft where
  root : Members Json
  headers : List (List String)
  current : List String

/-- Makes sure that there is a table under a key. -/
def openTable : List String → Members Json → Option (Members Json)
  | [], table => some table
  | key :: rest, table =>
    match table.get? key with
    | none => (openTable rest []).map fun inner => table.insert key (.obj inner)
    | some (.obj inner) => (openTable rest inner).map fun inner => table.insert key (.obj inner)
    | some _ => none

/-- The draft after one more line. -/
def Draft.add (d : Draft) : Line → Option Draft
  | .blank => some d
  | .header key =>
    if d.headers.contains key then none
    else (openTable key d.root).map fun root => ⟨root, key :: d.headers, key⟩
  | .assignment key value =>
    (assign (d.current ++ key) value d.root).map fun root => { d with root := root }

/-- The document that a text writes. -/
def read? (text : String) : Option Json := do
  let lines ← ((Text.pieces '\n' text.toList).map withoutReturn).mapM Line.read
  let draft ← lines.foldlM Draft.add ⟨[], [], []⟩
  return .obj draft.root

end TableStore.Toml
