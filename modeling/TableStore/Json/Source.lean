import TableStore.Json.Basic
import TableStore.Text.Hex

/-!
# Documents as they stand in a text

Reading a text as JSON goes in two steps. `Source.read` checks the grammar alone: its result keeps
members in the order of the text, repeated keys included, and marks numbers that are too large and
strings with half a surrogate pair as having no value. `Source.value?` then takes the value, which
such a part, or nesting beyond `nestingBound`, prevents. So a part that nobody takes may be any text
that fits the grammar.

Stored documents are read from texts of their own (`Json.readBack?`).
-/

namespace TableStore

/-- A text that fits the grammar. Numbers and strings may lack a value. -/
inductive Source where
  | null
  | bool (b : Bool)
  | num (n : Option JsonNumber)
  | str (s : Option String)
  | arr (items : List Source)
  | obj (members : List (Option String × Source))
deriving Inhabited

namespace Source

/-! ### Tokens -/

inductive Token where
  | openObject | closeObject | openArray | closeArray | colon | comma
  | null
  | bool (b : Bool)
  | num (n : Option JsonNumber)
  | str (s : Option String)

/-- A piece of a string: a character, or half of a surrogate pair that was spelled out. -/
inductive Unit16 where
  | char (c : Char)
  | half (code : Nat)

/-- The piece with a code point below `2 ^ 16`. -/
def unitOf (code : Nat) : Unit16 :=
  if 0xd800 ≤ code ∧ code ≤ 0xdfff then .half code else .char (Char.ofNat code)

/-- The character of a short escape. -/
def shortEscape? : Char → Option Char
  | '"' => some '"'
  | '\\' => some '\\'
  | '/' => some '/'
  | 'b' => some '\x08'
  | 'f' => some '\x0c'
  | 'n' => some '\n'
  | 'r' => some '\r'
  | 't' => some '\t'
  | _ => none

/-- The pieces of a string up to its closing quote, and what follows. -/
def scanString : List Char → Option (List Unit16 × List Char)
  | '"' :: rest => some ([], rest)
  | '\\' :: 'u' :: a :: b :: c :: d :: rest => do
    let code := (← Text.hexValue? a) * 4096 + (← Text.hexValue? b) * 256 +
      (← Text.hexValue? c) * 16 + (← Text.hexValue? d)
    let (units, rest) ← scanString rest
    return (unitOf code :: units, rest)
  | '\\' :: c :: rest => do
    let c ← shortEscape? c
    let (units, rest) ← scanString rest
    return (.char c :: units, rest)
  | c :: rest =>
    if c < ' ' then none
    else (scanString rest).map fun (units, rest) => (.char c :: units, rest)
  | [] => none

/-- The characters of a string; nothing where half a surrogate pair stands alone. -/
def joinUnits : List Unit16 → Option (List Char)
  | [] => some []
  | .char c :: rest => (joinUnits rest).map (c :: ·)
  | .half high :: .half low :: rest =>
    if high ≤ 0xdbff ∧ 0xdc00 ≤ low then
      (joinUnits rest).map (Char.ofNat (0x10000 + (high - 0xd800) * 1024 + (low - 0xdc00)) :: ·)
    else none
  | .half _ :: _ => none

/-- The value of a numeral: an integer if it is written as one other than minus zero and fits, else
a double. -/
def numberOf (n : Numeral) : Option JsonNumber :=
  match n.fraction, n.exponent with
  | none, none =>
    let size := Numeral.value n.whole
    if n.negative then
      if 0 < size ∧ size ≤ Json.maxSigned + 1 then some (.int (-size)) else n.toBinary64.map .real
    else if size < significandBound then some (.int size)
    else n.toBinary64.map .real
  | _, _ => n.toBinary64.map .real

/-- The token at the beginning of a text that does not begin with a blank, and what follows it. -/
def token? : List Char → Option (Token × List Char)
  | '\x7b' :: rest => some (.openObject, rest)
  | '\x7d' :: rest => some (.closeObject, rest)
  | '[' :: rest => some (.openArray, rest)
  | ']' :: rest => some (.closeArray, rest)
  | ':' :: rest => some (.colon, rest)
  | ',' :: rest => some (.comma, rest)
  | 'n' :: 'u' :: 'l' :: 'l' :: rest => some (.null, rest)
  | 't' :: 'r' :: 'u' :: 'e' :: rest => some (.bool true, rest)
  | 'f' :: 'a' :: 'l' :: 's' :: 'e' :: rest => some (.bool false, rest)
  | '"' :: rest => (scanString rest).map fun (units, rest) =>
    (.str ((joinUnits units).map String.ofList), rest)
  | text => (Numeral.read text).map fun (n, rest) => (.num (numberOf n), rest)

/-- The tokens of a text. Every token takes a character, so the length of the text bounds their
number. -/
def tokensFrom : Nat → List Char → Option (List Token)
  | 0, text => if text.isEmpty then some [] else none
  | bound + 1, text =>
    match text.dropWhile fun c => c = ' ' || c = '\n' || c = '\t' || c = '\r' with
    | [] => some []
    | text => do
      let (token, rest) ← token? text
      let more ← tokensFrom bound rest
      return token :: more

/-! ### Trees -/

/-- A container part way through, its parts in reverse. -/
inductive Frame where
  | arr (items : List Source)
  | obj (members : List (Option String × Source)) (key : Option String)

/-- What may come next. -/
inductive Expect where
  | value
  | firstItem
  | key
  | firstKey
  | colon
  | commaOrClose
  | nothing (read : Source)

/-- A reader between two tokens: the open containers, the innermost first. -/
structure Reader where
  frames : List Frame
  expect : Expect

/-- The reader after a whole value. -/
def Reader.give (frames : List Frame) (v : Source) : Reader :=
  match frames with
  | [] => ⟨[], .nothing v⟩
  | .arr items :: outer => ⟨.arr (v :: items) :: outer, .commaOrClose⟩
  | .obj members key :: outer => ⟨.obj ((key, v) :: members) none :: outer, .commaOrClose⟩

/-- The reader after a token where a value may stand. -/
def Reader.begin (frames : List Frame) : Token → Option Reader
  | .null => some (give frames .null)
  | .bool b => some (give frames (.bool b))
  | .num n => some (give frames (.num n))
  | .str s => some (give frames (.str s))
  | .openArray => some ⟨.arr [] :: frames, .firstItem⟩
  | .openObject => some ⟨.obj [] none :: frames, .firstKey⟩
  | _ => none

/-- The reader after one more token. -/
def Reader.step (r : Reader) (t : Token) : Option Reader :=
  match r.expect, t, r.frames with
  | .firstItem, .closeArray, .arr items :: outer => some (give outer (.arr items.reverse))
  | .firstKey, .closeObject, .obj members _ :: outer => some (give outer (.obj members.reverse))
  | .value, t, frames | .firstItem, t, frames => begin frames t
  | .key, .str s, .obj members _ :: outer | .firstKey, .str s, .obj members _ :: outer =>
    some ⟨.obj members s :: outer, .colon⟩
  | .colon, .colon, frames => some ⟨frames, .value⟩
  | .commaOrClose, .comma, .arr items :: outer => some ⟨.arr items :: outer, .value⟩
  | .commaOrClose, .comma, .obj members key :: outer => some ⟨.obj members key :: outer, .key⟩
  | .commaOrClose, .closeArray, .arr items :: outer => some (give outer (.arr items.reverse))
  | .commaOrClose, .closeObject, .obj members _ :: outer =>
    some (give outer (.obj members.reverse))
  | _, _, _ => none

/-- The one document that a text holds. -/
def read (text : String) : Option Source := do
  let chars := text.toList
  let tokens ← tokensFrom (chars.length + 1) chars
  let last ← tokens.foldlM Reader.step ⟨[], .value⟩
  match last.expect with
  | .nothing v => some v
  | _ => none

/-! ### Values -/

/-- How deep documents may nest: a container at this depth has no value. -/
def nestingBound : Nat :=
  128

mutual

/-- The value of a document that stands inside `depth` containers. -/
def valueAt? (depth : Nat) : Source → Option Json
  | .null => some .null
  | .bool b => some (.bool b)
  | .num n => n.map .num
  | .str s => s.map .str
  | .arr items =>
    if nestingBound ≤ depth + 1 then none
    else (valuesAt? (depth + 1) items).map .arr
  | .obj members =>
    if nestingBound ≤ depth + 1 then none
    else (membersAt? (depth + 1) members).map fun members => .obj (Members.ofList members)

def valuesAt? (depth : Nat) : List Source → Option (List Json)
  | [] => some []
  | item :: rest => do return (← valueAt? depth item) :: (← valuesAt? depth rest)

def membersAt? (depth : Nat) : List (Option String × Source) → Option (List (String × Json))
  | [] => some []
  | (key, value) :: rest => do
    return (← key, ← valueAt? depth value) :: (← membersAt? depth rest)

end

mutual

/-- The value of a document however deep it nests. -/
def value? : Source → Option Json
  | .null => some .null
  | .bool b => some (.bool b)
  | .num n => n.map .num
  | .str s => s.map .str
  | .arr items => (values? items).map .arr
  | .obj members => (valueMembers? members).map fun members => .obj (Members.ofList members)

def values? : List Source → Option (List Json)
  | [] => some []
  | item :: rest => do return (← value? item) :: (← values? rest)

def valueMembers? : List (Option String × Source) → Option (List (String × Json))
  | [] => some []
  | (key, value) :: rest => do return (← key, ← value? value) :: (← valueMembers? rest)

end

mutual

/-- A document as it stands in its own text, where its doubles read as `Binary64.reread` says. -/
def ofJson : Json → Source
  | .null => .null
  | .bool b => .bool b
  | .num (.int n) => .num (some (.int n))
  | .num (.real x) => .num (some (.real x.reread))
  | .str s => .str (some s)
  | .arr items => .arr (ofItems items)
  | .obj members => .obj (ofMembers members)

def ofItems : List Json → List Source
  | [] => []
  | item :: rest => ofJson item :: ofItems rest

def ofMembers : List (String × Json) → List (Option String × Source)
  | [] => []
  | (key, value) :: rest => (some key, ofJson value) :: ofMembers rest

end

end Source

/-- The document that a text holds, however deep it nests. -/
def Json.read? (text : String) : Option Json :=
  (Source.read text).bind Source.value?

/-- A document read from its own text; nothing where it nests too deep. -/
def Json.readBack? (j : Json) : Option Json :=
  (Source.ofJson j).valueAt? 0

end TableStore
