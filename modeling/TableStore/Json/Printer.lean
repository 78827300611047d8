import TableStore.Json.Basic
import TableStore.Text.Hex

/-!
# Compact text of documents

Documents as text without any blanks. Inside strings only the quote, the backslash and the controls
are escaped.
-/

namespace TableStore.Json

/-- How one character is written inside a string. -/
def escapeChar (c : Char) : List Char :=
  match c with
  | '"' => ['\\', '"']
  | '\\' => ['\\', '\\']
  | '\x08' => ['\\', 'b']
  | '\x0c' => ['\\', 'f']
  | '\n' => ['\\', 'n']
  | '\r' => ['\\', 'r']
  | '\t' => ['\\', 't']
  | c => if c < ' ' then ['\\', 'u'] ++ Text.hexText 4 c.toNat else [c]

/-- A string in quotes. -/
def escape (s : String) : String :=
  String.ofList ('"' :: s.toList.flatMap escapeChar ++ ['"'])

/-- The text of a number. -/
def numberText : JsonNumber → String
  | .int n => toString n
  | .real x => x.documentText

mutual

/-- The compact text of a document. -/
def compact : Json → String
  | .null => "null"
  | .bool true => "true"
  | .bool false => "false"
  | .num n => numberText n
  | .str s => escape s
  | .arr items => "[" ++ ",".intercalate (compactList items) ++ "]"
  | .obj members => "\x7b" ++ ",".intercalate (compactMembers members) ++ "\x7d"

def compactList : List Json → List String
  | [] => []
  | item :: rest => compact item :: compactList rest

def compactMembers : List (String × Json) → List String
  | [] => []
  | (key, value) :: rest => (escape key ++ ":" ++ compact value) :: compactMembers rest

end

end TableStore.Json
