import TableStore.Text.Scan

/-!
# Media types

The type of a body: two names with a slash between them, perhaps a suffix after a plus sign, and
parameters after semicolons. `MediaType.isJson` says whether a text is a media type of documents.
-/

namespace TableStore.Http.MediaType

/-- Whether a character may stand in a name. -/
def isTokenChar (c : Char) : Bool :=
  c.isAlphanum || "!#$%&'*+-.^_`|~".toList.contains c

/-- Whether a character may stand in a value between quotes. -/
def isQuotedChar (c : Char) : Bool :=
  ' ' ≤ c && c < '\x7f' && c != '"'

/-- What follows a value of a parameter, a next parameter, if the value fits. -/
def afterValue? : List Char → Option (List Char)
  | '"' :: rest => do
    let (value, rest) ← Text.cutAt '"' rest
    if value.isEmpty ∨ !value.all isQuotedChar then none
    else
      match rest.dropWhile (· = ' ') with
      | [] => some []
      | ';' :: rest => some rest
      | _ => none
  | text =>
    match text.dropWhile isTokenChar with
    | [] => some []
    | ';' :: rest => if (text.takeWhile isTokenChar).isEmpty then none else some rest
    | _ => none

/-- Whether a text is parameters with semicolons between them. Each takes a character, which bounds
their number. -/
def areParameters : Nat → List Char → Bool
  | 0, _ => false
  | bound + 1, text =>
    match text.dropWhile (· = ' ') with
    | [] => true
    | text =>
      match Text.cutAt '=' text with
      | some (name, rest) =>
        !name.isEmpty && name.all isTokenChar &&
          match afterValue? rest with
          | some rest => areParameters bound rest
          | none => false
      | none => false

/-- A name without what follows its last plus sign, unless that is its first character. -/
def withoutSuffix (name : List Char) : List Char :=
  match Text.cutAt '+' name.reverse with
  | some (_, front) => if front.isEmpty then name else front.reverse
  | none => name

/-- The two names of a media type in lower case, the second without its suffix. -/
def names? (text : String) : Option (String × String) := do
  let (type, rest) ← Text.cutAt '/' text.toList
  let subtype := rest.takeWhile isTokenChar
  let rest := rest.dropWhile isTokenChar
  let parametersFit :=
    match rest with
    | [] => true
    | ';' :: parameters => areParameters (parameters.length + 1) parameters
    | _ => false
  if type.isEmpty ∨ !type.all isTokenChar ∨ !parametersFit then none
  else if subtype.isEmpty ∧ !rest.isEmpty then none
  else
    some ((String.ofList type).toLower, (String.ofList (withoutSuffix subtype)).toLower)

/-- Whether a text is the media type of documents. -/
def isJson (text : String) : Bool :=
  names? text == some ("application", "json")

end TableStore.Http.MediaType
