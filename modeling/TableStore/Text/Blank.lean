/-!
# Blank characters

The characters with the property White_Space, and trimming by them. Core's `Char.isWhitespace`
knows the four ASCII ones only, which are blank here too.
-/

namespace TableStore.Text

/-- The code points with the property White_Space, as closed ranges. -/
def whiteSpace : List (Nat × Nat) :=
  [(0x09, 0x0d), (0x20, 0x20), (0x85, 0x85), (0xa0, 0xa0), (0x1680, 0x1680), (0x2000, 0x200a),
    (0x2028, 0x2029), (0x202f, 0x202f), (0x205f, 0x205f), (0x3000, 0x3000)]

/-- Whether a character has the property White_Space. -/
def isBlank (c : Char) : Bool :=
  whiteSpace.any fun (low, high) => low ≤ c.toNat && c.toNat ≤ high

/-- The characters without the blank ones at both ends. -/
def trimBlank (text : List Char) : List Char :=
  ((text.dropWhile isBlank).reverse.dropWhile isBlank).reverse

/-- `text` without blank characters at both ends. -/
def trim (text : String) : String :=
  String.ofList (trimBlank text.toList)

/-- The words between blank characters. -/
def words : List Char → List (List Char)
  | [] => []
  | c :: rest =>
    if isBlank c then words rest
    else
      match rest, words rest with
      | d :: _, w :: more => if isBlank d then [c] :: w :: more else (c :: w) :: more
      | _, _ => [c] :: words rest

/-- Every run of blank characters made one space, and none at either end. -/
def squeeze (text : String) : String :=
  " ".intercalate ((words text.toList).map String.ofList)

end TableStore.Text
