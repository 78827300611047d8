import TableStore.Json.Members
import TableStore.Number.Decimal
import TableStore.Number.Reading

/-!
# Documents

A JSON document. Integers that fit 64 bits, signed or not, stay exact; every other number is a
double, and `1` and `1.0` are different documents. Objects keep their members by key
(`TableStore.Members`).

A document that is written as text and read again keeps everything but the last digits of some of
its doubles (`reread`), since reading rounds more than once. Readers also bound how deep a document
may nest (`Json.readBack?`).
-/

namespace TableStore

/-- A number in a document. -/
inductive JsonNumber where
  | int (n : Int)
  | real (x : Binary64)
deriving DecidableEq, Inhabited

/-- A document. -/
inductive Json where
  | null
  | bool (b : Bool)
  | num (n : JsonNumber)
  | str (s : String)
  | arr (items : List Json)
  | obj (members : List (String × Json))
deriving Inhabited

namespace Json

mutual

/-- Whether two documents are the same. -/
def decEq : (a b : Json) → Decidable (a = b)
  | .null, .null => .isTrue rfl
  | .bool a, .bool b =>
    if h : a = b then .isTrue (by rw [h]) else .isFalse fun e => h (by injection e)
  | .num a, .num b =>
    if h : a = b then .isTrue (by rw [h]) else .isFalse fun e => h (by injection e)
  | .str a, .str b =>
    if h : a = b then .isTrue (by rw [h]) else .isFalse fun e => h (by injection e)
  | .arr a, .arr b =>
    match decEqList a b with
    | .isTrue h => .isTrue (by rw [h])
    | .isFalse h => .isFalse fun e => h (by injection e)
  | .obj a, .obj b =>
    match decEqMembers a b with
    | .isTrue h => .isTrue (by rw [h])
    | .isFalse h => .isFalse fun e => h (by injection e)
  | .null, .bool _ | .null, .num _ | .null, .str _ | .null, .arr _ | .null, .obj _
  | .bool _, .null | .bool _, .num _ | .bool _, .str _ | .bool _, .arr _ | .bool _, .obj _
  | .num _, .null | .num _, .bool _ | .num _, .str _ | .num _, .arr _ | .num _, .obj _
  | .str _, .null | .str _, .bool _ | .str _, .num _ | .str _, .arr _ | .str _, .obj _
  | .arr _, .null | .arr _, .bool _ | .arr _, .num _ | .arr _, .str _ | .arr _, .obj _
  | .obj _, .null | .obj _, .bool _ | .obj _, .num _ | .obj _, .str _ | .obj _, .arr _ =>
    .isFalse nofun

/-- Whether two lists of documents are the same. -/
def decEqList : (a b : List Json) → Decidable (a = b)
  | [], [] => .isTrue rfl
  | [], _ :: _ | _ :: _, [] => .isFalse nofun
  | x :: xs, y :: ys =>
    match decEq x y, decEqList xs ys with
    | .isTrue h, .isTrue h' => .isTrue (by rw [h, h'])
    | .isFalse h, _ => .isFalse fun e => h (by injection e)
    | _, .isFalse h => .isFalse fun e => h (by injection e)

/-- Whether two lists of members are the same. -/
def decEqMembers : (a b : List (String × Json)) → Decidable (a = b)
  | [], [] => .isTrue rfl
  | [], _ :: _ | _ :: _, [] => .isFalse nofun
  | (k, x) :: xs, (l, y) :: ys =>
    match decEq x y, decEqMembers xs ys with
    | .isTrue h, .isTrue h' =>
      if h'' : k = l then .isTrue (by rw [h, h', h''])
      else .isFalse fun e => h'' (by injection e with e _; injection e)
    | .isFalse h, _ => .isFalse fun e => h (by injection e with e _; injection e)
    | _, .isFalse h => .isFalse fun e => h (by injection e)

end

instance : DecidableEq Json :=
  decEq

/-! ### Shapes -/

/-- The members, if the document is an object. -/
def members? : Json → Option (Members Json)
  | .obj members => some members
  | _ => none

/-- The items, if the document is an array. -/
def items? : Json → Option (List Json)
  | .arr items => some items
  | _ => none

/-- The text, if the document is one. -/
def text? : Json → Option String
  | .str s => some s
  | _ => none

/-- The greatest unsigned 64-bit integer. -/
def maxUnsigned : Nat :=
  18446744073709551615

/-- The greatest signed 64-bit integer. -/
def maxSigned : Nat :=
  9223372036854775807

/-- The number, if the document is an integer that is not negative. -/
def natural? : Json → Option Nat
  | .num (.int (.ofNat n)) => some n
  | _ => none

/-- Whether an integer fits 64 bits with a sign. -/
def fitsSigned (n : Int) : Bool :=
  -(maxSigned + 1 : Int) ≤ n && n ≤ maxSigned

/-- An integer as a document. -/
def ofNat (n : Nat) : Json :=
  .num (.int n)

/-! ### Writing and reading again -/

mutual

/-- What a document reads as after it has been written as text, if it nests below the bound of the
reader. -/
def reread : Json → Json
  | .num (.real x) => .num (.real x.reread)
  | .arr items => .arr (rereadList items)
  | .obj members => .obj (rereadMembers members)
  | .num (.int n) => .num (.int n)
  | .null => .null
  | .bool b => .bool b
  | .str s => .str s

def rereadList : List Json → List Json
  | [] => []
  | item :: rest => reread item :: rereadList rest

def rereadMembers : List (String × Json) → List (String × Json)
  | [] => []
  | (key, value) :: rest => (key, reread value) :: rereadMembers rest

end

end Json
end TableStore
