import TableStore.Sql.Value
import TableStore.Text.Hex

/-!
# Expressions of the embedded engine

The expressions that statements over records use, as trees: their text (`Expr.render`) and their
value (`Expr.eval`), given the columns of a row and the parameters of the statement.
-/

namespace TableStore.Sql

/-- An expression of the embedded engine. -/
inductive Expr where
  | column (name : String)
  | placeholder (number : Nat)
  | null
  | integer (n : Nat)
  | text (s : String)
  | hex (e : Expr)
  | lower (e : Expr)
  | substr (e : Expr) (start : Nat) (length : Option Nat)
  | concat (a b : Expr)
  | strftime (format : String) (e : Expr)
  | jsonType (e : Expr) (key : String)
  | jsonExtract (e : Expr) (key : String)
  | cases (scrutinee : Expr) (branches : List (String × Expr)) (otherwise : Expr)
  | castText (e : Expr)
  | equals (a b : Expr)
deriving Inhabited

namespace Expr

/-- A text literal. -/
def literal (s : String) : String :=
  "'" ++ s ++ "'"

/-- The path of a key. -/
def keyPath (key : String) : String :=
  "'$.\"" ++ key ++ "\"'"

mutual

/-- The text of an expression. -/
def render : Expr → String
  | .column name => name
  | .placeholder number => "$" ++ toString number
  | .null => "NULL"
  | .integer n => toString n
  | .text s => literal s
  | .hex e => "hex(" ++ render e ++ ")"
  | .lower e => "lower(" ++ render e ++ ")"
  | .substr e start none => "substr(" ++ render e ++ ", " ++ toString start ++ ")"
  | .substr e start (some length) =>
    "substr(" ++ render e ++ ", " ++ toString start ++ ", " ++ toString length ++ ")"
  | .concat a b => render a ++ " || " ++ render b
  | .strftime format e => "strftime(" ++ literal format ++ ", " ++ render e ++ ")"
  | .jsonType e key => "json_type(" ++ render e ++ ", " ++ keyPath key ++ ")"
  | .jsonExtract e key => "json_extract(" ++ render e ++ ", " ++ keyPath key ++ ")"
  | .cases scrutinee branches otherwise =>
    "CASE " ++ render scrutinee ++ " " ++ renderBranches branches ++ "ELSE " ++
      render otherwise ++ " END"
  | .castText e => "CAST(" ++ render e ++ " AS TEXT)"
  | .equals a b => render a ++ " = " ++ render b

def renderBranches : List (String × Expr) → String
  | [] => ""
  | (label, e) :: rest =>
    "WHEN " ++ literal label ++ " THEN " ++ render e ++ " " ++ renderBranches rest

end

/-- What an expression is evaluated in: the columns of a row, by name, and the parameters. -/
structure Context where
  column : String → Value
  params : List Value

/-- A parameter; placeholders count from one. -/
def Context.param (ctx : Context) (number : Nat) : Value :=
  match number with
  | 0 => .null
  | n + 1 => ctx.params[n]?.getD .null

/-- The characters of a text from a position on, counted from one, at most so many. -/
def substring (s : String) (start : Nat) (length : Option Nat) : String :=
  let cs := s.toList.drop (start - 1)
  String.ofList (match length with | some n => cs.take n | none => cs)

/-- The upper-case hexadecimal digits of an identifier's bytes. -/
def hexOf : Value → Value
  | .uuid u => .text (String.ofList (u.digits.map Char.toUpper))
  | v => v

/-- The key of a document. -/
def member? (key : String) : Value → Option Json
  | .document j => j.members?.bind (Members.get? key)
  | _ => none

/-- One text after another. -/
def concatOf : Value → Value → Value
  | .text a, .text b => .text (a ++ b)
  | _, _ => .null

/-- A timestamp in the one format in use: date, time and milliseconds with the offset of UTC. -/
def formatTime (format : String) : Value → Value
  | .time t => if format = "%Y-%m-%dT%H:%M:%f+00:00" then .text t.longText else .null
  | _ => .null

mutual

/-- The value of an expression. -/
def eval (ctx : Context) : Expr → Value
  | .column name => ctx.column name
  | .placeholder number => ctx.param number
  | .null => .null
  | .integer n => .int n
  | .text s => .text s
  | .hex e => hexOf (eval ctx e)
  | .lower e =>
    match eval ctx e with
    | .text s => .text (String.ofList (s.toList.map Char.toLower))
    | v => v
  | .substr e start length =>
    match eval ctx e with
    | .text s => .text (substring s start length)
    | v => v
  | .concat a b => concatOf (eval ctx a) (eval ctx b)
  | .strftime format e => formatTime format (eval ctx e)
  | .jsonType e key =>
    match member? key (eval ctx e) with
    | some j => .text (Value.jsonTypeName j)
    | none => .null
  | .jsonExtract e key =>
    match member? key (eval ctx e) with
    | some j => Value.ofStored j
    | none => .null
  | .cases scrutinee branches otherwise =>
    match evalBranch ctx (eval ctx scrutinee) branches with
    | some v => v
    | none => eval ctx otherwise
  | .castText e => (eval ctx e).toText
  | .equals a b => (eval ctx a).equals (eval ctx b)

/-- The value of the first branch with the label that the scrutinee is. -/
def evalBranch (ctx : Context) (v : Value) : List (String × Expr) → Option Value
  | [] => none
  | (label, e) :: rest => if v = .text label then some (eval ctx e) else evalBranch ctx v rest

end

end Expr
end TableStore.Sql
