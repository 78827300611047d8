import TableStore.Query.Basic

/-!
# Queries as documents

A query is an object with one key, its kind. Every expression is an object with one key, and the key
alone decides its shape. `Query.decode` reads a query and reports the first fault with its address
inside the body of the query; `Query.encode` writes the form that it reads.
-/

namespace TableStore.Query

open Json (Address)

/-- The result of reading a part of a query. -/
abbrev Decoded := Except QueryError

/-- Reports a fault at an address. -/
def fault {α : Type} (address : Address) (f : Fault) : Decoded α :=
  .error (.malformed address f)

/-- The members of an object. -/
def asObject (address : Address) (j : Json) : Decoded (Members Json) :=
  match j with
  | .obj members => .ok members
  | _ => fault address .notAnObject

/-- The items of an array. -/
def asArray (address : Address) (j : Json) : Decoded (List Json) :=
  match j with
  | .arr items => .ok items
  | _ => fault address .notAnArray

/-- A natural number. -/
def asNatural (address : Address) (j : Json) : Decoded Nat :=
  match j.natural? with
  | some n => .ok n
  | none => fault address .notNatural

/-- The key and the payload of an object that has one key. -/
def oneKey (address : Address) (j : Json) : Decoded (String × Json) :=
  match j with
  | .obj [(key, payload)] => .ok (key, payload)
  | .obj _ => fault address .notOneKey
  | _ => fault address .notAnObject

/-- Refuses members other than the allowed ones; the first one is reported. -/
def allowOnly (address : Address) (allowed : List String) (members : Members Json) : Decoded Unit :=
  match members.keys.find? fun key => !allowed.contains key with
  | some key => fault address (.unknownField key)
  | none => .ok ()

/-- The value of a key that has to be there. -/
def required (address : Address) (key : String) (members : Members Json) : Decoded Json :=
  match members.get? key with
  | some value => .ok value
  | none => fault address (.missingField key)

/-- The value of a key that may be absent or `null`. -/
def optional (key : String) (members : Members Json) : Option Json :=
  match members.get? key with
  | some .null => none
  | other => other

/-- Reads the name of a metadata field. -/
def decodeMetadata (address : Address) (payload : Json) : Decoded Expr :=
  match payload.text?.bind Metadata.read? with
  | some field => .ok (.metadata field)
  | none => fault address .notMetadata

/-- Reads the identifier of a column. -/
def decodeColumn (address : Address) (payload : Json) : Decoded Expr :=
  match payload.text?.bind Uuid.read? with
  | some id => .ok (.column id)
  | none => fault address .notColumnId

/-- Reads the name of a function. -/
def decodeName (address : Address) (members : Members Json) : Decoded String := do
  let name ← required address "name" members
  match name with
  | .str name => .ok name
  | _ => fault (address ++ [.key "name"]) .notText

mutual

/-- Reads an expression that stands at an address. -/
def decodeExpr (address : Address) : Json → Decoded Expr
  | .obj [(key, payload)] =>
    let inner := address ++ [.key key]
    if key = "metadata" then decodeMetadata inner payload
    else if key = "column" then decodeColumn inner payload
    else if key = "value" then .ok (.value payload)
    else if key = "func" then
      match payload with
      | .obj members => do
        allowOnly inner ["name", "args"] members
        let name ← decodeName inner members
        let args ← decodeArgs inner members
        return .func name args
      | _ => fault inner .notAnObject
    else
      match BinaryOp.read? key, UnaryOp.read? key with
      | some op, _ =>
        match payload with
        | .arr [left, right] => do
          let left ← decodeExpr (inner ++ [.index 0]) left
          let right ← decodeExpr (inner ++ [.index 1]) right
          return .binary op left right
        | .arr items => fault inner (.operandCount items.length)
        | _ => fault inner .notAnArray
      | none, some op => do return .unary op (← decodeExpr inner payload)
      | none, none => fault inner (.unknownExpression key)
  | .obj _ => fault address .notOneKey
  | _ => fault address .notAnObject

/-- Reads the expressions of an array, from a position on. -/
def decodeExprs (address : Address) (position : Nat) : List Json → Decoded (List Expr)
  | [] => .ok []
  | item :: rest => do
    let e ← decodeExpr (address ++ [.index position]) item
    return e :: (← decodeExprs address (position + 1) rest)

/-- Reads the arguments of a function among its members; there may be none. -/
def decodeArgs (address : Address) : List (String × Json) → Decoded (List Expr)
  | [] => .ok []
  | (key, value) :: rest =>
    if key = "args" then
      match value with
      | .arr items => decodeExprs (address ++ [.key "args"]) 0 items
      | _ => fault (address ++ [.key "args"]) .notAnArray
    else decodeArgs address rest

end

/-- Reads each item of an array with its address. -/
def decodeEach {α : Type} (address : Address) (read : Address → Json → Decoded α)
    (items : List Json) : Decoded (List α) :=
  (items.zipIdx).mapM fun (item, position) => read (address ++ [.index position]) item

/-- Reads a direction; without one it is ascending. -/
def decodeDirection (address : Address) (members : Members Json) : Decoded Direction :=
  match optional "direction" members with
  | none => .ok .asc
  | some d =>
    match d.text?.bind Direction.read? with
    | some d => .ok d
    | none => fault (address ++ [.key "direction"]) .notDirection

/-- Reads an expression to sort by. -/
def decodeSortExpr (address : Address) (j : Json) : Decoded SortExpr := do
  let members ← asObject address j
  allowOnly address ["expr", "direction"] members
  let expr ← decodeExpr (address ++ [.key "expr"]) (← required address "expr" members)
  return ⟨expr, ← decodeDirection address members⟩

/-- Reads an expression that has to be a column. -/
def decodeColumnRef (address : Address) (j : Json) : Decoded Uuid := do
  match ← decodeExpr address j with
  | .column id => .ok id
  | _ => fault address .notColumn

/-- Reads an expression that has to be a literal. -/
def decodeLiteral (address : Address) (j : Json) : Decoded Json := do
  match ← decodeExpr address j with
  | .value literal => .ok literal
  | _ => fault address .notValue

/-- Reads a row of literals. -/
def decodeRow (address : Address) (j : Json) : Decoded (List Json) := do
  decodeEach address decodeLiteral (← asArray address j)

/-- Reads the body of an insert query. -/
def decodeInsert (j : Json) : Decoded Insert := do
  let members ← asObject [] j
  allowOnly [] ["columns", "values"] members
  let columns ← asArray [.key "columns"] (← required [] "columns" members)
  let columns ← decodeEach [.key "columns"] decodeColumnRef columns
  let rows ← asArray [.key "values"] (← required [] "values" members)
  if rows.isEmpty then fault [.key "values"] .noRows
  let rows ← decodeEach [.key "values"] decodeRow rows
  return ⟨columns, rows⟩

/-- Reads the filter of a select query. -/
def decodeFilter (members : Members Json) : Decoded (Option Expr) :=
  match optional "where" members with
  | none => .ok none
  | some j => (decodeExpr [.key "where"] j).map some

/-- Reads what a select query sorts by. -/
def decodeOrderBy (members : Members Json) : Decoded (List SortExpr) := do
  match optional "order_by" members with
  | none => return SortExpr.default
  | some j => decodeEach [.key "order_by"] decodeSortExpr (← asArray [.key "order_by"] j)

/-- Reads the offset of a select query. -/
def decodeOffset (members : Members Json) : Decoded Nat := do
  let offset ←
    match optional "offset" members with
    | none => pure 0
    | some j => asNatural [.key "offset"] j
  if maxOffset < offset then throw (.offsetTooLarge offset maxOffset)
  return offset

/-- Reads the limit of a select query. -/
def decodeLimit (limits : Limits) (members : Members Json) : Decoded Nat := do
  let limit ←
    match optional "limit" members with
    | none => pure limits.default
    | some j => asNatural [.key "limit"] j
  if limits.max < limit then throw (.limitTooLarge limit limits.max)
  return limit

/-- Reads the body of a select query. -/
def decodeSelect (limits : Limits) (j : Json) : Decoded Select := do
  let members ← asObject [] j
  allowOnly [] ["columns", "where", "order_by", "offset", "limit"] members
  let columns ← asArray [.key "columns"] (← required [] "columns" members)
  let columns ← decodeExprs [.key "columns"] 0 columns
  if columns.isEmpty then fault [.key "columns"] .noColumns
  let filter ← decodeFilter members
  let orderBy ← decodeOrderBy members
  let offset ← decodeOffset members
  let limit ← decodeLimit limits members
  return ⟨columns, filter, orderBy, offset, limit⟩

/-- Reads a query. -/
def decode (limits : Limits) (j : Json) : Decoded Query := do
  let (key, body) ← oneKey [] j
  match Kind.read? key with
  | some .insert => return .insert (← decodeInsert body)
  | some .select => return .select (← decodeSelect limits body)
  | some .update => do
    let _ ← asObject [] body
    return .update
  | some .delete => do
    let _ ← asObject [] body
    return .delete
  | none => fault [] (.unknownKind key)

/-! ### Writing -/

mutual

/-- The document of an expression. -/
def encodeExpr : Expr → Json
  | .metadata field => .obj [("metadata", .str field.name)]
  | .column id => .obj [("column", .str id.text)]
  | .value literal => .obj [("value", literal)]
  | .func name args =>
    .obj [("func", .obj [("args", .arr (encodeExprs args)), ("name", .str name)])]
  | .binary op left right => .obj [(op.name, .arr [encodeExpr left, encodeExpr right])]
  | .unary op operand => .obj [(op.name, encodeExpr operand)]

def encodeExprs : List Expr → List Json
  | [] => []
  | e :: rest => encodeExpr e :: encodeExprs rest

end

/-- The document of an expression to sort by. -/
def encodeSortExpr (s : SortExpr) : Json :=
  .obj [("direction", .str s.direction.name), ("expr", encodeExpr s.expr)]

/-- The document of a query. Members stand in the order of their keys; a filter that is absent is
left out. -/
def encode : Query → Json
  | .insert q =>
    .obj [("insert", .obj [
      ("columns", .arr (q.columns.map fun id => encodeExpr (.column id))),
      ("values", .arr (q.rows.map fun row => .arr (row.map fun v => encodeExpr (.value v))))])]
  | .select q =>
    .obj [("select", .obj (
      [("columns", .arr (encodeExprs q.columns)), ("limit", .ofNat q.limit),
        ("offset", .ofNat q.offset), ("order_by", .arr (q.orderBy.map encodeSortExpr))] ++
      (q.filter.map fun e => ("where", encodeExpr e)).toList))]
  | .update => .obj [("update", .obj [])]
  | .delete => .obj [("delete", .obj [])]

end TableStore.Query
