import TableStore.Json.Address
import TableStore.Sort
import TableStore.Uuid

/-!
# Record queries

A query inserts rows into a table or selects from it; updates and deletions are named but carry
nothing. Expressions refer to columns by identifier and hold literals as documents.
-/

namespace TableStore

namespace Query

/-- The four kinds of queries. -/
inductive Kind where
  | insert
  | select
  | update
  | delete
deriving DecidableEq, Repr

def Kind.name : Kind → String
  | .insert => "insert"
  | .select => "select"
  | .update => "update"
  | .delete => "delete"

def Kind.all : List Kind :=
  [.insert, .select, .update, .delete]

/-- What a record has besides its columns. -/
inductive Metadata where
  | id
  | createdAt
deriving DecidableEq, Repr

def Metadata.name : Metadata → String
  | .id => "id"
  | .createdAt => "created_at"

def Metadata.all : List Metadata :=
  [.id, .createdAt]

/-- Operators with two operands. -/
inductive BinaryOp where
  | eq | ne | gt | ge | lt | le | like | and | or | add | sub | mul | div | mod
deriving DecidableEq, Repr

def BinaryOp.name : BinaryOp → String
  | .eq => "eq"
  | .ne => "ne"
  | .gt => "gt"
  | .ge => "ge"
  | .lt => "lt"
  | .le => "le"
  | .like => "like"
  | .and => "and"
  | .or => "or"
  | .add => "add"
  | .sub => "sub"
  | .mul => "mul"
  | .div => "div"
  | .mod => "mod"

def BinaryOp.all : List BinaryOp :=
  [.eq, .ne, .gt, .ge, .lt, .le, .like, .and, .or, .add, .sub, .mul, .div, .mod]

/-- Operators with one operand. -/
inductive UnaryOp where
  | not | neg | isNull
deriving DecidableEq, Repr

def UnaryOp.name : UnaryOp → String
  | .not => "not"
  | .neg => "neg"
  | .isNull => "is_null"

def UnaryOp.all : List UnaryOp :=
  [.not, .neg, .isNull]

def Kind.read? (text : String) : Option Kind :=
  Kind.all.find? fun k => k.name == text

def Metadata.read? (text : String) : Option Metadata :=
  Metadata.all.find? fun m => m.name == text

def BinaryOp.read? (text : String) : Option BinaryOp :=
  BinaryOp.all.find? fun op => op.name == text

def UnaryOp.read? (text : String) : Option UnaryOp :=
  UnaryOp.all.find? fun op => op.name == text

/-- An expression over a record. -/
inductive Expr where
  | metadata (field : Metadata)
  | column (id : Uuid)
  | value (literal : Json)
  | func (name : String) (args : List Expr)
  | binary (op : BinaryOp) (left right : Expr)
  | unary (op : UnaryOp) (operand : Expr)
deriving Inhabited

/-- An expression to sort by. -/
structure SortExpr where
  expr : Expr
  direction : Direction
deriving Inhabited

/-- Rows to add: one literal for each named column, in the same order. -/
structure Insert where
  columns : List Uuid
  rows : List (List Json)
deriving Inhabited

/-- Columns of the answer, and which records it takes in which order. -/
structure Select where
  columns : List Expr
  filter : Option Expr
  orderBy : List SortExpr
  offset : Nat
  limit : Nat
deriving Inhabited

/-- By time of creation, then by identifier. -/
def SortExpr.default : List SortExpr :=
  [⟨.metadata .createdAt, .asc⟩, ⟨.metadata .id, .asc⟩]

end Query

/-- A query over the records of a table. -/
inductive Query where
  | insert (q : Query.Insert)
  | select (q : Query.Select)
  | update
  | delete
deriving Inhabited

namespace Query

def kind : Query → Kind
  | .insert _ => .insert
  | .select _ => .select
  | .update => .update
  | .delete => .delete

/-- Limits that hold for queries and listings. -/
structure Limits where
  /-- The limit where none is given. -/
  default : Nat
  /-- The greatest limit that may be given. -/
  max : Nat
deriving DecidableEq, Repr, Inhabited

/-- The limits of a store that is not told otherwise; also the bound on what it may be told. -/
def Limits.standard : Limits :=
  ⟨10, 999⟩

/-- Offsets are signed 64-bit integers in the database. -/
def maxOffset : Nat :=
  Json.maxSigned

end Query

/-- What is wrong with a part of a query's document. -/
inductive Query.Fault where
  | notAnObject
  | notAnArray
  | notNatural
  | notText
  | notOneKey
  | unknownField (key : String)
  | missingField (key : String)
  | unknownKind (key : String)
  | unknownExpression (key : String)
  | notMetadata
  | notColumnId
  | notDirection
  | notColumn
  | notValue
  | operandCount (count : Nat)
  | noRows
  | noColumns
deriving DecidableEq, Repr

def Query.Fault.message : Query.Fault → String
  | .notAnObject => "expected an object"
  | .notAnArray => "expected an array"
  | .notNatural => "expected a non-negative integer"
  | .notText => "expected a string"
  | .notOneKey => "expected an object with exactly one key"
  | .unknownField key => "unknown field " ++ Text.quoted key
  | .missingField key => "missing field " ++ Text.quoted key
  | .unknownKind key => "unknown query kind " ++ Text.quoted key
  | .unknownExpression key => "unknown expression " ++ Text.quoted key
  | .notMetadata => "expected one of \"id\", \"created_at\""
  | .notColumnId => "expected a column UUID"
  | .notDirection => "expected \"asc\" or \"desc\""
  | .notColumn => "expected a column reference"
  | .notValue => "expected a value expression"
  | .operandCount count => "expected 2 operands, got " ++ toString count
  | .noRows => "expected at least one row"
  | .noColumns => "expected at least one column"

/-- What a store does not do with queries. -/
inductive Query.Unimplemented where
  | kind (k : Query.Kind)
  | filter
  | func (name : String)
  | binary (op : Query.BinaryOp)
  | unary (op : Query.UnaryOp)
deriving DecidableEq, Repr

def Query.Unimplemented.message : Query.Unimplemented → String
  | .kind k => k.name ++ " queries"
  | .filter => "filter predicates in select queries"
  | .func name => "function " ++ Text.quoted name ++ " in record queries"
  | .binary op => "operator " ++ op.name ++ " in record queries"
  | .unary op => "operator " ++ op.name ++ " in record queries"

/-- Why a query is refused. -/
inductive QueryError where
  | malformed (address : Json.Address) (fault : Query.Fault)
  | limitTooLarge (limit max : Nat)
  | offsetTooLarge (offset max : Nat)
  | unknownColumn (id : Uuid)
  | invalidAlias (text : String)
  | rowWidthMismatch (row expected actual : Nat)
  | unimplemented (what : Query.Unimplemented)
deriving DecidableEq

def QueryError.message : QueryError → String
  | .malformed address fault => "Invalid query at " ++ address.text ++ ": " ++ fault.message
  | .limitTooLarge limit max =>
    "Limit " ++ toString limit ++ " exceeds the maximum of " ++ toString max
  | .offsetTooLarge offset max =>
    "Offset " ++ toString offset ++ " exceeds the maximum of " ++ toString max
  | .unknownColumn id => "Column " ++ id.text ++ " doesn't exist in this table"
  | .invalidAlias text => "Invalid alias " ++ Text.quoted text
  | .rowWidthMismatch row expected actual =>
    "Row " ++ toString row ++ " has " ++ toString actual ++ " value(s) but " ++
      toString expected ++ " column(s) were given"
  | .unimplemented what => "Not implemented: " ++ what.message

end TableStore
