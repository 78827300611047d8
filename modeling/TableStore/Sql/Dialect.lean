import TableStore.Text.Scan

/-!
# Dialects of SQL

The two database engines spell a few expressions differently. A `Dialect` holds one template for
each; a template is filled in by plain substitution of its placeholder words, the column first and
the key after it.
-/

namespace TableStore.Sql

/-- What a stored value is cast to when it is read back. -/
inductive CastTarget where
  | character
  | signedInteger
  | float
  | json
deriving DecidableEq, Repr

/-- The templates of an engine. -/
structure Dialect where
  /-- An identifier as text. -/
  uuidTemplate : String
  /-- A timestamp as text with milliseconds. -/
  timestampTemplate : String
  /-- A key of a document as a scalar: nothing for `null`, `1` and `0` for the booleans. -/
  scalarTemplate : String
  /-- A key of a document as a document. -/
  rawTemplate : String
  /-- A key of a document as text. -/
  textTemplate : String
  characterTemplate : String
  signedIntegerTemplate : String
  floatTemplate : String
deriving DecidableEq, Repr

namespace Dialect

/-- The expression for a column of identifiers as text. -/
def uuidToText (d : Dialect) (column : String) : String :=
  Text.replaceAll d.uuidTemplate "uuid_column" column

/-- The expression for a column of timestamps as text. -/
def timestampToText (d : Dialect) (column : String) : String :=
  Text.replaceAll d.timestampTemplate "timestamp_column" column

/-- Fills in a template that has a document column and a key. -/
def fillKey (template column key : String) : String :=
  Text.replaceAll (Text.replaceAll template "json_column" column) "json_key" key

/-- The expression for a key of a document column as a scalar. -/
def jsonScalar (d : Dialect) (column key : String) : String :=
  fillKey d.scalarTemplate column key

/-- The expression for a key of a document column as a document. -/
def jsonRaw (d : Dialect) (column key : String) : String :=
  fillKey d.rawTemplate column key

/-- The expression for a key of a document column as text. -/
def jsonText (d : Dialect) (column key : String) : String :=
  fillKey d.textTemplate column key

/-- The expression `expr` cast to a target; a document stays as it is. -/
def cast (d : Dialect) (target : CastTarget) (expr : String) : String :=
  match target with
  | .character => Text.replaceAll d.characterTemplate "expr" expr
  | .signedInteger => Text.replaceAll d.signedIntegerTemplate "expr" expr
  | .float => Text.replaceAll d.floatTemplate "expr" expr
  | .json => expr

/-- The embedded engine. -/
def sqlite : Dialect where
  uuidTemplate :=
    "lower(substr(hex(uuid_column), 1, 8) || '-' || substr(hex(uuid_column), 9, 4) " ++
      "|| '-' || substr(hex(uuid_column), 13, 4) || '-' || substr(hex(uuid_column), 17, 4) " ++
      "|| '-' || substr(hex(uuid_column), 21))"
  timestampTemplate := "strftime('%Y-%m-%dT%H:%M:%f+00:00', timestamp_column)"
  scalarTemplate :=
    "CASE json_type(json_column, '$.\"json_key\"') " ++
      "WHEN 'null' THEN NULL " ++
      "WHEN 'text' THEN json_extract(json_column, '$.\"json_key\"') " ++
      "WHEN 'true' THEN 1 " ++
      "WHEN 'false' THEN 0 " ++
      "ELSE json_extract(json_column, '$.\"json_key\"') END"
  rawTemplate := "json_column -> '$.\"json_key\"'"
  textTemplate := "json_extract(json_column, '$.\"json_key\"')"
  characterTemplate := "CAST(expr AS TEXT)"
  signedIntegerTemplate := "CAST(expr AS INTEGER)"
  floatTemplate := "CAST(expr AS REAL)"

/-- The database server. -/
def postgres : Dialect where
  uuidTemplate := "CAST(uuid_column AS TEXT)"
  timestampTemplate :=
    "to_char(timestamp_column AT TIME ZONE 'UTC', 'YYYY-MM-DD\"T\"HH24:MI:SS.MS\"+00:00\"')"
  scalarTemplate :=
    "CASE jsonb_typeof(json_column -> 'json_key') " ++
      "WHEN 'null' THEN NULL " ++
      "WHEN 'string' THEN json_column ->> 'json_key' " ++
      "WHEN 'boolean' THEN CASE WHEN CAST(json_column -> 'json_key' AS BOOLEAN) " ++
      "THEN '1' ELSE '0' END " ++
      "ELSE json_column ->> 'json_key' END"
  rawTemplate := "json_column -> 'json_key'"
  textTemplate := "json_column ->> 'json_key'"
  characterTemplate := "CAST(expr AS TEXT)"
  signedIntegerTemplate := "CAST(expr AS BIGINT)"
  floatTemplate := "CAST(CAST(expr AS NUMERIC) AS DOUBLE PRECISION)"

end Dialect
end TableStore.Sql
