import Mathlib.Data.List.Infix
import TableStore.Proofs.TermValues

/-!
# What the engines are asked for, spelled out

The texts that the templates of the two engines give for parts of records and entries, without any
substitution: the identifier and the time of creation of a record as text
(`Sql.Engine.identifierText`, `Sql.Engine.timeText`), a cell of it (`Sql.Engine.cellText`), and a
property of an entry (`Sql.Engine.keyText`). In each of them a key stands between quotes, and as it
is, also if it is made of the placeholder words.

The templates are filled in one after another, the column before the key. For the columns of records
the result is a computation on closed texts (`Query.Term.sql_cell`). A qualifier can be any text
without the placeholder of the key: a pattern is looked for on both sides of a character that it
does not hold separately (`Text.substitute_append_cons`), so that nothing of the qualifier is taken
for the key (`Sql.Engine.jsonText_properties`).
-/

namespace TableStore

/-! ### Substitution on both sides of a separator -/

namespace Text

variable {sep : Char} {pattern replacement text before after : List Char}

theorem prefix_append_cons (hsep : sep ∉ pattern) :
    pattern <+: before ++ sep :: after ↔ pattern <+: before := by
  refine ⟨fun h => ?_, fun h => h.trans (List.prefix_append _ _)⟩
  rcases List.prefix_or_prefix_of_prefix h (List.prefix_append before (sep :: after)) with h' | h'
  · exact h'
  · obtain ⟨more, rfl⟩ := h'
    rw [List.prefix_append_right_inj] at h
    cases more with
    | nil => simp
    | cons c more =>
      rw [List.cons_prefix_cons] at h
      simp [h.1] at hsep

/-- An occurrence ends before a character that the pattern does not hold, also one that has begun
already. -/
theorem substituteFrom_append_cons (hsep : sep ∉ pattern) (hne : pattern ≠ []) (skip : Nat)
    (h : skip ≤ before.length) :
    substituteFrom pattern replacement skip (before ++ sep :: after) =
      substituteFrom pattern replacement skip before ++
        sep :: substituteFrom pattern replacement 0 after := by
  induction before generalizing skip with
  | nil =>
    obtain rfl : skip = 0 := Nat.le_zero.mp h
    have hfirst : pattern.isPrefixOf (sep :: after) = false := by
      rw [Bool.eq_false_iff, ne_eq, List.isPrefixOf_iff_prefix, ← List.nil_append (sep :: after),
        prefix_append_cons hsep, List.prefix_nil]
      exact hne
    show (if pattern.isPrefixOf (sep :: after) then _ else _) = _
    rw [hfirst]
    rfl
  | cons c before ih =>
    cases skip with
    | succ skip => exact ih skip (Nat.le_of_succ_le_succ h)
    | zero =>
      have hmeet : pattern.isPrefixOf (c :: before ++ sep :: after) =
          pattern.isPrefixOf (c :: before) := by
        rw [Bool.eq_iff_iff, List.isPrefixOf_iff_prefix, List.isPrefixOf_iff_prefix,
          prefix_append_cons hsep]
      rw [List.cons_append, substituteFrom, ← List.cons_append, hmeet, substituteFrom]
      split
      case isTrue hprefix =>
        have hlength := (List.isPrefixOf_iff_prefix.mp hprefix).length_le
        rw [ih _ (by simp at hlength; omega), List.append_assoc]
      case isFalse => rw [ih 0 (Nat.zero_le _), List.cons_append]

/-- A pattern is replaced on both sides of a character that it does not hold. -/
theorem substitute_append_cons (hsep : sep ∉ pattern) (hne : pattern ≠ []) :
    substitute pattern replacement (before ++ sep :: after) =
      substitute pattern replacement before ++ sep :: substitute pattern replacement after :=
  substituteFrom_append_cons hsep hne 0 (Nat.zero_le _)

/-- A text without the pattern stays as it is. -/
theorem substitute_of_occursIn (h : occursIn pattern text = false) :
    substitute pattern replacement text = text := by
  rw [substitute]
  induction text with
  | nil => rfl
  | cons c text ih =>
    rw [occursIn, Bool.or_eq_false_iff] at h
    rw [substituteFrom, h.1]
    exact congrArg (c :: ·) (ih h.2)

end Text

/-! ### The texts of the engines -/

namespace Sql

/-- The engines that statements are written for. -/
inductive Engine where
  | embedded
  | server
deriving DecidableEq, Repr

namespace Engine

/-- The dialect of an engine. -/
def dialect : Engine → Dialect
  | .embedded => .sqlite
  | .server => .postgres

/-- The identifier of a record as text. -/
def identifierText : Engine → String
  | .embedded =>
    "lower(substr(hex(records.id), 1, 8) || '-' || substr(hex(records.id), 9, 4) || '-' || " ++
      "substr(hex(records.id), 13, 4) || '-' || substr(hex(records.id), 17, 4) || '-' || " ++
      "substr(hex(records.id), 21))"
  | .server => "CAST(records.id AS TEXT)"

/-- The time of creation of a record as text. -/
def timeText : Engine → String
  | .embedded => "strftime('%Y-%m-%dT%H:%M:%f+00:00', records.created_at)"
  | .server =>
    "to_char(records.created_at AT TIME ZONE 'UTC', " ++
      "'YYYY-MM-DD\"T\"HH24:MI:SS.MS\"+00:00\"')"

/-- What stands around the key where a cell is asked for. -/
def cellParts : Engine → List String
  | .embedded =>
    ["CASE json_type(records.data, '$.\"",
      "\"') WHEN 'null' THEN NULL WHEN 'text' THEN json_extract(records.data, '$.\"",
      "\"') WHEN 'true' THEN 1 WHEN 'false' THEN 0 ELSE json_extract(records.data, '$.\"",
      "\"') END"]
  | .server =>
    ["CASE jsonb_typeof(records.data -> '",
      "') WHEN 'null' THEN NULL WHEN 'string' THEN records.data ->> '",
      "' WHEN 'boolean' THEN CASE WHEN CAST(records.data -> '",
      "' AS BOOLEAN) THEN '1' ELSE '0' END ELSE records.data ->> '",
      "' END"]

/-- The cell with a key as text. -/
def cellText (engine : Engine) (key : String) : String :=
  "CAST(" ++ key.intercalate engine.cellParts ++ " AS TEXT)"

/-- A key of a document column as text. -/
def keyText (column key : String) : Engine → String
  | .embedded => "json_extract(" ++ column ++ ", '$.\"" ++ key ++ "\"')"
  | .server => column ++ " ->> '" ++ key ++ "'"

end Engine
end Sql

/-! ### Terms of statements -/

namespace Query.Term

open Sql (Engine)

theorem sql_recordId (engine : Engine) :
    (recordId).sql engine.dialect = engine.identifierText := by
  cases engine with
  | embedded =>
    -- the texts are long, so that they are compared as lists of characters
    rw [← String.toList_inj, sql, Sql.Dialect.uuidToText, Text.toList_replaceAll]
    dsimp only [Engine.dialect, Engine.identifierText, Sql.Dialect.sqlite]
    simp only [String.toList_append]
    repeat rewrite [String.toList_ofList]
    decide +kernel
  | server => decide +kernel

theorem sql_createdAtText (engine : Engine) :
    (createdAtText).sql engine.dialect = engine.timeText := by
  cases engine <;> decide +kernel

/-- A template filled in is the key between the parts that its placeholder leaves. -/
theorem fillKey_eq {template column : String} {parts : List String}
    (hparts : Text.cuts "json_key".toList 0 (column.toList.intercalate
      (Text.cuts "json_column".toList 0 template.toList)) = parts.map String.toList)
    (key : String) : Sql.Dialect.fillKey template column key = key.intercalate parts := by
  rw [← String.toList_inj, Sql.Dialect.fillKey, Text.toList_replaceAll, Text.toList_replaceAll,
    hparts, String.toList_intercalate]

theorem cuts_scalarTemplate (engine : Engine) :
    Text.cuts "json_key".toList 0 ("records.data".toList.intercalate
      (Text.cuts "json_column".toList 0 engine.dialect.scalarTemplate.toList)) =
        engine.cellParts.map String.toList := by
  cases engine
  all_goals
    dsimp only [Engine.dialect, Engine.cellParts, Sql.Dialect.sqlite, Sql.Dialect.postgres,
      List.map_cons, List.map_nil]
    simp only [String.toList_append]
    repeat rewrite [String.toList_ofList]
    decide +kernel

/-- The cell is asked for by its key, wherever the key stands in the template of the engine. -/
theorem sql_cell (engine : Engine) (column : Uuid) (type : ColumnType) :
    (cell column type).sql engine.dialect = engine.cellText column.text := by
  have hcast : type.castTarget = .character := by cases type; rfl
  have hcuts : Text.cuts "expr".toList 0 engine.dialect.characterTemplate.toList =
      ["CAST(".toList, " AS TEXT)".toList] := by cases engine <;> decide +kernel
  simp only [sql, hcast, Sql.Dialect.jsonScalar]
  rw [fillKey_eq (cuts_scalarTemplate engine), ← String.toList_inj, Sql.Dialect.cast,
    Text.toList_replaceAll, hcuts]
  simp [Engine.cellText, List.intercalate]

end Query.Term

/-! ### Properties of entries -/

namespace Sql.Engine

variable {qualifier : String}

/-- Nothing of the qualifier is taken for the key. -/
theorem substitute_properties (hq : Text.contains qualifier "json_key" = false) {sep : Char}
    (hsep : sep ∉ "json_key".toList) (key more : List Char) :
    Text.substitute "json_key".toList key ((qualifier ++ ".properties").toList ++ sep :: more) =
      (qualifier ++ ".properties").toList ++
        sep :: Text.substitute "json_key".toList key more := by
  have hcolumn : (qualifier ++ ".properties").toList =
      qualifier.toList ++ '.' :: "properties".toList := String.toList_append
  have hproperties : Text.occursIn "json_key".toList "properties".toList = false := by decide
  rw [hcolumn, List.append_assoc, List.cons_append,
    Text.substitute_append_cons (by decide) (by decide), Text.substitute_of_occursIn hq,
    Text.substitute_append_cons hsep (by decide), Text.substitute_of_occursIn hproperties,
    List.append_assoc, List.cons_append]

/-- **A key stands in the text as it is**, whatever key it is. -/
theorem jsonText_properties (engine : Engine)
    (hq : Text.contains qualifier "json_key" = false) (key : String) :
    engine.dialect.jsonText (qualifier ++ ".properties") key =
      engine.keyText (qualifier ++ ".properties") key := by
  have hquoted : ∀ text before after : String, Text.cuts "json_key".toList 0 text.toList =
      [before.toList, after.toList] → Text.substitute "json_key".toList key.toList text.toList =
        before.toList ++ (key.toList ++ after.toList) := by
    intro text before after h
    rw [Text.substitute, Text.substituteFrom_eq, h]
    simp [List.intercalate]
  have hmore := @substitute_properties qualifier hq
  generalize qualifier ++ ".properties" = column at *
  rw [← String.toList_inj, Dialect.jsonText, Dialect.fillKey, Text.replaceAll, String.toList_ofList,
    Text.toList_replaceAll]
  cases engine with
  | embedded =>
    have hcuts : Text.cuts "json_column".toList 0 Dialect.sqlite.textTemplate.toList =
        ["json_extract(".toList, ", '$.\"json_key\"')".toList] := by decide +kernel
    have hjoin : column.toList.intercalate ["json_extract(".toList, ", '$.\"json_key\"')".toList] =
        "json_extract".toList ++ '(' :: (column.toList ++ ',' :: " '$.\"json_key\"')".toList) := by
      simp [List.intercalate]
    have hname : Text.occursIn "json_key".toList "json_extract".toList = false := by decide
    rw [dialect, hcuts, hjoin, Text.substitute_append_cons (by decide) (by decide),
      Text.substitute_of_occursIn hname, hmore (by decide),
      hquoted " '$.\"json_key\"')" " '$.\"" "\"')" (by decide)]
    simp [keyText]
  | server =>
    have hcuts : Text.cuts "json_column".toList 0 Dialect.postgres.textTemplate.toList =
        ["".toList, " ->> 'json_key'".toList] := by decide +kernel
    have hjoin : column.toList.intercalate ["".toList, " ->> 'json_key'".toList] =
        column.toList ++ ' ' :: "->> 'json_key'".toList := by
      simp [List.intercalate]
    rw [dialect, hcuts, hjoin, hmore (by decide),
      hquoted "->> 'json_key'" "->> '" "'" (by decide)]
    simp [keyText]

end Sql.Engine
end TableStore
