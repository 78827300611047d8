import TableStore.Proofs.Documents

/-!
# Placeholders

The text of a statement is read for its numbered placeholders, dollar signs with digits after them
(`Query.placeholdersIn`). What is found in a piece of text does not depend on what follows it, as
long as the piece settles all of its dollar signs (`Query.Shows`); so the placeholders of a
statement are those of its pieces, one after the other. The templates of both dialects show none,
although there are dollar signs in them, nor do the texts of columns
(`Query.Term.shows_of_number_none`).

The literals of a query are numbered as they come (`Query.compileEach_numbers`). With that, the
placeholders of a statement are the numbers of its parameters, each once, and each of them stands
where its parameter belongs (`Query.placeholders_match_parameters`).
-/

namespace TableStore.Query

/-! ### Placeholders in a text -/

/-- The dollar signs with their digits, where digits follow. -/
def scanPlaceholders : List Char → List (List Char)
  | [] => []
  | c :: rest =>
    if c = '$' ∧ rest.head?.any Char.isDigit then
      ('$' :: rest.takeWhile Char.isDigit) :: scanPlaceholders rest
    else scanPlaceholders rest

/-- The numbered placeholders that stand in a text, from left to right. -/
def placeholdersIn (text : String) : List String :=
  (scanPlaceholders text.toList).map String.ofList

example : placeholdersIn "json_extract(a, '$.b') = $12 AND c = $3" = ["$12", "$3"] := by
  decide +kernel

/-- The text shows the placeholders with these numbers, whatever follows it. -/
def Shows (text : List Char) (numbers : List Nat) : Prop :=
  ∀ rest, scanPlaceholders (text ++ rest) =
    numbers.map (fun n => (placeholder n).toList) ++ scanPlaceholders rest

theorem placeholdersIn_of_shows {text : String} {numbers : List Nat}
    (h : Shows text.toList numbers) : placeholdersIn text = numbers.map placeholder := by
  have hscan : scanPlaceholders text.toList = numbers.map fun n => (placeholder n).toList := by
    simpa only [List.append_nil, scanPlaceholders] using h []
  rw [placeholdersIn, hscan, List.map_map]
  exact List.map_congr_left fun n _ => String.ofList_toList

section Shows

variable {a b text : List Char} {numbers more : List Nat}

theorem shows_nil : Shows [] [] :=
  fun _ => rfl

theorem Shows.append (ha : Shows a numbers) (hb : Shows b more) :
    Shows (a ++ b) (numbers ++ more) := by
  intro rest
  rw [List.append_assoc, ha, hb, List.map_append, List.append_assoc]

/-- No dollar sign of the text has a digit after it, or ends the text. -/
def isSettled : List Char → Bool
  | [] => true
  | c :: rest => (c != '$' || rest.head?.any fun d => !d.isDigit) && isSettled rest

theorem shows_of_isSettled (h : isSettled text = true) : Shows text [] := by
  intro rest
  induction text with
  | nil => rfl
  | cons c more ih =>
    rw [isSettled, Bool.and_eq_true] at h
    have hdigit : ¬ (c = '$' ∧ (more ++ rest).head?.any Char.isDigit = true) := by
      rintro ⟨rfl, hany⟩
      cases more with
      | nil => cases h.1
      | cons d more =>
        have hd : d.isDigit = true := hany
        have hnot : (!d.isDigit) = true := h.1
        rw [hd] at hnot
        cases hnot
    rw [List.cons_append, scanPlaceholders, if_neg hdigit]
    exact ih h.2

/-- Text without placeholders may stand before. -/
theorem Shows.after (ha : Shows a []) (hb : Shows b more) : Shows (a ++ b) more :=
  ha.append hb

theorem shows_of_notMem (h : '$' ∉ text) : Shows text [] := by
  refine shows_of_isSettled ?_
  induction text with
  | nil => rfl
  | cons c more ih =>
    rw [List.mem_cons, not_or] at h
    obtain ⟨hc, hmore⟩ := h
    rw [isSettled, ih hmore, Bool.and_true, Bool.or_eq_true]
    exact .inl (bne_iff_ne.mpr (Ne.symm hc))

theorem isDigit_of_mem_toString {n : Nat} {c : Char} (h : c ∈ (toString n).toList) :
    c.isDigit = true := by
  rw [Nat.toString_eq_repr, Nat.toList_repr] at h
  exact Nat.isDigit_of_mem_toDigits (by decide) (by decide) h

theorem dollar_notMem_toString (n : Nat) : '$' ∉ (toString n).toList := fun h =>
  absurd (isDigit_of_mem_toString h) (by decide)

/-- A placeholder ends where something that is no digit follows. -/
theorem shows_placeholder (n : Nat) {c : Char} (hc : c.isDigit = false)
    (h : Shows (c :: text) numbers) :
    Shows ((placeholder n).toList ++ c :: text) (n :: numbers) := by
  have hlist : (placeholder n).toList = '$' :: (toString n).toList := by
    rw [placeholder, String.toList_append]
    rfl
  have hdigits : ∀ d ∈ (toString n).toList, d.isDigit = true := fun d => isDigit_of_mem_toString
  intro rest
  have hscan : scanPlaceholders ((toString n).toList ++ (c :: text ++ rest)) =
      scanPlaceholders (c :: text ++ rest) := shows_of_notMem (dollar_notMem_toString n) _
  have htake : ((toString n).toList ++ (c :: text ++ rest)).takeWhile Char.isDigit =
      (toString n).toList := by
    rw [List.takeWhile_append_of_pos hdigits, List.cons_append, List.takeWhile_cons, hc]
    exact List.append_nil _
  have hhead : ((toString n).toList ++ (c :: text ++ rest)).head?.any Char.isDigit = true := by
    cases hn : (toString n).toList with
    | nil =>
      rw [Nat.toString_eq_repr, Nat.toList_repr] at hn
      exact absurd hn Nat.toDigits_ne_nil
    | cons d more => exact hdigits d (hn ▸ List.mem_cons_self)
  rw [List.append_assoc, hlist, List.cons_append, scanPlaceholders, if_pos ⟨rfl, hhead⟩, htake,
    hscan, h, List.map_cons, hlist]
  rfl

/-- Pieces of text with a separator between them. -/
theorem shows_intercalate {sep : List Char} (hsep : Shows sep []) {texts : List (List Char)}
    {numbers : List (List Nat)} (h : List.Forall₂ Shows texts numbers) :
    Shows (sep.intercalate texts) numbers.flatten := by
  induction h with
  | nil => exact shows_nil
  | @cons first own rest others hfirst hrest ih =>
    cases rest with
    | nil =>
      cases hrest
      simpa using hfirst
    | cons second rest =>
      rw [List.intercalate_cons_cons, List.flatten_cons]
      simpa using (hfirst.append hsep).append ih

/-- Replacing a word by text without placeholders shows none. -/
theorem shows_replaceAll {template word value : String}
    (hparts : (Text.cuts word.toList 0 template.toList).all isSettled = true)
    (hvalue : Shows value.toList []) : Shows (Text.replaceAll template word value).toList [] := by
  have hall : List.Forall₂ Shows (Text.cuts word.toList 0 template.toList)
      ((Text.cuts word.toList 0 template.toList).map fun _ => []) := by
    rw [List.forall₂_map_right_iff, List.forall₂_same]
    exact fun part hpart => shows_of_isSettled (List.all_eq_true.mp hparts part hpart)
  have hnone : ((Text.cuts word.toList 0 template.toList).map fun _ => ([] : List Nat)).flatten =
      [] := by
    simp
  rw [Text.toList_replaceAll]
  exact hnone ▸ shows_intercalate hvalue hall

end Shows

/-! ### Terms -/

section Terms

variable {d : Sql.Dialect} {text : List Char} {numbers : List Nat}

/-- The number of the placeholder that a term is. -/
def Term.number? : Term → Option Nat
  | .placeholder number => some number
  | _ => none

theorem hexDigit_ne_dollar : ∀ n < 16, Text.hexDigit n ≠ '$' := by
  decide

theorem dollar_notMem_uuid (u : Uuid) : '$' ∉ u.text.toList := by
  have hdigits : ∀ c ∈ u.digits, c ≠ '$' := by
    intro c hc
    obtain ⟨n, hn, rfl⟩ := Text.mem_hexText hc
    exact hexDigit_ne_dollar n hn
  intro h
  rw [Uuid.text, String.toList_ofList, Uuid.hyphenate] at h
  simp only [List.append_assoc, List.cons_append, List.mem_append, List.mem_cons,
    show ('$' = '-') = False by decide, false_or] at h
  rcases h with h | h | h | h | h
  · exact hdigits _ (List.mem_of_mem_take h) rfl
  · exact hdigits _ (List.mem_of_mem_drop (List.mem_of_mem_take h)) rfl
  · exact hdigits _ (List.mem_of_mem_drop (List.mem_of_mem_take h)) rfl
  · exact hdigits _ (List.mem_of_mem_drop (List.mem_of_mem_take h)) rfl
  · exact hdigits _ (List.mem_of_mem_drop h) rfl

/-- The dollar signs in the templates begin paths of documents. -/
theorem settled_templates (hd : d = .sqlite ∨ d = .postgres) :
    (Text.cuts "uuid_column".toList 0 d.uuidTemplate.toList).all isSettled = true ∧
      (Text.cuts "timestamp_column".toList 0 d.timestampTemplate.toList).all isSettled = true ∧
      (Text.cuts "expr".toList 0 d.characterTemplate.toList).all isSettled = true ∧
      (Text.cuts "json_key".toList 0 ("records.data".toList.intercalate
        (Text.cuts "json_column".toList 0 d.scalarTemplate.toList))).all isSettled = true := by
  rcases hd with rfl | rfl
  · dsimp only [Sql.Dialect.sqlite]
    simp only [String.toList_append]
    repeat rewrite [String.toList_ofList]
    decide +kernel
  · dsimp only [Sql.Dialect.postgres]
    simp only [String.toList_append]
    repeat rewrite [String.toList_ofList]
    decide +kernel

/-- A term that is no literal shows no placeholders. -/
theorem Term.shows_of_number_none (hd : d = .sqlite ∨ d = .postgres) {term : Term}
    (h : term.number? = none) : Shows (term.sql d).toList [] := by
  obtain ⟨huuid, htimestamp, hcharacter, hscalar⟩ := settled_templates hd
  cases term with
  | recordId => exact shows_replaceAll huuid (shows_of_isSettled (by decide))
  | createdAtText => exact shows_replaceAll htimestamp (shows_of_isSettled (by decide))
  | createdAt =>
    have hsettled : isSettled "records.created_at".toList = true := by decide
    exact shows_of_isSettled hsettled
  | cell column type =>
    have hcast : type.castTarget = .character := by cases type; rfl
    have hkey : Shows (d.jsonScalar "records.data" column.text).toList [] := by
      rw [← Text.toList_replaceAll] at hscalar
      exact shows_replaceAll hscalar (shows_of_notMem (dollar_notMem_uuid column))
    have hsql : (Term.cell column type).sql d =
        Text.replaceAll d.characterTemplate "expr" (d.jsonScalar "records.data" column.text) := by
      simp only [sql, hcast, Sql.Dialect.cast]
    rw [hsql]
    exact shows_replaceAll hcharacter hkey
  | placeholder number => cases h

/-- A term shows its own placeholder. -/
theorem Term.shows_sql (hd : d = .sqlite ∨ d = .postgres) (term : Term) {c : Char}
    (hc : c.isDigit = false) (h : Shows (c :: text) numbers) :
    Shows ((term.sql d).toList ++ c :: text) (term.number?.toList ++ numbers) := by
  cases term with
  | placeholder number => exact shows_placeholder number hc h
  | recordId | createdAtText | createdAt | cell =>
    exact (Term.shows_of_number_none hd rfl).after h

end Terms

/-! ### Statements -/

section Statements

variable {d : Sql.Dialect} {text : List Char} {numbers : List Nat}

/-- Placeholders with commas between them. -/
theorem shows_placeholders (own : List Nat) {c : Char} (hc : c.isDigit = false)
    (h : Shows (c :: text) numbers) :
    Shows ((", ".intercalate (own.map placeholder)).toList ++ c :: text) (own ++ numbers) := by
  induction own with
  | nil => simpa using h
  | cons n rest ih =>
    cases rest with
    | nil => simpa using shows_placeholder n hc h
    | cons m rest =>
      rw [List.map_cons, List.map_cons, String.intercalate_cons_cons, ← List.map_cons]
      simp only [String.toList_append, List.append_assoc]
      have hcomma : isSettled ", ".toList = true := by decide
      exact shows_placeholder n (by decide) ((shows_of_isSettled hcomma).after ih)

/-- The texts of list items, with commas between them. -/
theorem shows_commas {α : Type} {write : α → String} {own : α → List Nat} {items : List α}
    (h : ∀ a ∈ items, Shows (write a).toList (own a)) :
    Shows (", ".intercalate (items.map write)).toList (items.flatMap own) := by
  have hcomma : isSettled ", ".toList = true := by decide
  rw [String.toList_intercalate, List.map_map, List.flatMap]
  refine shows_intercalate (shows_of_isSettled hcomma) ?_
  rw [List.forall₂_map_left_iff, List.forall₂_map_right_iff, List.forall₂_same]
  exact h

namespace InsertPlan

/-- The numbers of the placeholders of a record. -/
def tupleNumbers (position : Nat) : List Nat :=
  (List.range 5).map fun i => 5 * position + i + 1

theorem shows_tuple (position : Nat) : Shows (tuple position).toList (tupleNumbers position) := by
  have hopen : isSettled "(".toList = true := by decide
  have hclose : isSettled [')'] = true := by decide
  have htuple : (tuple position).toList = "(".toList ++
      ((", ".intercalate ((tupleNumbers position).map placeholder)).toList ++ [')']) := by
    rw [tuple, tupleNumbers, List.map_map, String.toList_append, String.toList_append,
      List.append_assoc]
    rfl
  rw [htuple, ← List.append_nil (tupleNumbers position)]
  exact (shows_of_isSettled hopen).after
    (shows_placeholders _ (by decide) (shows_of_isSettled hclose))

theorem flatMap_tupleNumbers (m : Nat) :
    (List.range m).flatMap tupleNumbers = List.range' 1 (5 * m) := by
  induction m with
  | zero => rfl
  | succ m ih =>
    have hlast : tupleNumbers m = List.range' (1 + 5 * m) 5 := by
      rw [List.range'_eq_map_range, tupleNumbers]
      exact List.map_congr_left fun i _ => by omega
    rw [List.range_succ, List.flatMap_append, ih, List.flatMap_singleton, hlast,
      List.range'_append_1, Nat.mul_succ]

/-- The placeholders of an insertion are numbered from left to right. -/
theorem shows_sql (p : InsertPlan) : Shows p.sql.toList (List.range' 1 (5 * p.records.length)) := by
  have hfront : isSettled
      "INSERT INTO records (id, table_id, data, created_at, updated_at) VALUES ".toList = true := by
    decide +kernel
  -- the equation of this definition would have the text of the statement decoded
  unfold sql
  rw [String.toList_append, ← flatMap_tupleNumbers]
  exact (shows_of_isSettled hfront).after (shows_commas fun position _ => shows_tuple position)

end InsertPlan

namespace SelectPlan

/-- The numbers of the placeholders among terms. -/
def termNumbers (terms : List Term) : List Nat :=
  terms.flatMap fun term => term.number?.toList

variable {p : SelectPlan}

theorem shows_projection (hd : d = .sqlite ∨ d = .postgres) (p : SelectPlan) :
    Shows (p.projection d).toList (termNumbers p.outputs) := by
  have hitem : ∀ x ∈ p.outputs.zipIdx,
      Shows (x.1.sql d ++ " AS " ++ outputName x.2).toList x.1.number?.toList := by
    intro x _
    have hname : Shows (' ' :: ("AS ".toList ++ (outputName x.2).toList)) [] := by
      refine shows_of_notMem ?_
      rw [outputName, String.toList_append]
      simpa using dollar_notMem_toString x.2
    have htext : (x.1.sql d ++ " AS " ++ outputName x.2).toList =
        (x.1.sql d).toList ++ ' ' :: ("AS ".toList ++ (outputName x.2).toList) := by
      rw [String.toList_append, String.toList_append, List.append_assoc]
      rfl
    rw [htext]
    simpa using x.1.shows_sql hd (by decide) hname
  have hnumbers : termNumbers p.outputs = p.outputs.zipIdx.flatMap fun x => x.1.number?.toList := by
    rw [termNumbers, ← List.zipIdx_map_fst 0 p.outputs, List.flatMap_map, List.zipIdx_map_fst]
  rw [projection, List.mapIdx_eq_zipIdx_map, hnumbers]
  exact shows_commas hitem

theorem shows_orderClause (hd : d = .sqlite ∨ d = .postgres) (p : SelectPlan) :
    Shows (p.orderClause d).toList (termNumbers (p.order.map Prod.fst)) := by
  rw [orderClause]
  split
  case isTrue hempty =>
    rw [List.isEmpty_iff.mp hempty]
    exact shows_nil
  case isFalse =>
    have hitem : ∀ x ∈ p.order,
        Shows (x.1.sql d ++ " " ++ x.2.keyword).toList x.1.number?.toList := by
      intro x _
      have hkeyword : isSettled (' ' :: x.2.keyword.toList) = true := by
        cases x.2 <;> decide
      have htext : (x.1.sql d ++ " " ++ x.2.keyword).toList =
          (x.1.sql d).toList ++ ' ' :: x.2.keyword.toList := by
        rw [String.toList_append, String.toList_append, List.append_assoc]
        rfl
      rw [htext]
      simpa using x.1.shows_sql hd (by decide) (shows_of_isSettled hkeyword)
    have hfront : isSettled " ORDER BY ".toList = true := by decide
    rw [String.toList_append, termNumbers, List.flatMap_map]
    exact (shows_of_isSettled hfront).after (shows_commas hitem)

/-- The placeholders of a select: those of the outputs, the table, and those it is sorted by. -/
theorem shows_sql (hd : d = .sqlite ∨ d = .postgres) (p : SelectPlan) :
    Shows (p.sql d).toList
      (termNumbers p.outputs ++ 1 :: termNumbers (p.order.map Prod.fst)) := by
  let window := " LIMIT " ++ toString p.limit ++ " OFFSET " ++ toString p.offset
  have hwindow : Shows window.toList [] := by
    refine shows_of_notMem ?_
    simp only [window, String.toList_append, List.mem_append, not_or]
    exact ⟨⟨⟨by decide, dollar_notMem_toString _⟩, by decide⟩, dollar_notMem_toString _⟩
  have hrest : Shows ((p.orderClause d).toList ++ window.toList)
      (termNumbers (p.order.map Prod.fst)) := by
    simpa using (shows_orderClause hd p).append hwindow
  obtain ⟨rest, hspace⟩ : ∃ rest, (p.orderClause d).toList ++ window.toList = ' ' :: rest := by
    simp only [window, orderClause, String.toList_append]
    split
    · exact ⟨_, rfl⟩
    · rw [String.toList_append]
      exact ⟨_, rfl⟩
  have htable : " FROM records WHERE records.table_id = $1" =
      " FROM records WHERE records.table_id = " ++ placeholder 1 := by decide +kernel
  have hselect : isSettled "SELECT ".toList = true := by decide
  have hfrom : isSettled " FROM records WHERE records.table_id = ".toList = true := by
    decide +kernel
  have htext : (p.sql d).toList = "SELECT ".toList ++ ((p.projection d).toList ++
      (" FROM records WHERE records.table_id = ".toList ++
        ((placeholder 1).toList ++ ' ' :: rest))) := by
    rw [← hspace]
    unfold sql
    rw [htable]
    simp only [window, String.toList_append, List.append_assoc]
  rw [htext]
  rw [hspace] at hrest
  exact (shows_of_isSettled hselect).after ((shows_projection hd p).append
    ((shows_of_isSettled hfrom).after (shows_placeholder 1 (by decide) hrest)))

end SelectPlan
end Statements

/-! ### Placeholders and parameters -/

section Bound

variable {d : Sql.Dialect} {table : Uuid} {columns : List Column} {now : Timestamp}
  {fresh : Nat → Uuid} {params : List Param}

/-- What stands for an expression in a select: for a literal a placeholder that it is bound to, for
anything else text without placeholders. -/
def Bound (params : List Param) (e : Expr) (text : String) : Prop :=
  match e with
  | .value literal => ∃ i, text = placeholder (i + 1) ∧ params[i]? = some (.literal literal)
  | _ => placeholdersIn text = []

/-- The text of a select, and what its placeholders are bound to. -/
structure SelectBinds (d : Sql.Dialect) (table : Uuid) (q : Select) (plan : SelectPlan) : Prop where
  table_first : plan.params[0]? = some (.uuid table)
  width_eq : plan.width = q.columns.length
  names_allowed : ∀ i, checkAlias (outputName i) = .ok ()
  text : ∃ outputs order : List String,
    List.Forall₂ (Bound plan.params) q.columns outputs ∧
    List.Forall₂ (Bound plan.params) (q.orderBy.map SortExpr.expr) order ∧
    plan.sql d =
      "SELECT " ++
        ", ".intercalate (outputs.mapIdx fun i text => text ++ " AS " ++ outputName i) ++
        " FROM records WHERE records.table_id = $1" ++
        (if order.isEmpty then ""
          else " ORDER BY " ++ ", ".intercalate
            (List.zipWith (fun text s => text ++ " " ++ s.direction.keyword) order q.orderBy)) ++
        " LIMIT " ++ toString q.limit ++ " OFFSET " ++ toString q.offset

/-- The text of an insertion, and what its placeholders are bound to. -/
structure InsertBinds (table : Uuid) (now : Timestamp) (q : Insert) (plan : InsertPlan) : Prop where
  length_eq : plan.params.length = 5 * q.rows.length
  length_recordIds : plan.recordIds.length = q.rows.length
  text : plan.sql =
    "INSERT INTO records (id, table_id, data, created_at, updated_at) VALUES " ++
      ", ".intercalate ((List.range q.rows.length).map fun i =>
        "(" ++ ", ".intercalate
          [placeholder (5 * i + 1), placeholder (5 * i + 2), placeholder (5 * i + 3),
            placeholder (5 * i + 4), placeholder (5 * i + 5)] ++ ")")
  rows : ∀ i row, q.rows[i]? = some row → ∃ id, plan.recordIds[i]? = some id ∧
    (plan.params.drop (5 * i)).take 5 =
      [.uuid id, .uuid table, .document (.obj (rowData q.columns row)), .timestamp now,
        .timestamp now]

/-- The name of an output is always one that is allowed. -/
theorem checkAlias_outputName (position : Nat) : checkAlias (outputName position) = .ok () := by
  have hkey : isKey (outputName position) = true := by
    have hlist : (outputName position).toList = '_' :: (toString position).toList := by
      rw [outputName, String.toList_append]
      rfl
    rw [isKey, hlist, List.all_cons]
    refine List.all_eq_true.mpr fun c hc => ?_
    simp [isKeyChar, Char.isAlphanum, isDigit_of_mem_toString hc]
  rw [checkAlias, if_pos hkey]

theorem compileExpr_number {n : Nat} {e : Expr} {term : Term} {own : List Json}
    (h : compileExpr columns n e = .ok (term, own)) :
    term.number?.toList = List.range' n own.length := by
  cases e with
  | metadata field => cases field <;> (cases h; rfl)
  | column id =>
    obtain ⟨type, -, heq⟩ := map_ok h
    cases heq
    rfl
  | value literal =>
    cases h
    rfl
  | func name args => cases h
  | binary op left right => cases h
  | unary op operand => cases h

theorem compileOutput_number {n : Nat} {e : Expr} {term : Term} {own : List Json}
    (h : compileOutput columns n e = .ok (term, own)) :
    term.number?.toList = List.range' n own.length := by
  by_cases he : e = .metadata .createdAt
  · subst he
    cases h
    rfl
  · rw [compileOutput_of_ne n he] at h
    exact compileExpr_number h

/-- The literals of a list of expressions are numbered as they come. -/
theorem compileEach_numbers {compile : Nat → Expr → Except QueryError (Term × List Json)}
    (hcompile : ∀ n e term own, compile n e = .ok (term, own) →
      term.number?.toList = List.range' n own.length)
    {next : Nat} {es : List Expr} {terms : List Term} {literals : List Json}
    (h : compileEach compile next es = .ok (terms, literals)) :
    SelectPlan.termNumbers terms = List.range' next literals.length := by
  induction es generalizing next terms literals with
  | nil =>
    cases h
    rfl
  | cons e rest ih =>
    rw [compileEach] at h
    obtain ⟨⟨term, own⟩, hfirst, h⟩ := bind_ok h
    obtain ⟨⟨others, more⟩, hrest, h⟩ := bind_ok h
    obtain ⟨rfl, rfl⟩ := Prod.mk.inj (Except.ok.inj h)
    rw [SelectPlan.termNumbers, List.flatMap_cons, hcompile _ _ _ _ hfirst, List.length_append,
      ← List.range'_append_1, ← ih hrest]
    rfl

/-- The text of a term stands for its expression, if its literal is the next parameter. -/
theorem bound_of_compileExpr (hd : d = .sqlite ∨ d = .postgres) {i : Nat} {e : Expr}
    {term : Term} {own : List Json} (h : compileExpr columns (i + 1) e = .ok (term, own))
    (hparams : own.map Param.literal <+: params.drop i) : Bound params e (term.sql d) := by
  have hnone (hnumber : term.number? = none) : placeholdersIn (term.sql d) = [] :=
    placeholdersIn_of_shows (Term.shows_of_number_none hd hnumber)
  cases e with
  | metadata field => cases field <;> (cases h; exact hnone rfl)
  | column id =>
    obtain ⟨type, -, heq⟩ := map_ok h
    cases heq
    exact hnone rfl
  | value literal =>
    cases h
    obtain ⟨rest, hrest⟩ := hparams
    refine ⟨i, rfl, ?_⟩
    rw [← List.head?_drop, ← hrest]
    rfl
  | func name args => cases h
  | binary op left right => cases h
  | unary op operand => cases h

theorem bound_of_compileOutput (hd : d = .sqlite ∨ d = .postgres) {i : Nat} {e : Expr}
    {term : Term} {own : List Json} (h : compileOutput columns (i + 1) e = .ok (term, own))
    (hparams : own.map Param.literal <+: params.drop i) : Bound params e (term.sql d) := by
  by_cases he : e = .metadata .createdAt
  · subst he
    cases h
    exact placeholdersIn_of_shows (Term.shows_of_number_none hd rfl)
  · rw [compileOutput_of_ne _ he] at h
    exact bound_of_compileExpr hd h hparams

/-- The texts of a list of expressions, whose literals are the parameters from a position on. -/
theorem bound_of_compileEach {compile : Nat → Expr → Except QueryError (Term × List Json)}
    (hcompile : ∀ i e term own, compile (i + 1) e = .ok (term, own) →
      own.map Param.literal <+: params.drop i → Bound params e (term.sql d))
    {i : Nat} {es : List Expr} {terms : List Term} {literals : List Json}
    (h : compileEach compile (i + 1) es = .ok (terms, literals))
    (hparams : literals.map Param.literal <+: params.drop i) :
    List.Forall₂ (Bound params) es (terms.map (Term.sql d)) := by
  rw [List.forall₂_map_right_iff]
  refine (compileEach_ok h).imp ?_
  rintro e term ⟨k, own, hterm, hown⟩
  refine hcompile (i + k) e term own (by rwa [Nat.add_right_comm]) ?_
  have hfront : own.map Param.literal <+: (literals.map Param.literal).drop k := by
    rw [← List.map_drop]
    exact hown.map _
  obtain ⟨rest, hrest⟩ := hparams
  rw [← List.drop_drop, ← hrest, List.drop_append]
  exact hfront.trans (List.prefix_append _ _)

theorem selectBinds (hd : d = .sqlite ∨ d = .postgres) {q : Select} {plan : SelectPlan}
    (h : compileSelect table columns q = .ok plan) : SelectBinds d table q plan := by
  obtain ⟨-, -, outputs, literals, order, more, houtputs, horder, rfl⟩ := compileSelect_ok h
  have hwidth : outputs.length = q.columns.length := (compileEach_ok houtputs).length_eq.symm
  have hlength : order.length = q.orderBy.length := by
    simpa using (compileEach_ok horder).length_eq.symm
  refine ⟨rfl, hwidth, checkAlias_outputName, outputs.map (Term.sql d), order.map (Term.sql d),
    ?_, ?_, ?_⟩
  · refine bound_of_compileEach (fun _ _ _ _ => bound_of_compileOutput hd) houtputs ?_
    simp only [SelectPlan.params, List.map_append, List.drop_succ_cons, List.drop_zero]
    exact List.prefix_append _ _
  · rw [show 2 + literals.length = 1 + literals.length + 1 by omega] at horder
    refine bound_of_compileEach (fun _ _ _ _ => bound_of_compileExpr hd) horder ?_
    simp [SelectPlan.params, Nat.add_comm 1]
  · exact SelectPlan.sql_eq hlength _ _ _

theorem insertBinds {q : Insert} {plan : InsertPlan}
    (h : compileInsert table columns now fresh q = .ok plan) : InsertBinds table now q plan := by
  have hids : plan.recordIds = (List.range q.rows.length).map fresh := recordIds_of_compileInsert h
  refine ⟨?_, by simp [hids], ?_, fun i row hrow => ⟨fresh i, ?_, ?_⟩⟩
  · rw [plan.length_params, length_records h]
  · unfold InsertPlan.sql
    rw [length_records h]
    rfl
  · have hi : i < q.rows.length := (List.getElem?_eq_some_iff.mp hrow).1
    rw [hids, List.getElem?_map, List.getElem?_range hi]
    rfl
  · refine List.ext_getElem? fun k => ?_
    rw [List.getElem?_take, List.getElem?_drop, insertParams_getElem? h]
    split
    case isTrue hk =>
      rw [show (5 * i + k) / 5 = i by omega, show (5 * i + k) % 5 = k by omega, hrow]
      rfl
    case isFalse hk => rw [List.getElem?_eq_none (by simpa using hk)]

/-- The numbers of the placeholders in the text of a plan are those of its parameters. -/
theorem placeholdersIn_perm (hd : d = .sqlite ∨ d = .postgres) {q : Query} {plan : Plan}
    (h : compile table columns now fresh q = .ok plan) :
    (placeholdersIn (plan.sql d)).Perm
      ((List.range plan.params.length).map fun i => placeholder (i + 1)) := by
  have hrange (n : Nat) : (List.range n).map (fun i => placeholder (i + 1)) =
      (List.range' 1 n).map placeholder := by
    rw [List.range'_eq_map_range, List.map_map]
    exact List.map_congr_left fun i _ => by rw [Function.comp, Nat.add_comm]
  rw [hrange]
  cases plan with
  | insert plan =>
    have htext : placeholdersIn (Plan.sql d (.insert plan)) = _ :=
      placeholdersIn_of_shows plan.shows_sql
    rw [htext, ← plan.length_params]
    exact .refl _
  | select plan =>
    obtain ⟨q, rfl, hplan⟩ := compile_select_ok h
    obtain ⟨-, -, outputs, literals, order, more, houtputs, horder, rfl⟩ := compileSelect_ok hplan
    have hlength : order.length = q.orderBy.length := by
      simpa using (compileEach_ok horder).length_eq.symm
    rw [Plan.sql, placeholdersIn_of_shows (SelectPlan.shows_sql hd _)]
    have hfst : (order.zip (q.orderBy.map SortExpr.direction)).map Prod.fst = order :=
      List.map_fst_zip (by simp [hlength])
    have hcount : (Plan.params (.select ⟨table, outputs,
        order.zip (q.orderBy.map SortExpr.direction), q.limit, q.offset,
        literals ++ more⟩)).length = literals.length + more.length + 1 := by
      simp [Plan.params, SelectPlan.params]
    rw [hcount, List.range'_succ, ← List.range'_append_1]
    refine List.Perm.map _ ?_
    dsimp only
    rw [hfst, compileEach_numbers (fun _ _ _ _ => compileOutput_number) houtputs,
      compileEach_numbers (fun _ _ _ _ => compileExpr_number) horder]
    exact List.perm_middle

end Bound

/-- **Placeholders and parameters match.** The numbered placeholders in the text of a plan are `$1`
to `$n` for its `n` parameters, each once. In a select `$1` is the table, the placeholders among the
outputs and in the order are bound to the literals that they stand for, and the outputs are named in
their order. In an insertion the placeholders of a row are bound to the identifier of its record,
the table, the document of the row, and twice the time. -/
theorem placeholders_match_parameters {d : Sql.Dialect} (hd : d = .sqlite ∨ d = .postgres)
    {table : Uuid} {columns : List Column} {now : Timestamp} {fresh : Nat → Uuid} {query : Query}
    {plan : Plan} (h : compile table columns now fresh query = .ok plan) :
    (placeholdersIn (plan.sql d)).Perm
        ((List.range plan.params.length).map fun i => placeholder (i + 1)) ∧
      (∀ q, query = .select q → ∃ p, plan = .select p ∧ SelectBinds d table q p) ∧
      ∀ q, query = .insert q → ∃ p, plan = .insert p ∧ InsertBinds table now q p := by
  refine ⟨placeholdersIn_perm hd h, ?_, ?_⟩
  · rintro q rfl
    obtain ⟨p, hp, rfl⟩ := map_ok h
    exact ⟨p, rfl, selectBinds hd hp⟩
  · rintro q rfl
    obtain ⟨p, hp, rfl⟩ := map_ok h
    exact ⟨p, rfl, insertBinds hp⟩

/-- Two literals, one among the outputs and one in the order, beside the dollar sign of a path. -/
theorem placeholders_of_two_literals :
    let column : Column := ⟨⟨3⟩, ⟨7⟩, 0, "a", .string, .empty, ⟨0⟩, ⟨0⟩⟩
    let q : Select :=
      ⟨[.column ⟨3⟩, .value (.str "x")], none, [⟨.value (.str "y"), .desc⟩], 0, 10⟩
    ∃ plan, compile ⟨7⟩ [column] ⟨0⟩ (fun _ => ⟨0⟩) (.select q) = .ok plan ∧
      plan.params = [.uuid ⟨7⟩, .literal (.str "x"), .literal (.str "y")] ∧
      (placeholdersIn (plan.sql .sqlite)).Perm ["$1", "$2", "$3"] := by
  intro column q
  let plan : SelectPlan :=
    ⟨⟨7⟩, [.cell ⟨3⟩ .string, .placeholder 2], [(.placeholder 3, .desc)], 10, 0,
      [.str "x", .str "y"]⟩
  have hplan : compile ⟨7⟩ [column] ⟨0⟩ (fun _ => ⟨0⟩) (.select q) = .ok (.select plan) := by
    decide +kernel
  have hnumbers : ((List.range 3).map fun i => placeholder (i + 1)) = ["$1", "$2", "$3"] := by
    decide +kernel
  exact ⟨.select plan, hplan, rfl, hnumbers ▸ (placeholders_match_parameters (.inl rfl) hplan).1⟩

end TableStore.Query
