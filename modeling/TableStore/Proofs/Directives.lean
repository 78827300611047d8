import Mathlib
import TableStore.Proofs.Programs
import TableStore.Sort

/-!
# Directives to sort by

How a sort key is written, said without the reader. `SortKey.Directive k text` says that the text is
a directive for the key: the name of its field with any blanks around it, then a colon and the name
of the direction in any case, which may be left out where it is ascending. `SortKey.Faulty e text`
says what is wrong with a text that is a directive for no key. Texts are read by these rules
(`SortKey.read_eq_ok`, `SortKey.read_eq_error`).

`SortKey.Writes keys texts` says that the texts are directives for the keys, in their order, with
blank texts anywhere. **Directives parse back** (`SortKey.directives_parse_back`): such a list of
texts is read as the keys, also from one parameter with commas between the texts, and any other list
is refused for the first of its texts that is at fault.
-/

namespace TableStore

/-! ### Blanks -/

namespace Text

variable {sep : Char} {text before name after a b : List Char}

/-- Neither the first character is blank nor the last one. -/
def IsTrimmed (text : List Char) : Prop :=
  (∀ c ∈ text.head?, isBlank c = false) ∧ ∀ c ∈ text.getLast?, isBlank c = false

theorem dropWhile_blank_append (hbefore : ∀ c ∈ before, isBlank c = true)
    (h : ∀ c ∈ name.head?, isBlank c = false) (hafter : ∀ c ∈ after, isBlank c = true) :
    (before ++ name ++ after).dropWhile isBlank = if name = [] then [] else name ++ after := by
  rw [List.append_assoc, List.dropWhile_append_of_pos hbefore]
  cases name with
  | nil => exact List.dropWhile_eq_nil_iff.mpr hafter
  | cons c rest =>
    have hc : isBlank c = false := h c rfl
    rw [if_neg (List.cons_ne_nil c rest), List.cons_append,
      List.dropWhile_cons_of_neg (by simp [hc])]

/-- Blanks around a text are trimmed. -/
theorem trimBlank_append (hbefore : ∀ c ∈ before, isBlank c = true) (hname : IsTrimmed name)
    (hafter : ∀ c ∈ after, isBlank c = true) : trimBlank (before ++ name ++ after) = name := by
  rw [trimBlank, dropWhile_blank_append hbefore hname.1 hafter]
  split
  case isTrue h => simp [h]
  case isFalse h =>
    have hback : (after.reverse ++ name.reverse ++ []).dropWhile isBlank =
        if name.reverse = [] then [] else name.reverse ++ [] :=
      dropWhile_blank_append (by simpa using hafter) (by simpa using hname.2) (by simp)
    rw [List.append_nil, if_neg (by simpa using h), List.append_nil, ← List.reverse_append] at hback
    rw [hback, List.reverse_reverse]

/-- The first character that is kept is not blank. -/
theorem head?_dropWhile_blank (text : List Char) :
    ∀ c ∈ (text.dropWhile isBlank).head?, isBlank c = false := by
  intro c hc
  have hkept := List.head?_dropWhile_not isBlank text
  rw [Option.mem_def.mp hc] at hkept
  exact hkept

/-- A text is what is left of it between blanks. -/
theorem exists_trimBlank (text : List Char) :
    IsTrimmed (trimBlank text) ∧ ∃ before after, (∀ c ∈ before, isBlank c = true) ∧
      (∀ c ∈ after, isBlank c = true) ∧ text = before ++ trimBlank text ++ after := by
  have htail : trimBlank text ++ ((text.dropWhile isBlank).reverse.takeWhile isBlank).reverse =
      text.dropWhile isBlank := by
    rw [trimBlank, ← List.reverse_append, List.takeWhile_append_dropWhile, List.reverse_reverse]
  refine ⟨⟨fun c hc => ?_, fun c hc => ?_⟩, text.takeWhile isBlank,
    ((text.dropWhile isBlank).reverse.takeWhile isBlank).reverse,
    fun c => List.mem_takeWhile_imp,
    fun c hc => List.mem_takeWhile_imp (List.mem_reverse.mp hc), ?_⟩
  · have hhead := head?_dropWhile_blank text c
    rw [← htail, List.head?_append, Option.mem_def.mp hc] at hhead
    exact hhead rfl
  · rw [trimBlank, List.getLast?_reverse] at hc
    exact head?_dropWhile_blank _ c hc
  · rw [List.append_assoc, htail, List.takeWhile_append_dropWhile]

/-! ### Separators -/

theorem cutAt_append (h : sep ∉ a) : cutAt sep (a ++ sep :: b) = some (a, b) := by
  induction a with
  | nil => simp [cutAt]
  | cons c a ih =>
    rw [List.mem_cons, not_or] at h
    simp [cutAt, Ne.symm h.1, ih h.2]

theorem cutAt_eq_none : cutAt sep text = none ↔ sep ∉ text := by
  induction text with
  | nil => simp [cutAt]
  | cons c text ih =>
    by_cases hc : c = sep
    · simp [cutAt, hc]
    · simp [cutAt, hc, Ne.symm hc, ih]

/-- What separators are put between is found between them. -/
theorem pieces_intercalate {parts : List (List Char)} (h : ∀ part ∈ parts, sep ∉ part) :
    parts ≠ [] → pieces sep ([sep].intercalate parts) = parts := by
  induction parts with
  | nil => exact fun hne => absurd rfl hne
  | cons part parts ih =>
    intro _
    obtain ⟨hpart, hparts⟩ := List.forall_mem_cons.mp h
    cases parts with
    | nil => simpa using pieces_of_notMem hpart
    | cons next parts =>
      have hrest := ih hparts (List.cons_ne_nil _ _)
      rw [List.intercalate_cons_cons, List.append_assoc, List.singleton_append,
        pieces_append hpart, hrest]

theorem stripHead?_eq_some {text head rest : String} :
    stripHead? text head = some rest ↔ text = head ++ rest := by
  rw [stripHead?]
  constructor
  · intro h
    split at h
    case isFalse => cases h
    case isTrue hp =>
      obtain ⟨more, hmore⟩ := List.isPrefixOf_iff_prefix.mp hp
      obtain rfl := Option.some_inj.mp h
      rw [← String.toList_inj, String.toList_append, String.toList_ofList, ← hmore,
        List.drop_left]
  · rintro rfl
    rw [String.toList_append, if_pos (List.isPrefixOf_iff_prefix.mpr (List.prefix_append _ _)),
      List.drop_left, String.ofList_toList]

end Text

/-! ### Directions -/

namespace Direction

variable {d : Direction} {text : String}

/-- The text is the name of the direction with each letter in either case. -/
def Names (d : Direction) (text : String) : Prop :=
  List.Forall₂ (fun c letter => c = letter ∨ c = letter.toUpper) text.toList d.name.toList

/-- A character becomes a small letter if it is this letter in either case. -/
theorem toLower_eq_iff {c letter : Char} (h : letter.isLower = true) :
    c.toLower = letter ↔ c = letter ∨ c = letter.toUpper := by
  have hsmall : letter.toLower = letter :=
    Char.toLower_eq_of_not_isUpper (Char.not_isUpper_of_isLower h)
  constructor
  · rintro rfl
    by_cases hc : c.isUpper = true
    · have hlarge : c.toUpper = c := Char.toUpper_eq_of_not_isLower (Char.not_isLower_of_isUpper hc)
      exact .inr ((Char.toUpper_toLower_eq_toUpper c).trans hlarge).symm
    · exact .inl (Char.toLower_eq_of_not_isUpper hc).symm
  · rintro (rfl | rfl)
    · exact hsmall
    · exact (Char.toLower_toUpper_eq_toLower letter).trans hsmall

theorem map_toLower_eq_iff {cs letters : List Char} (h : ∀ l ∈ letters, l.isLower = true) :
    cs.map Char.toLower = letters ↔
      List.Forall₂ (fun c letter => c = letter ∨ c = letter.toUpper) cs letters := by
  rw [← List.forall₂_eq_eq_eq, List.forall₂_map_left_iff]
  induction cs generalizing letters with
  | nil => cases letters <;> simp
  | cons c cs ih =>
    cases letters with
    | nil => simp
    | cons l letters =>
      obtain ⟨hl, hrest⟩ := List.forall_mem_cons.mp h
      rw [List.forall₂_cons, List.forall₂_cons, toLower_eq_iff hl, ih hrest]

theorem isLower_of_mem_name (d : Direction) : ∀ l ∈ d.name.toList, l.isLower = true := by
  cases d <;> simp [name]

/-- A direction is read where its name stands. -/
theorem read?_eq_some : read? text = some d ↔ d.Names text := by
  rw [Names, ← map_toLower_eq_iff d.isLower_of_mem_name, read?]
  cases d with
  | asc =>
    split
    case isTrue h => simp [h]
    case isFalse h =>
      simp only [h, iff_false]
      split <;> simp
  | desc =>
    split
    case isTrue h => simp [h, name]
    case isFalse h =>
      split
      case isTrue h => simp [h]
      case isFalse h => simp [h]

theorem read?_eq_none : read? text = none ↔ ∀ d : Direction, ¬ d.Names text := by
  rw [Option.eq_none_iff_forall_ne_some]
  exact forall_congr' fun d => not_congr read?_eq_some

end Direction

/-! ### Fields -/

/-- A character of a key is no blank and separates nothing. -/
theorem isKeyChar_spec {c : Char} (h : isKeyChar c = true) :
    Text.isBlank c = false ∧ c ≠ ':' ∧ c ≠ ',' := by
  have hrange : 48 ≤ c.toNat ∧ c.toNat ≤ 57 ∨ 65 ≤ c.toNat ∧ c.toNat ≤ 90 ∨
      97 ≤ c.toNat ∧ c.toNat ≤ 122 ∨ c.toNat = 95 := by
    simp only [isKeyChar, Char.isAlphanum, Char.isAlpha, Char.isUpper, Char.isLower, Char.isDigit,
      Bool.or_eq_true, Bool.and_eq_true, decide_eq_true_eq, beq_iff_eq, UInt32.le_iff_toNat_le,
      ge_iff_le, ← Char.toNat_inj] at h
    simp only [Char.toNat_val, Char.reduceToNat, Char.reduceVal, UInt32.reduceToNat] at h
    omega
  refine ⟨?_, ?_, ?_⟩
  · by_contra hblank
    simp only [Text.isBlank, Text.whiteSpace, List.any_cons, List.any_nil, Bool.not_eq_false,
      Bool.or_eq_true, Bool.and_eq_true, decide_eq_true_eq, Bool.false_eq_true, or_false] at hblank
    omega
  all_goals
    rintro rfl
    revert hrange
    decide

namespace SortField

variable {f : SortField} {text : String} {e : SortError}

/-- A property that is sorted by has a key that properties can have. -/
def IsValid : SortField → Prop
  | .property key => isKey key = true
  | _ => True

/-- What the key of a property can be. -/
theorem isValid_property {key : String} : (SortField.property key).IsValid ↔
    key ≠ "" ∧ ∀ c ∈ key.toList, c.isAlphanum = true ∨ c = '_' := by
  show (!key.toList.isEmpty && key.toList.all isKeyChar) = true ↔ _
  simp [isKeyChar]

/-- The name of a field has no blanks in it and nothing that separates. -/
theorem spec_of_mem_name (h : f.IsValid) {c : Char} (hc : c ∈ f.name.toList) :
    Text.isBlank c = false ∧ c ≠ ':' ∧ c ≠ ',' := by
  have hword : ∀ word : String, (word.toList.all fun c => isKeyChar c || c == '.') = true →
      c ∈ word.toList → Text.isBlank c = false ∧ c ≠ ':' ∧ c ≠ ',' := by
    intro word hall hmem
    rcases Bool.or_eq_true _ _ ▸ List.all_eq_true.mp hall c hmem with hkey | hpoint
    · exact isKeyChar_spec hkey
    · rw [beq_iff_eq.mp hpoint]
      decide
  cases f with
  | property key =>
    rw [name, String.toList_append] at hc
    rcases List.mem_append.mp hc with hc | hc
    · exact hword "properties." (by decide) hc
    · exact isKeyChar_spec (by simpa [isKeyChar] using (isValid_property.mp h).2 c hc)
  | _ => exact hword _ (by decide) hc

theorem isTrimmed_name (h : f.IsValid) : Text.IsTrimmed f.name.toList :=
  ⟨fun _ hc => (spec_of_mem_name h (List.mem_of_mem_head? hc)).1,
    fun _ hc => (spec_of_mem_name h (List.mem_of_mem_getLast? hc)).1⟩

theorem name_ne_empty (f : SortField) : f.name ≠ "" := by
  cases f with
  | property key =>
    rw [name, ← String.toList_inj.ne, String.toList_append]
    simp
  | _ => decide

theorem name_property_ne {key word : String}
    (h : "properties.".toList.isPrefixOf word.toList = false) :
    (SortField.property key).name ≠ word := by
  rintro rfl
  rw [name, String.toList_append, List.isPrefixOf_iff_prefix.mpr (List.prefix_append _ _)] at h
  cases h

/-- The name of a field is read as the field. -/
theorem read_name (h : f.IsValid) : SortField.read f.name = .ok f := by
  cases f with
  | property key =>
    have hkey : isKey key = true := h
    have hstrip : Text.stripHead? (SortField.property key).name "properties." = some key :=
      Text.stripHead?_eq_some.mpr rfl
    rw [read, if_neg (name_property_ne (by decide)), if_neg (name_property_ne (by decide)),
      if_neg (name_property_ne (by decide)), if_neg (name_property_ne (by decide)), hstrip]
    exact if_pos hkey
  | _ => rfl

/-- Text is the name of a field, or it is refused. -/
theorem read_cases (text : String) :
    (∃ f : SortField, f.IsValid ∧ f.name = text) ∨
      SortField.read text = .error (.unknownField text) := by
  by_cases hplain : text ∈ ["id", "type", "created_at", "updated_at"]
  · simp only [List.mem_cons, List.not_mem_nil, or_false] at hplain
    rcases hplain with rfl | rfl | rfl | rfl
    · exact .inl ⟨.id, trivial, rfl⟩
    · exact .inl ⟨.type, trivial, rfl⟩
    · exact .inl ⟨.createdAt, trivial, rfl⟩
    · exact .inl ⟨.updatedAt, trivial, rfl⟩
  · simp only [List.mem_cons, List.not_mem_nil, or_false, not_or] at hplain
    obtain ⟨hid, htype, hcreated, hupdated⟩ := hplain
    rw [read, if_neg hid, if_neg htype, if_neg hcreated, if_neg hupdated]
    cases hstrip : Text.stripHead? text "properties." with
    | none => exact .inr rfl
    | some key =>
      by_cases hkey : isKey key = true
      · exact .inl ⟨.property key, hkey, (Text.stripHead?_eq_some.mp hstrip).symm⟩
      · exact .inr (if_neg hkey)

/-- A field is read where its name stands. -/
theorem read_eq_ok : SortField.read text = .ok f ↔ f.IsValid ∧ f.name = text := by
  constructor
  · intro h
    rcases read_cases text with ⟨f', hf', rfl⟩ | herror
    · rw [read_name hf'] at h
      obtain rfl := Except.ok.inj h
      exact ⟨hf', rfl⟩
    · rw [herror] at h
      cases h
  · rintro ⟨hvalid, rfl⟩
    exact read_name hvalid

/-- Text that is the name of no field is refused. -/
theorem read_eq_error :
    SortField.read text = .error e ↔
      e = .unknownField text ∧ ∀ f : SortField, f.IsValid → f.name ≠ text := by
  constructor
  · intro h
    refine ⟨?_, fun f hf hname => ?_⟩
    · rcases read_cases text with ⟨f, hf, rfl⟩ | herror
      · rw [read_name hf] at h
        cases h
      · exact (Except.error.inj (herror.symm.trans h)).symm
    · rw [read_eq_ok.mpr ⟨hf, hname⟩] at h
      cases h
  · rintro ⟨rfl, hnone⟩
    exact (read_cases text).resolve_left fun ⟨f, hf, hname⟩ => hnone f hf hname

end SortField

/-! ### Directives -/

namespace SortKey

variable {k : SortKey} {keys : List SortKey} {text field direction : String} {e : SortError}

/-- The text is a directive for the key: the name of the field among blanks, then a colon and the
name of the direction, which may be left out where it is ascending. -/
inductive Directive : SortKey → String → Prop where
  | plain {f : SortField} {before after : String} (hfield : f.IsValid)
    (hbefore : isBlank before = true) (hafter : isBlank after = true) :
    Directive ⟨f, .asc⟩ (before ++ f.name ++ after)
  | directed {f : SortField} {d : Direction} {before after direction : String}
    (hfield : f.IsValid) (hbefore : isBlank before = true) (hafter : isBlank after = true)
    (hdirection : d.Names direction) :
    Directive ⟨f, d⟩ (before ++ f.name ++ after ++ ":" ++ direction)

/-- What is wrong with a text: after its first colon stands no direction, or what stands before the
colon, or in all of it if there is none, is between blanks the name of no field. -/
inductive Faulty : SortError → String → Prop where
  | direction {field direction : String} (hfirst : ':' ∉ field.toList)
    (hdirection : ∀ d : Direction, ¬ d.Names direction) :
    Faulty (.invalidDirection direction) (field ++ ":" ++ direction)
  | plainField {before name after : String} (hbefore : isBlank before = true)
    (hafter : isBlank after = true) (htrimmed : Text.IsTrimmed name.toList)
    (hcolon : ':' ∉ name.toList) (hname : ∀ f : SortField, f.IsValid → f.name ≠ name) :
    Faulty (.unknownField name) (before ++ name ++ after)
  | directedField {before name after direction : String} {d : Direction}
    (hbefore : isBlank before = true) (hafter : isBlank after = true)
    (htrimmed : Text.IsTrimmed name.toList) (hcolon : ':' ∉ name.toList)
    (hname : ∀ f : SortField, f.IsValid → f.name ≠ name) (hdirection : d.Names direction) :
    Faulty (.unknownField name) (before ++ name ++ after ++ ":" ++ direction)

theorem isBlank_iff : isBlank text = true ↔ ∀ c ∈ text.toList, Text.isBlank c = true :=
  List.all_eq_true

/-- Text between blanks is trimmed to itself. -/
theorem trim_append {before name after : String} (hbefore : isBlank before = true)
    (hname : Text.IsTrimmed name.toList) (hafter : isBlank after = true) :
    Text.trim (before ++ name ++ after) = name := by
  rw [Text.trim, String.toList_append, String.toList_append,
    Text.trimBlank_append (isBlank_iff.mp hbefore) hname (isBlank_iff.mp hafter),
    String.ofList_toList]

/-- A text is what it is trimmed to, between blanks. -/
theorem exists_trim (text : String) : Text.IsTrimmed (Text.trim text).toList ∧
    ∃ before after, isBlank before = true ∧ isBlank after = true ∧
      text = before ++ Text.trim text ++ after := by
  obtain ⟨htrimmed, before, after, hbefore, hafter, htext⟩ := Text.exists_trimBlank text.toList
  rw [Text.trim, String.toList_ofList]
  refine ⟨htrimmed, .ofList before, .ofList after, ?_, ?_, ?_⟩
  · exact isBlank_iff.mpr (by rwa [String.toList_ofList])
  · exact isBlank_iff.mpr (by rwa [String.toList_ofList])
  · rw [← String.ofList_append, ← String.ofList_append, ← htext, String.ofList_toList]

/-- A text without a colon is a field. -/
theorem read_of_notMem (h : ':' ∉ text.toList) :
    read text = (SortField.read (Text.trim text)).map fun f => ⟨f, .asc⟩ := by
  rw [read, Text.cutAt_eq_none.mpr h]
  simp only [pure_bind]
  cases SortField.read (Text.trim text) <;> rfl

/-- What stands after the first colon is a direction. -/
theorem read_append (h : ':' ∉ field.toList) :
    read (field ++ ":" ++ direction) =
      match Direction.read? direction with
      | some d => (SortField.read (Text.trim field)).map fun f => ⟨f, d⟩
      | none => .error (.invalidDirection direction) := by
  have hlist : (field ++ ":" ++ direction).toList = field.toList ++ ':' :: direction.toList := by
    simp
  rw [read, hlist, Text.cutAt_append h]
  simp only [String.ofList_toList]
  cases Direction.read? direction with
  | none => rfl
  | some d =>
    simp only [pure_bind]
    cases SortField.read (Text.trim field) <;> rfl

/-- A text has no colon, or there is a first one. -/
theorem exists_colon (text : String) : ':' ∉ text.toList ∨
    ∃ field direction : String, ':' ∉ field.toList ∧ text = field ++ ":" ++ direction := by
  cases hcut : Text.cutAt ':' text.toList with
  | none => exact .inl (Text.cutAt_eq_none.mp hcut)
  | some parts =>
    obtain ⟨htext, hfirst⟩ := Text.cutAt_eq_some hcut
    refine .inr ⟨.ofList parts.1, .ofList parts.2, by rwa [String.toList_ofList], ?_⟩
    rw [← String.toList_inj, htext]
    simp

theorem notMem_of_isBlank {c : Char} (hc : Text.isBlank c = false) (h : isBlank text = true) :
    c ∉ text.toList := fun hmem => by
  rw [isBlank_iff.mp h c hmem] at hc
  cases hc

/-- A character that is not blank stands in the text between the blanks. -/
theorem notMem_between {before name after : String} {c : Char} (hc : Text.isBlank c = false)
    (hbefore : isBlank before = true) (hafter : isBlank after = true) (hname : c ∉ name.toList) :
    c ∉ (before ++ name ++ after).toList := by
  rw [String.toList_append, String.toList_append, List.mem_append, List.mem_append, not_or, not_or]
  exact ⟨⟨notMem_of_isBlank hc hbefore, hname⟩, notMem_of_isBlank hc hafter⟩

theorem colon_notMem_name {f : SortField} (h : f.IsValid) : ':' ∉ f.name.toList := fun hmem =>
  (SortField.spec_of_mem_name h hmem).2.1 rfl

/-- **Texts are read as the keys that they are directives for.** -/
theorem read_eq_ok : read text = .ok k ↔ Directive k text := by
  constructor
  · intro h
    rcases exists_colon text with hcolon | ⟨field, direction, hcolon, rfl⟩
    · rw [read_of_notMem hcolon] at h
      obtain ⟨f, hread, rfl⟩ := map_ok h
      obtain ⟨hfield, hname⟩ := SortField.read_eq_ok.mp hread
      obtain ⟨-, before, after, hbefore, hafter, htext⟩ := exists_trim text
      rw [htext, ← hname]
      exact .plain hfield hbefore hafter
    · rw [read_append hcolon] at h
      cases hdirection : Direction.read? direction with
      | none =>
        rw [hdirection] at h
        cases h
      | some d =>
        rw [hdirection] at h
        obtain ⟨f, hread, rfl⟩ := map_ok h
        obtain ⟨hfield, hname⟩ := SortField.read_eq_ok.mp hread
        obtain ⟨-, before, after, hbefore, hafter, htext⟩ := exists_trim field
        rw [htext, ← hname]
        exact .directed hfield hbefore hafter (Direction.read?_eq_some.mp hdirection)
  · intro h
    cases h with
    | plain hfield hbefore hafter =>
      rw [read_of_notMem (notMem_between (by decide) hbefore hafter (colon_notMem_name hfield)),
        trim_append hbefore (SortField.isTrimmed_name hfield) hafter, SortField.read_name hfield]
      rfl
    | directed hfield hbefore hafter hdirection =>
      rw [read_append (notMem_between (by decide) hbefore hafter (colon_notMem_name hfield)),
        Direction.read?_eq_some.mpr hdirection,
        trim_append hbefore (SortField.isTrimmed_name hfield) hafter, SortField.read_name hfield]
      rfl

/-- **Texts are refused for what is wrong with them**, a direction before a field. -/
theorem read_eq_error : read text = .error e ↔ Faulty e text := by
  constructor
  · intro h
    rcases exists_colon text with hcolon | ⟨field, direction, hcolon, rfl⟩
    · rw [read_of_notMem hcolon] at h
      obtain ⟨rfl, hname⟩ := SortField.read_eq_error.mp (map_error h)
      obtain ⟨htrimmed, before, after, hbefore, hafter, htext⟩ := exists_trim text
      generalize Text.trim text = name at *
      subst htext
      exact .plainField hbefore hafter htrimmed (fun hmem => hcolon (by simp [hmem])) hname
    · rw [read_append hcolon] at h
      cases hdirection : Direction.read? direction with
      | none =>
        rw [hdirection] at h
        obtain rfl := Except.error.inj h
        exact .direction hcolon (Direction.read?_eq_none.mp hdirection)
      | some d =>
        rw [hdirection] at h
        obtain ⟨rfl, hname⟩ := SortField.read_eq_error.mp (map_error h)
        obtain ⟨htrimmed, before, after, hbefore, hafter, htext⟩ := exists_trim field
        generalize Text.trim field = name at *
        subst htext
        exact .directedField hbefore hafter htrimmed (fun hmem => hcolon (by simp [hmem])) hname
          (Direction.read?_eq_some.mp hdirection)
  · intro h
    cases h with
    | direction hfirst hdirection =>
      rw [read_append hfirst, Direction.read?_eq_none.mpr hdirection]
    | plainField hbefore hafter htrimmed hcolon hname =>
      rw [read_of_notMem (notMem_between (by decide) hbefore hafter hcolon),
        trim_append hbefore htrimmed hafter, SortField.read_eq_error.mpr ⟨rfl, hname⟩]
      rfl
    | directedField hbefore hafter htrimmed hcolon hname hdirection =>
      rw [read_append (notMem_between (by decide) hbefore hafter hcolon),
        Direction.read?_eq_some.mpr hdirection, trim_append hbefore htrimmed hafter,
        SortField.read_eq_error.mpr ⟨rfl, hname⟩]
      rfl

/-- The full form of a key is a directive for it. -/
theorem directive_directive (h : k.field.IsValid) : Directive k k.directive := by
  have hblank : isBlank "" = true := rfl
  have hdirection : k.direction.Names k.direction.name := by
    rw [Direction.Names, List.forall₂_same]
    exact fun _ _ => .inl rfl
  have htext : k.directive = "" ++ k.field.name ++ "" ++ ":" ++ k.direction.name := by
    rw [String.empty_append, String.append_empty]
    rfl
  rw [htext]
  exact .directed h hblank hblank hdirection

/-- A directive is not blank. -/
theorem Directive.not_isBlank (h : Directive k text) : isBlank text = false := by
  obtain ⟨c, hc, hmem⟩ : ∃ c ∈ k.field.name.toList, c ∈ text.toList := by
    have hne := String.toList_eq_nil_iff.not.mpr k.field.name_ne_empty
    obtain ⟨c, hc⟩ := List.exists_mem_of_ne_nil _ hne
    cases h <;> exact ⟨c, hc, by simp [hc]⟩
  have hvalid : k.field.IsValid := by cases h <;> assumption
  rw [Bool.eq_false_iff]
  exact fun hblank => notMem_of_isBlank (SortField.spec_of_mem_name hvalid hc).1 hblank hmem

/-- There are no commas in a directive. -/
theorem Directive.comma_notMem (h : Directive k text) : ',' ∉ text.toList := by
  have hfield : ∀ {f : SortField} {before after : String}, f.IsValid → isBlank before = true →
      isBlank after = true → ',' ∉ (before ++ f.name ++ after).toList := by
    intro f before after hfield hbefore hafter
    exact notMem_between (by decide) hbefore hafter fun hmem =>
      (SortField.spec_of_mem_name hfield hmem).2.2 rfl
  cases h with
  | plain h hbefore hafter => exact hfield h hbefore hafter
  | @directed f d before after direction h hbefore hafter hdirection =>
    have hletters : ',' ∉ direction.toList := fun hmem => by
      have hlower := (Direction.map_toLower_eq_iff d.isLower_of_mem_name).mpr hdirection
      have hname : ','.toLower ∈ d.name.toList := hlower ▸ List.mem_map_of_mem hmem
      revert hname
      cases d <;> decide
    have hrest := hfield h hbefore hafter
    rw [String.toList_append, String.toList_append, List.mem_append, List.mem_append, not_or,
      not_or]
    exact ⟨⟨hrest, by decide⟩, hletters⟩

/-! ### Lists of directives -/

/-- The texts are directives for the keys, in the same order; blank texts may stand anywhere. -/
inductive Writes : List SortKey → List String → Prop where
  | nil : Writes [] []
  | blank {keys : List SortKey} {text : String} {texts : List String}
    (htext : isBlank text = true) (hrest : Writes keys texts) : Writes keys (text :: texts)
  | key {k : SortKey} {keys : List SortKey} {text : String} {texts : List String}
    (htext : Directive k text) (hrest : Writes keys texts) : Writes (k :: keys) (text :: texts)

theorem readAll_cons_of_blank (h : isBlank text = true) (texts : List String) :
    readAll (text :: texts) = readAll texts := by
  rw [readAll, List.filter_cons_of_neg (by simp [h])]
  rfl

theorem readAll_cons_of_not_blank (h : isBlank text = false) (texts : List String) :
    readAll (text :: texts) = read text >>= fun k => (readAll texts).map (k :: ·) := by
  rw [readAll, List.filter_cons_of_pos (by simp [h]), List.mapM_cons]
  rfl

variable {texts : List String}

/-- **Texts are read as the keys that they write.** -/
theorem readAll_eq_ok : readAll texts = .ok keys ↔ Writes keys texts := by
  constructor
  · intro h
    induction texts generalizing keys with
    | nil =>
      cases h
      exact .nil
    | cons text texts ih =>
      by_cases hblank : isBlank text = true
      · rw [readAll_cons_of_blank hblank] at h
        exact .blank hblank (ih h)
      · rw [readAll_cons_of_not_blank (by simpa using hblank)] at h
        obtain ⟨k, hk, h⟩ := bind_ok h
        obtain ⟨rest, hrest, rfl⟩ := map_ok h
        exact .key (read_eq_ok.mp hk) (ih hrest)
  · intro h
    induction h with
    | nil => rfl
    | blank htext _ ih => rw [readAll_cons_of_blank htext, ih]
    | key htext _ ih =>
      rw [readAll_cons_of_not_blank htext.not_isBlank, read_eq_ok.mpr htext, ih]
      rfl

/-- What is wrong with a list is what is wrong with the first of its texts that is at fault. -/
theorem exists_faulty (h : readAll texts = .error e) : ∃ earlier text later,
    texts = earlier ++ text :: later ∧ (∃ keys, Writes keys earlier) ∧ isBlank text = false ∧
      Faulty e text := by
  induction texts with
  | nil => cases h
  | cons text texts ih =>
    by_cases hblank : isBlank text = true
    · rw [readAll_cons_of_blank hblank] at h
      obtain ⟨earlier, bad, later, rfl, ⟨keys, hkeys⟩, hbad⟩ := ih h
      exact ⟨text :: earlier, bad, later, rfl, ⟨keys, .blank hblank hkeys⟩, hbad⟩
    · rw [Bool.not_eq_true] at hblank
      rw [readAll_cons_of_not_blank hblank] at h
      rcases bind_error h with h | ⟨k, hk, h⟩
      · exact ⟨[], text, texts, rfl, ⟨[], .nil⟩, hblank, read_eq_error.mp h⟩
      · obtain ⟨earlier, bad, later, rfl, ⟨keys, hkeys⟩, hbad⟩ := ih (map_error h)
        exact ⟨text :: earlier, bad, later, rfl, ⟨k :: keys, .key (read_eq_ok.mp hk) hkeys⟩, hbad⟩

/-- Texts without commas come back from between commas, but for empty ones. -/
theorem splitParameter_intercalate (h : ∀ text ∈ texts, ',' ∉ text.toList) :
    splitParameter (",".intercalate texts) = texts.filter fun text => !text.toList.isEmpty := by
  have hfilter : (texts.map String.toList).filter (fun p => !p.isEmpty) =
      (texts.filter fun text => !text.toList.isEmpty).map String.toList := by
    rw [List.filter_map]
    rfl
  have hpieces : (Text.pieces ',' (",".intercalate texts).toList).filter (fun p => !p.isEmpty) =
      (texts.map String.toList).filter fun p => !p.isEmpty := by
    rw [String.toList_intercalate]
    cases texts with
    | nil => rfl
    | cons text texts =>
      have hparts : ∀ part ∈ (text :: texts).map String.toList, ',' ∉ part :=
        List.forall_mem_map.mpr h
      exact congrArg _ (Text.pieces_intercalate hparts (List.cons_ne_nil _ _))
  rw [splitParameter, hpieces, hfilter, List.map_map]
  exact (List.map_congr_left fun text _ => String.ofList_toList).trans (List.map_id _)

namespace Writes

/-- Empty texts are blank. -/
theorem filter (h : Writes keys texts) :
    Writes keys (texts.filter fun text => !text.toList.isEmpty) := by
  induction h with
  | nil => exact .nil
  | @blank keys text texts htext _ ih =>
    rw [List.filter_cons]
    split
    · exact .blank htext ih
    · exact ih
  | @key k keys text texts htext _ ih =>
    have hne : (!text.toList.isEmpty) = true := by
      have hnonblank := htext.not_isBlank
      rw [isBlank] at hnonblank
      cases hlist : text.toList with
      | nil => rw [hlist] at hnonblank; cases hnonblank
      | cons c cs => rfl
    rw [List.filter_cons, if_pos hne]
    exact .key htext ih

/-- Every text is blank or a directive. -/
theorem isBlank_or_directive (h : Writes keys texts) :
    ∀ text ∈ texts, isBlank text = true ∨ ∃ k, Directive k text := by
  induction h with
  | nil => simp
  | blank htext _ ih => exact List.forall_mem_cons.mpr ⟨.inl htext, ih⟩
  | key htext _ ih => exact List.forall_mem_cons.mpr ⟨.inr ⟨_, htext⟩, ih⟩

theorem comma_notMem (h : Writes keys texts) : ∀ text ∈ texts, ',' ∉ text.toList :=
  fun text hmem => (h.isBlank_or_directive text hmem).elim (notMem_of_isBlank (by decide))
    fun ⟨_, hk⟩ => hk.comma_notMem

/-- Keys are written by their full forms. -/
theorem map_directive (h : ∀ k ∈ keys, k.field.IsValid) : Writes keys (keys.map directive) := by
  induction keys with
  | nil => exact .nil
  | cons k keys ih =>
    obtain ⟨hk, hkeys⟩ := List.forall_mem_cons.mp h
    exact .key (directive_directive hk) (ih hkeys)

end Writes

/-- **Directives parse back.** Sort keys are written by texts, each as its field among blanks with
its direction in any case, which may be left out if it is ascending, and with blank texts anywhere.
Exactly the texts that write keys are read as these keys, and they are if they come as one parameter
with commas between them. A list with a text that is neither blank nor a directive is refused for
the first such text, and for the one thing that is wrong with it, where a direction comes before a
field. -/
theorem directives_parse_back :
    (∀ keys : List SortKey, (∀ k ∈ keys, k.field.IsValid) → Writes keys (keys.map directive)) ∧
    ∀ texts : List String,
      (∀ keys, readAll texts = .ok keys ↔ Writes keys texts) ∧
      (∀ keys, Writes keys texts →
        readAll (splitParameter (",".intercalate texts)) = .ok keys) ∧
      ((∃ text ∈ texts, isBlank text = false ∧ ∀ k, ¬ Directive k text) →
        ∃ earlier text later e, texts = earlier ++ text :: later ∧
          (∃ keys, Writes keys earlier) ∧ isBlank text = false ∧ (∀ k, ¬ Directive k text) ∧
          (∀ e', Faulty e' text ↔ e' = e) ∧ readAll texts = .error e) := by
  refine ⟨fun keys => .map_directive,
    fun texts => ⟨fun keys => readAll_eq_ok, fun keys h => ?_, ?_⟩⟩
  · rw [splitParameter_intercalate h.comma_notMem]
    exact readAll_eq_ok.mpr h.filter
  · rintro ⟨text, hmem, hblank, hnone⟩
    cases hread : readAll texts with
    | ok keys =>
      rcases (readAll_eq_ok.mp hread).isBlank_or_directive text hmem with h | ⟨k, hk⟩
      · rw [h] at hblank
        cases hblank
      · exact absurd hk (hnone k)
    | error e =>
      obtain ⟨earlier, bad, later, htexts, hearlier, hbad, hfaulty⟩ := exists_faulty hread
      have herror : read bad = .error e := read_eq_error.mpr hfaulty
      refine ⟨earlier, bad, later, e, htexts, hearlier, hbad, fun k hk => ?_, fun e' => ?_, rfl⟩
      · rw [read_eq_ok.mpr hk] at herror
        cases herror
      · rw [← read_eq_error, herror]
        exact ⟨fun h => (Except.error.inj h).symm, fun h => h ▸ rfl⟩

/-- Three keys with blank texts between them and blanks around a field, and a list whose second text
has neither a direction nor a field. -/
theorem directives_among_blanks :
    let texts := ["", "\u00a0 properties.json_key :DeSC", "\t", "type", "id:ASC"]
    let keys : List SortKey := [⟨.property "json_key", .desc⟩, ⟨.type, .asc⟩, ⟨.id, .asc⟩]
    let bad := ["id", "name:up", "name"]
    Writes keys texts ∧ readAll (splitParameter (",".intercalate texts)) = .ok keys ∧
      readAll bad = .error (.invalidDirection "up") ∧
      ∃ earlier text later, bad = earlier ++ text :: later ∧ (∀ k, ¬ Directive k text) ∧
        ∀ e', Faulty e' text ↔ e' = .invalidDirection "up" := by
  intro texts keys bad
  obtain ⟨hwrites, hparameter, -⟩ := directives_parse_back.2 texts
  obtain ⟨-, -, hrefused⟩ := directives_parse_back.2 bad
  have hread : Writes keys texts := (hwrites keys).mp (by decide +kernel)
  have hname : ∀ k, ¬ Directive k "name" := fun k hk => by
    have hk := read_eq_ok.mpr hk
    cases hk
  have hup : readAll bad = .error (.invalidDirection "up") := by decide +kernel
  obtain ⟨earlier, text, later, e, hbad, -, -, hnone, hfault, herror⟩ :=
    hrefused ⟨"name", by decide, by decide, hname⟩
  obtain rfl := Except.error.inj (hup.symm.trans herror)
  exact ⟨hread, hparameter keys hread, hup, earlier, text, later, hbad, hnone, hfault⟩

end SortKey
end TableStore
