/-!
# Cutting and searching text

Texts are scanned as lists of characters: cutting at a separator (`cutAt`, `pieces`), searching
(`occursIn`) and plain substitution (`substitute`). What is put in by a substitution is never
scanned again, so a substitution puts the replacement between the parts that the pattern cuts the
text into (`substituteFrom_eq`).
-/

namespace TableStore.Text

/-- The parts before and after the first `sep`, if it occurs. -/
def cutAt (sep : Char) : List Char → Option (List Char × List Char)
  | [] => none
  | c :: rest =>
    if c = sep then some ([], rest) else (cutAt sep rest).map fun (a, b) => (c :: a, b)

/-- All parts between the separators; a text without any is its own only part. -/
def pieces (sep : Char) : List Char → List (List Char)
  | [] => [[]]
  | c :: rest =>
    if c = sep then [] :: pieces sep rest
    else
      match pieces sep rest with
      | [] => [[c]]
      | piece :: more => (c :: piece) :: more

/-- Whether `pattern` stands somewhere in the text. -/
def occursIn (pattern : List Char) : List Char → Bool
  | [] => pattern.isEmpty
  | c :: rest => pattern.isPrefixOf (c :: rest) || occursIn pattern rest

/-- Replaces every occurrence of `pattern`, scanning from the left. `skip` characters still belong
to the occurrence just replaced. -/
def substituteFrom (pattern replacement : List Char) : Nat → List Char → List Char
  | _, [] => []
  | skip + 1, _ :: rest => substituteFrom pattern replacement skip rest
  | 0, c :: rest =>
    if pattern.isPrefixOf (c :: rest) then
      replacement ++ substituteFrom pattern replacement (pattern.length - 1) rest
    else
      c :: substituteFrom pattern replacement 0 rest

/-- Replaces every occurrence of a nonempty `pattern`. -/
def substitute (pattern replacement : List Char) (text : List Char) : List Char :=
  substituteFrom pattern replacement 0 text

/-- Whether `pattern` stands somewhere in `text`. -/
def contains (text pattern : String) : Bool :=
  occursIn pattern.toList text.toList

/-- `text` with every `pattern` replaced. -/
def replaceAll (text pattern replacement : String) : String :=
  String.ofList (substitute pattern.toList replacement.toList text.toList)

/-- What follows `head` in `text`, if `text` begins with it. -/
def stripHead? (text head : String) : Option String :=
  if head.toList.isPrefixOf text.toList then
    some (String.ofList (text.toList.drop head.toList.length))
  else none

/-! ### What the cuts keep -/

theorem cutAt_eq_some {sep : Char} {text a b : List Char} (h : cutAt sep text = some (a, b)) :
    text = a ++ sep :: b ∧ sep ∉ a := by
  induction text generalizing a b with
  | nil => simp [cutAt] at h
  | cons c rest ih =>
    by_cases hc : c = sep
    · subst hc
      simp only [cutAt, if_true, Option.some.injEq, Prod.mk.injEq] at h
      obtain ⟨rfl, rfl⟩ := h
      simp
    · simp only [cutAt, hc, if_false, Option.map_eq_some_iff, Prod.exists, Prod.mk.injEq] at h
      obtain ⟨a', b', h', rfl, rfl⟩ := h
      obtain ⟨rfl, hn⟩ := ih h'
      simp [hn, Ne.symm hc]

/-- A text without the separator is its own only part. -/
theorem pieces_of_notMem {sep : Char} {text : List Char} (h : sep ∉ text) :
    pieces sep text = [text] := by
  induction text with
  | nil => rfl
  | cons c rest ih =>
    have hc : c ≠ sep := fun heq => h (heq ▸ List.mem_cons_self)
    simp [pieces, hc, ih fun hmem => h (List.mem_cons_of_mem c hmem)]

/-- What stands before the first separator is the first part. -/
theorem pieces_append {sep : Char} {piece rest : List Char} (h : sep ∉ piece) :
    pieces sep (piece ++ sep :: rest) = piece :: pieces sep rest := by
  induction piece with
  | nil => simp [pieces]
  | cons c piece ih =>
    have hc : c ≠ sep := fun heq => h (heq ▸ List.mem_cons_self)
    simp [pieces, hc, ih fun hmem => h (List.mem_cons_of_mem c hmem)]

/-! ### What substitution puts together -/

/-- The parts of a text between the occurrences of `pattern`, as substitution meets them. -/
def cuts (pattern : List Char) : Nat → List Char → List (List Char)
  | _, [] => [[]]
  | skip + 1, _ :: rest => cuts pattern skip rest
  | 0, c :: rest =>
    if pattern.isPrefixOf (c :: rest) then [] :: cuts pattern (pattern.length - 1) rest
    else
      match cuts pattern 0 rest with
      | [] => [[c]]
      | piece :: more => (c :: piece) :: more

theorem cuts_ne_nil (pattern : List Char) (skip : Nat) (text : List Char) :
    cuts pattern skip text ≠ [] := by
  induction text generalizing skip with
  | nil => cases skip <;> simp [cuts]
  | cons c rest ih =>
    cases skip with
    | succ skip => exact ih skip
    | zero =>
      rw [cuts]
      split
      · simp
      · split <;> simp

/-- What is put in stands between the parts. -/
theorem substituteFrom_eq (pattern replacement : List Char) (skip : Nat) (text : List Char) :
    substituteFrom pattern replacement skip text =
      replacement.intercalate (cuts pattern skip text) := by
  induction text generalizing skip with
  | nil => cases skip <;> simp [cuts, substituteFrom]
  | cons c rest ih =>
    cases skip with
    | succ skip => exact ih skip
    | zero =>
      rw [cuts, substituteFrom]
      split
      · obtain ⟨piece, more, h⟩ :=
          List.exists_cons_of_ne_nil (cuts_ne_nil pattern (pattern.length - 1) rest)
        rw [ih, h]
        simp [List.intercalate]
      · obtain ⟨piece, more, h⟩ := List.exists_cons_of_ne_nil (cuts_ne_nil pattern 0 rest)
        rw [ih, h]
        cases more <;> simp [List.intercalate]

theorem toList_replaceAll (text pattern replacement : String) :
    (replaceAll text pattern replacement).toList =
      replacement.toList.intercalate (cuts pattern.toList 0 text.toList) := by
  rw [replaceAll, String.toList_ofList, substitute, substituteFrom_eq]

end TableStore.Text
