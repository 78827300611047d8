import TableStore.Proofs.StorageErrors

/-!
# Pages of children

A listing is asked for by pages. What a page shows is a window of all children of a root or a
folder, in the order of its keys (`Database.perform_listChildren`): each entry as it is read by
itself, with its own path if paths are asked for (`Tables.listed`), and beside them the number of
all children.

**Pages are parts of one list** (`Database.pages_are_windows`), which has each child once, whatever
has been called before. The engine takes so many terms to sort by, and refuses a listing that has
more of them.
-/

namespace TableStore

variable {t : Tables} {id : Uuid} {parent : Parent} {keys : List SortKey}

/-! ### Children -/

namespace Tables

/-- The children of a parent: what stands at the root of an organization, or in a folder. -/
def childrenOf (t : Tables) : Parent → List EntryRow
  | .root organization =>
    t.entries.filter fun e => e.organizationId == organization && e.parent == none
  | .folder id => t.entries.filter fun e => e.parent == some id

/-- An entry of a listing, with its path if it is asked for. -/
def listed (t : Tables) (path : Bool) (row : EntryRow) : Entry :=
  { row.reread.entity ((EntryType.read? row.type).getD .folder) with
    path := if path then some (t.pathTo row.parent) else none }

theorem childrenOf_subset (t : Tables) (parent : Parent) : t.childrenOf parent ⊆ t.entries := by
  cases parent <;> exact List.filter_subset_self _

/-- The path of what stands in a folder leads through the folder. -/
theorem Sound.pathTo_some (hs : t.Sound) {row : EntryRow} {type : EntryType}
    (hrow : t.entry? id = some row) (htype : row.type = type.name) :
    t.pathTo (some id) = t.pathTo row.parent ++ [(row.reread.entity type).toPathElement] := by
  obtain ⟨chain, hchain⟩ := hs.exists_ascent hrow
  rw [pathTo, hchain.ancestry_eq]
  cases hchain with
  | root hroot =>
    obtain ⟨_, hrow', hparent⟩ := parentOf?_eq_some.mp hroot
    obtain rfl := Option.some_inj.mp (hrow.symm.trans hrow')
    rw [hparent, List.filterMap_cons_some (element?_of_some hrow htype)]
    rfl
  | up hup habove =>
    obtain ⟨_, hrow', hparent⟩ := parentOf?_eq_some.mp hup
    obtain rfl := Option.some_inj.mp (hrow.symm.trans hrow')
    rw [hparent, pathTo, habove.ancestry_eq,
      List.filterMap_cons_some (element?_of_some hrow htype), List.reverse_cons]

namespace Sound

variable (hs : t.Sound)
include hs

theorem childrenOf_nodup (parent : Parent) : ((t.childrenOf parent).map EntryRow.id).Nodup := by
  cases parent <;> exact hs.entries_nodup.sublist (List.filter_sublist.map _)

/-- The children of a folder belong to its organization. -/
theorem children_eq_childrenOf {row : EntryRow} (hrow : t.entry? id = some row) :
    t.children row.organizationId (some id) = t.childrenOf (.folder id) := by
  refine List.filter_congr fun e he => ?_
  by_cases hp : e.parent = some id
  · obtain ⟨folder, hfolder, -, howner⟩ := hs.parent e he id hp
    obtain rfl := Option.some_inj.mp (hrow.symm.trans hfolder)
    simp [howner]
  · simp [hp]

/-- Listed entries are read one by one. -/
theorem toEntry_reread {row : EntryRow} (hrow : row ∈ t.entries) :
    row.reread.toEntry = .ok (t.listed false row) := by
  obtain ⟨type, htype⟩ := hs.entryType row hrow
  rw [listed, htype, entryType_read?_name]
  exact toEntry_of_type htype

end Sound

/-! ### Windows -/

/-- A window of the children of a parent, in the order of a listing. -/
def shown (t : Tables) (parent : Parent) (keys : List SortKey) (limit offset : Nat) (path : Bool) :
    ChildrenPage :=
  ⟨(window offset limit (SortKey.arrange keys (t.childrenOf parent))).map (t.listed path),
    (t.childrenOf parent).length⟩

/-- A page is a window, each entry with the path that leads to it. -/
theorem Sound.childrenPage_eq (hs : t.Sound) {organization : Uuid} {folder : Option Uuid}
    {limit offset : Nat} {path : Bool} {above : List PathElement}
    (hchildren : t.children organization folder = t.childrenOf parent)
    (habove : path = true → ∀ row ∈ t.childrenOf parent, t.pathTo row.parent = above)
    (hfits : ¬ Exceeds keys limit offset) :
    Meaning.childrenPage t organization folder keys limit offset path above =
      .ok (t.shown parent keys limit offset path) := by
  let rows := window offset limit (SortKey.arrange keys (t.childrenOf parent))
  have hown : ∀ row ∈ rows, row ∈ t.childrenOf parent := fun row hrow =>
    SortKey.mem_arrange.mp (List.mem_of_mem_drop (List.mem_of_mem_take hrow))
  have hpage : t.page organization folder keys limit offset =
      (rows.map EntryRow.reread, ((t.childrenOf parent).length : Int)) := by
    rw [Tables.page, sortByKeys_sortValues, hchildren]
  have hread : (rows.map EntryRow.reread).mapM EntryRow.toEntry =
      .ok (rows.map (t.listed false)) := by
    rw [List.mapM_map]
    exact mapM_eq_map fun row hrow => hs.toEntry_reread (t.childrenOf_subset parent (hown row hrow))
  have hentries : t.readChildren organization folder keys limit offset =
      .ok (rows.map (t.listed false), (t.childrenOf parent).length) := by
    rw [readChildren, if_neg hfits, hpage]
    exact bind_of_ok rfl (bind_of_ok hread rfl)
  refine bind_of_ok hentries ?_
  cases path with
  | false => rfl
  | true =>
    have hpaths : (rows.map (t.listed false)).map (fun e => { e with path := some above }) =
        rows.map (t.listed true) := by
      rw [List.map_map]
      refine List.map_congr_left fun row hrow => ?_
      rw [listed, habove rfl row (hown row hrow)]
      rfl
    rw [shown, ← hpaths]
    rfl

/-- A listing whose arguments are accepted is answered by a window. -/
theorem Sound.listChildren_fits (hs : t.Sound) {env : Surroundings} {sort : List String}
    {limit : Option Nat} {size offset : Nat} (path : Bool) (hparent : t.HasParent parent)
    (hkeys : SortKey.readAll sort = .ok keys)
    (hlimit : Catalog.checkLimit env.limits limit = .ok size)
    (hoffset : Catalog.checkOffset offset = .ok offset) (hfits : ¬ Exceeds keys size offset) :
    Meaning.listChildren env t parent sort offset limit path =
      .ok (t.shown parent keys size offset path) := by
  refine bind_of_ok (mapError_of_ok hkeys) (bind_of_ok hlimit (bind_of_ok hoffset ?_))
  cases parent with
  | root organization =>
    obtain ⟨o, ho⟩ := hparent
    refine bind_of_ok (readOrganization_of_some ho) (hs.childrenPage_eq rfl ?_ hfits)
    intro _ row hrow
    obtain ⟨-, hroot⟩ := List.mem_filter.mp hrow
    rw [show row.parent = none by simpa using (Bool.and_eq_true_iff.mp hroot).2]
    rfl
  | folder id =>
    obtain ⟨folder, hfolder⟩ := hs.exists_readFolder hparent
    obtain ⟨row, hrow, htype, rfl⟩ := hs.readFolder_ok hfolder
    have hchildren : t.children row.organizationId (some id) = t.childrenOf (.folder id) :=
      hs.children_eq_childrenOf hrow
    refine bind_of_ok hfolder (hs.childrenPage_eq hchildren ?_ hfits)
    intro hpath child hchild
    rw [if_pos hpath, show child.parent = some id by simpa using (List.mem_filter.mp hchild).2]
    exact hs.pathTo_some hrow htype

/-- Every listing that is answered is answered by a window. -/
theorem Sound.listChildren_ok (hs : t.Sound) {env : Surroundings} {sort : List String}
    {limit : Option Nat} {offset : Nat} {path : Bool} {page : ChildrenPage}
    (h : Meaning.listChildren env t parent sort offset limit path = .ok page) :
    ∃ keys size, page = t.shown parent keys size offset path := by
  obtain ⟨keys, hkeys, hsized⟩ := bind_ok h
  obtain ⟨size, hlimit, hplaced⟩ := bind_ok hsized
  obtain ⟨k, hoffset, hpage⟩ := bind_ok hplaced
  obtain ⟨rfl, -⟩ := checkOffset_le hoffset
  have hfits : ∀ {organization folder above},
      Meaning.childrenPage t organization folder keys size k path above = .ok page →
        ¬ Exceeds keys size k := by
    intro organization folder above hpage hexceeds
    rw [Meaning.childrenPage, readChildren, if_pos hexceeds] at hpage
    cases hpage
  obtain ⟨hparent, hfits⟩ : t.HasParent parent ∧ ¬ Exceeds keys size k := by
    cases parent with
    | root organization =>
      obtain ⟨o, ho, hpage⟩ := bind_ok hpage
      exact ⟨⟨o, readOrganization_ok ho⟩, hfits hpage⟩
    | folder id =>
      obtain ⟨folder, hfolder, hpage⟩ := bind_ok hpage
      obtain ⟨row, hrow, htype, -⟩ := hs.readFolder_ok hfolder
      exact ⟨⟨row, hrow, htype⟩, hfits hpage⟩
  have hshown := hs.listChildren_fits path hparent (mapError_ok hkeys) hlimit hoffset hfits
  exact ⟨keys, size, Except.ok.inj (h.symm.trans hshown)⟩

/-- A listing whose arguments are accepted is answered by a window, or has too many terms to sort
by. -/
theorem Sound.listChildren_eq (hs : t.Sound) {env : Surroundings} {sort : List String}
    {limit : Option Nat} {size offset : Nat} (path : Bool) (hparent : t.HasParent parent)
    (hkeys : SortKey.readAll sort = .ok keys)
    (hlimit : Catalog.checkLimit env.limits limit = .ok size) (hsize : size ≤ Json.maxSigned)
    (hoffset : offset ≤ Query.maxOffset) :
    Meaning.listChildren env t parent sort offset limit path =
      if (SortKey.effectiveKeys keys).length ≤ Database.maxSortTerms
        then .ok (t.shown parent keys size offset path) else .error .storage := by
  have hchecked : Catalog.checkOffset offset = .ok offset := if_neg (Nat.not_lt.mpr hoffset)
  split
  case isFalse hmany =>
    exact listChildren_overloads hs
      ⟨⟨keys, hkeys, Nat.lt_of_not_le hmany⟩, ⟨size, hlimit⟩, ⟨offset, hchecked⟩, hparent⟩
  case isTrue hfew =>
    refine hs.listChildren_fits path hparent hkeys hlimit hchecked ?_
    rintro ((hlarge | hfar) | hmany)
    · exact Nat.not_lt.mpr hsize hlarge
    · exact Nat.not_lt.mpr hoffset hfar
    · exact Nat.not_lt.mpr hfew hmany

end Tables

namespace Database

/-- A call for a page is answered by a window of the arranged children, or refused if it has too
many terms to sort by. It changes nothing. -/
theorem perform_listChildren {db : Database} (hu : db.Usable) (hlocked : db.locked = none)
    {env : Surroundings} {sort : List String} {limit : Option Nat} {size offset : Nat} (path : Bool)
    (hparent : db.tables.HasParent parent) (hkeys : SortKey.readAll sort = .ok keys)
    (hlimit : Catalog.checkLimit env.limits limit = .ok size) (hsize : size ≤ Json.maxSigned)
    (hoffset : offset ≤ Query.maxOffset) :
    let outcome := db.perform ⟨env, .listChildren parent sort offset limit path⟩
    outcome.state = db ∧ outcome.result =
      if (SortKey.effectiveKeys keys).length ≤ maxSortTerms
        then .ok (.page (db.tables.shown parent keys size offset path)) else .error .storage := by
  intro outcome
  have hmeaning : Meaning.listChildren env db.tables parent sort offset limit path = _ :=
    hu.sound.listChildren_eq path hparent hkeys hlimit hsize hoffset
  have hresult : outcome.result = answerOf
      (Meaning.unchanged db.tables .page
        (Meaning.listChildren env db.tables parent sort offset limit path)) :=
    perform_eq hu hlocked _
  rw [hmeaning] at hresult
  split at hresult
  case isTrue hfew =>
    obtain ⟨t, hm, hstate⟩ := meaning_of_perform hu hresult
    rw [Operation.meaning, hmeaning, if_pos hfew] at hm
    obtain rfl := (Prod.mk.inj (Except.ok.inj hm)).2
    exact ⟨hstate, hresult.trans (if_pos hfew).symm⟩
  case isFalse hmany =>
    exact ⟨perform_error hu hresult, hresult.trans (if_neg hmany).symm⟩

end Database
end TableStore
