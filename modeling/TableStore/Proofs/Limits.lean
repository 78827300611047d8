import TableStore.CommandLine
import TableStore.Proofs.Asking
import TableStore.Proofs.Compilation
import TableStore.Proofs.Decoding

/-!
# Limits

A configuration that is accepted bounds every answer. Whether a listing or a select is refused for
its limit is read off its program, and no state of a store matters to it: a listing makes its checks
before it asks anything of the store (`listingChecks`), and a select is read as a whole
(`Query.decode_limitTooLarge`). Only the length of an answer depends on the store, and the embedded
database keeps to what it is asked for (`Database.keepsLimits_serve`).
-/

namespace TableStore

/-! ### Stores that keep to limits -/

/-- A store that answers with no more children and no more records than it is asked for. -/
structure KeepsLimits {σ : Type}
    (exec : {β : Type} → Request β → σ → Except StoreError β × σ) : Prop where
  children : ∀ {organization : Uuid} {parent : Option Uuid} {keys : List SortKey}
    {limit offset : Nat} {st st' : σ} {page : List EntryRow × Int},
    exec (Request.listChildren organization parent keys limit offset) st = (.ok page, st') →
      page.1.length ≤ limit
  records : ∀ {plan : Query.SelectPlan} {st st' : σ} {rows : List (List Json)},
    exec (Request.selectRecords plan) st = (.ok rows, st') → rows.length ≤ plan.limit

/-- The embedded database keeps to limits, whatever it holds. -/
theorem Database.keepsLimits_serve : KeepsLimits Database.serve where
  children := by
    intro organization parent keys limit offset db db' page h
    rw [serve_listChildren] at h
    obtain ⟨hpage, -⟩ := Prod.mk.inj h
    split at hpage
    · cases hpage
    · obtain rfl := Except.ok.inj hpage
      rw [Tables.page, List.length_map]
      exact List.length_take_le _ _
  records := by
    intro plan db db' rows h
    obtain rfl := serve_selectRecords_ok h
    rw [List.length_map, Tables.selectRecords_eq, List.length_map]
    exact List.length_take_le _ _

/-! ### Listings -/

section Listings

variable {env : Surroundings} {parent : Parent} {sort : List String} {offset : Nat}
  {limit : Option Nat} {path : Bool}

/-- What limits are to a listing. -/
structure ListingBounded (env : Surroundings) (parent : Parent) (sort : List String) (offset : Nat)
    (limit : Option Nat) (path : Bool) : Prop where
  /-- It fails for its limit exactly if one is given that is too large, and the directives to sort
  by, which are read before, are in order. -/
  refused_iff : ∀ {σ : Type} (exec : {β : Type} → Request β → σ → Except StoreError β × σ) (st : σ)
    (n max : Nat),
    (((Operation.listChildren parent sort offset limit path).program env).run exec st).result =
        .error (.invalidLimit n max) ↔
      max = env.limits.max ∧ limit = some n ∧ max < n ∧ ∃ keys, SortKey.readAll sort = .ok keys
  /-- With a window that is too large it fails before anything is asked of the store. -/
  unread : env.limits.max < limit.getD env.limits.default ∨ Query.maxOffset < offset →
    ∃ e, (Operation.listChildren parent sort offset limit path).program env = .fail e
  /-- No window that is asked of the store is beyond 64 bits. -/
  put : ((Operation.listChildren parent sort offset limit path).program env).Within Request.IsPut
    fun _ => True
  /-- What is shown keeps to the limit. -/
  bounded : ∀ {σ : Type} {exec : {β : Type} → Request β → σ → Except StoreError β × σ},
    KeepsLimits exec → ∀ (st : σ) (page : ChildrenPage),
    (((Operation.listChildren parent sort offset limit path).program env).run exec st).result =
        .ok (.page page) →
      page.entries.length ≤ limit.getD env.limits.default

theorem checkLimit_eq (limits : Query.Limits) (hdefault : limits.default ≤ limits.max)
    (limit : Option Nat) : Catalog.checkLimit limits limit =
      if limits.max < limit.getD limits.default
        then .error (.invalidLimit (limit.getD limits.default) limits.max)
        else .ok (limit.getD limits.default) := by
  cases limit with
  | none => exact (if_neg (Nat.not_lt.mpr hdefault)).symm
  | some n => rfl

/-- Entries as a listing shows them, perhaps with their common path. -/
def shownWith (path : Bool) (above : List PathElement) (entries : List Entry) : List Entry :=
  if path then entries.map fun e => { e with path := some above } else entries

/-- The checks that come before anything is asked of the store. -/
def listingChecks (limits : Query.Limits) (sort : List String) (offset : Nat)
    (limit : Option Nat) : Except CatalogError (List SortKey × Nat × Nat) := do
  let keys ← (SortKey.readAll sort).mapError .invalidSort
  return (keys, ← Catalog.checkLimit limits limit, ← Catalog.checkOffset offset)

theorem program_listChildren_of_error {e : CatalogError}
    (h : listingChecks env.limits sort offset limit = .error e) :
    (Operation.listChildren parent sort offset limit path).program env = .fail e := by
  rw [Operation.program, Catalog.listChildren]
  rcases bind_error h with hkeys | ⟨keys, hkeys, h⟩
  · obtain ⟨e', hread, rfl⟩ := mapError_error hkeys
    rw [hread]
    rfl
  · rw [mapError_ok hkeys]
    rcases bind_error h with hlimit | ⟨size, hlimit, h⟩
    · rw [hlimit]
      rfl
    · rw [hlimit]
      rcases bind_error h with hoffset | ⟨k, hoffset, h⟩
      · rw [hoffset]
        rfl
      · cases h

theorem listingChecks_ok {keys : List SortKey} {size k : Nat}
    (h : listingChecks env.limits sort offset limit = .ok (keys, size, k)) :
    SortKey.readAll sort = .ok keys ∧ Catalog.checkLimit env.limits limit = .ok size ∧
      Catalog.checkOffset offset = .ok k := by
  obtain ⟨keys, hkeys, h⟩ := bind_ok h
  obtain ⟨size, hlimit, h⟩ := bind_ok h
  obtain ⟨k, hoffset, h⟩ := bind_ok h
  cases h
  exact ⟨mapError_ok hkeys, hlimit, hoffset⟩

/-- A listing whose window is in order is modest. -/
theorem isModest_listChildren {keys : List SortKey} {size k : Nat}
    (h : listingChecks env.limits sort offset limit = .ok (keys, size, k))
    (hsize : size ≤ Json.maxSigned) :
    ((Operation.listChildren parent sort offset limit path).program env).IsModest := by
  obtain ⟨hkeys, hlimit, hoffset⟩ := listingChecks_ok h
  obtain ⟨rfl, hk⟩ := checkOffset_le hoffset
  refine Program.Within.bind ?_ fun _ => trivial
  rw [Catalog.listChildren, hkeys, hlimit, hoffset]
  refine Program.within_ofExcept_bind nofun fun keys hkeys =>
    Program.within_ofExcept_bind nofun fun size hsize' =>
    Program.within_ofExcept_bind nofun fun k hk' => ?_
  cases hsize'
  cases hk'
  have hpage : ∀ organization folder (above : List PathElement),
      (Stored.listChildren organization folder keys k size >>= fun page =>
        pure (ChildrenPage.mk (shownWith path above page.1) page.2)).IsModest := fun _ _ _ =>
    Program.Within.bind (Stored.isModest_listChildren hsize hk) fun _ => trivial
  cases parent with
  | root organization =>
    refine Program.Within.bind (Stored.isModest_getOrganization organization) fun _ => ?_
    exact hpage organization none []
  | folder id =>
    refine Program.Within.bind (Catalog.isModest_getFolder id) fun folder => ?_
    cases path with
    | false => exact hpage folder.organizationId (some id) []
    | true =>
      refine Program.Within.bind (Catalog.isModest_climb _ _ _ _ _) fun above => ?_
      exact hpage folder.organizationId (some id) _

section Bounds

variable {σ : Type} {exec : {β : Type} → Request β → σ → Except StoreError β × σ} {st : σ}

theorem Stored.length_listChildren_le (hexec : KeepsLimits exec) {organization : Uuid}
    {folder : Option Uuid} {keys : List SortKey} {k size : Nat} {entries : List Entry} {total : Int}
    (h : ((Stored.listChildren organization folder keys k size).run exec st).result =
      .ok (entries, total)) : entries.length ≤ size := by
  rw [Stored.listChildren] at h
  obtain ⟨⟨rows, count⟩, st', hrows, h⟩ := Program.run_bind_ok h
  obtain ⟨entries', st'', hread, h⟩ := Program.run_bind_ok h
  obtain ⟨rfl, -⟩ := Prod.mk.inj (Except.ok.inj h)
  obtain ⟨st', hserved⟩ := Program.run_request_ok hrows
  have hlength : rows.length = entries'.length :=
    (mapM_eq_ok.mp (Program.run_ofExcept_ok hread)).length_eq
  exact hlength ▸ hexec.children hserved

/-- What a listing shows keeps to the limit. -/
theorem length_entries_le (hexec : KeepsLimits exec) {page : ChildrenPage}
    (h : (((Operation.listChildren parent sort offset limit path).program env).run exec st).result =
      .ok (.page page)) :
    ∃ size, Catalog.checkLimit env.limits limit = .ok size ∧ page.entries.length ≤ size := by
  have hrun : ((Catalog.listChildren env parent sort offset limit path >>= fun page =>
      pure (Reply.page page)).run exec st).result = .ok (.page page) := h
  obtain ⟨page', st', hlisting, hreply⟩ := Program.run_bind_ok hrun
  obtain rfl := Reply.page.inj (Except.ok.inj hreply)
  rw [Catalog.listChildren] at hlisting
  obtain ⟨keys, st, -, h⟩ := Program.run_bind_ok hlisting
  obtain ⟨size, st, hlimit, h⟩ := Program.run_bind_ok h
  obtain ⟨k, st, -, h⟩ := Program.run_bind_ok h
  refine ⟨size, Program.run_ofExcept_ok hlimit, ?_⟩
  have hpage : ∀ organization folder (above : List PathElement) (st : σ),
      ((Stored.listChildren organization folder keys k size >>= fun page =>
        pure (ChildrenPage.mk (shownWith path above page.1) page.2)).run exec st).result =
          .ok page' → page'.entries.length ≤ size := by
    intro organization folder above st h
    obtain ⟨page, st', hlisted, h⟩ := Program.run_bind_ok h
    obtain rfl := Except.ok.inj h
    have hlength := Stored.length_listChildren_le hexec hlisted
    cases path with
    | false => exact hlength
    | true => exact (List.length_map _).trans_le hlength
  cases parent with
  | root organization =>
    obtain ⟨_, st, -, h⟩ := Program.run_bind_ok h
    exact hpage organization none [] st h
  | folder id =>
    obtain ⟨folder, st, -, h⟩ := Program.run_bind_ok h
    cases path with
    | false => exact hpage folder.organizationId (some id) [] st h
    | true =>
      have hpath : ((Catalog.pathOf folder >>= _).run exec st).result = .ok page' := h
      obtain ⟨above, st, -, h⟩ := Program.run_bind_ok hpath
      exact hpage folder.organizationId (some id) _ st h

end Bounds

/-- Directives to sort by are refused first, then limits, then offsets. -/
theorem listingChecks_eq (hdefault : env.limits.default ≤ env.limits.max) :
    listingChecks env.limits sort offset limit =
      ((SortKey.readAll sort).mapError CatalogError.invalidSort >>= fun keys =>
        if env.limits.max < limit.getD env.limits.default then
          .error (.invalidLimit (limit.getD env.limits.default) env.limits.max)
        else if Query.maxOffset < offset then .error (.invalidOffset offset Query.maxOffset)
        else .ok (keys, limit.getD env.limits.default, offset)) := by
  rw [listingChecks, checkLimit_eq _ hdefault, Catalog.checkOffset]
  refine bind_congr fun keys => ?_
  by_cases hlimit : env.limits.max < limit.getD env.limits.default
  · rw [if_pos hlimit, if_pos hlimit]
    rfl
  · rw [if_neg hlimit, if_neg hlimit]
    by_cases hoffset : Query.maxOffset < offset
    · rw [if_pos hoffset, if_pos hoffset]
      rfl
    · rw [if_neg hoffset, if_neg hoffset]
      rfl

/-- Only a limit that is given can be too large. -/
theorem listingChecks_invalidLimit (hdefault : env.limits.default ≤ env.limits.max) {n max : Nat}
    (h : listingChecks env.limits sort offset limit = .error (.invalidLimit n max)) :
    max = env.limits.max ∧ limit = some n ∧ max < n ∧ ∃ keys, SortKey.readAll sort = .ok keys := by
  rw [listingChecks_eq hdefault] at h
  rcases bind_error h with hkeys | ⟨keys, hkeys, h⟩
  · obtain ⟨e, -, he⟩ := mapError_error hkeys
    cases he
  · split at h
    case isTrue hlt =>
      cases h
      cases limit with
      | none => exact absurd hdefault (Nat.not_le_of_lt hlt)
      | some n => exact ⟨rfl, rfl, hlt, keys, mapError_ok hkeys⟩
    case isFalse =>
      split at h <;> cases h

/-- A window that is too large is refused, if the directives to sort by are not refused before. -/
theorem exists_listingChecks_error (hdefault : env.limits.default ≤ env.limits.max)
    (h : env.limits.max < limit.getD env.limits.default ∨ Query.maxOffset < offset) :
    ∃ e, listingChecks env.limits sort offset limit = .error e := by
  rw [listingChecks_eq hdefault]
  cases SortKey.readAll sort with
  | error e => exact ⟨_, rfl⟩
  | ok keys =>
    by_cases hlimit : env.limits.max < limit.getD env.limits.default
    · exact ⟨_, if_pos hlimit⟩
    · exact ⟨_, (if_neg hlimit).trans (if_pos (h.resolve_left hlimit))⟩

theorem listingBounded (hdefault : env.limits.default ≤ env.limits.max)
    (hmax : env.limits.max ≤ Json.maxSigned) :
    ListingBounded env parent sort offset limit path := by
  have hmodest : ∀ checked, listingChecks env.limits sort offset limit = .ok checked →
      ((Operation.listChildren parent sort offset limit path).program env).IsModest := by
    rintro ⟨keys, size, k⟩ h
    have hsize : size ≤ Json.maxSigned :=
      checkLimit_le (listingChecks_ok h).2.1 (hdefault.trans hmax) hmax
    exact isModest_listChildren h hsize
  refine ⟨fun exec st n max => ⟨fun h => ?_, ?_⟩, fun h => ?_, ?_, fun hexec st page h => ?_⟩
  · cases hchecks : listingChecks env.limits sort offset limit with
    -- nothing after the checks blames the limit
    | ok checked => cases (hmodest checked hchecks).fails_of_run h
    | error e =>
      rw [program_listChildren_of_error hchecks] at h
      obtain rfl := Except.error.inj h
      exact listingChecks_invalidLimit hdefault hchecks
  · rintro ⟨rfl, rfl, hlt, keys, hkeys⟩
    have hchecks : listingChecks env.limits sort offset (some n) =
        .error (.invalidLimit n env.limits.max) := by
      rw [listingChecks_eq hdefault, hkeys]
      exact if_pos hlt
    rw [program_listChildren_of_error hchecks]
    rfl
  · obtain ⟨e, hchecks⟩ := exists_listingChecks_error hdefault h
    exact ⟨e, program_listChildren_of_error hchecks⟩
  · cases hchecks : listingChecks env.limits sort offset limit with
    | ok checked => exact (hmodest checked hchecks).mono fun _ _ => trivial
    | error e =>
      rw [program_listChildren_of_error hchecks]
      trivial
  · obtain ⟨size, hlimit, hlength⟩ := length_entries_le hexec h
    rw [checkLimit_eq _ hdefault] at hlimit
    split at hlimit
    · cases hlimit
    · obtain rfl := Except.ok.inj hlimit
      exact hlength

end Listings

/-! ### Selects -/

namespace Query

/-- The document is that of a select query with nothing wrong but perhaps its window, of which it
gives the offset and the limit or leaves them out. -/
def SelectAsks (document : Json) (offset limit : Option Nat) : Prop :=
  ∃ members outputs filter orderBy, document = .obj [("select", .obj members)] ∧
    ClausesForm members outputs filter orderBy ∧
    optional "offset" members = offset.map Json.ofNat ∧
    optional "limit" members = limit.map Json.ofNat

theorem orDefault_natural {default n : Nat} {j : Option Json} :
    OrDefault NaturalForm default j n ↔ ∃ given : Option Nat, j = given.map Json.ofNat ∧
      given.getD default = n := by
  constructor
  · intro h
    cases j with
    | none => exact ⟨none, rfl, h.symm⟩
    | some j => exact ⟨some n, congrArg some h, rfl⟩
  · rintro ⟨given, rfl, rfl⟩
    cases given <;> exact rfl

variable {limits : Limits} {document : Json}

/-- A limit is refused exactly if it is given, too large, and all that is wrong with a select. -/
theorem decode_limitTooLarge (hdefault : limits.default ≤ limits.max) {n max : Nat} :
    decode limits document = .error (.limitTooLarge n max) ↔
      max = limits.max ∧ max < n ∧
        ∃ offset, SelectAsks document offset (some n) ∧ offset.getD 0 ≤ maxOffset := by
  have hplain : ¬ IsMalformed (.limitTooLarge n max) := fun ⟨_, _, h⟩ => by cases h
  rw [decode_eq_error hplain]
  constructor
  · rintro ⟨body, rfl, hrefused⟩
    cases hrefused with
    | limit clauses ho hle hl h =>
      obtain ⟨offset, hoffset, rfl⟩ := orDefault_natural.mp ho
      obtain ⟨limit, hlimit, rfl⟩ := orDefault_natural.mp hl
      cases limit with
      | none => exact absurd hdefault (Nat.not_le_of_lt h)
      | some n => exact ⟨rfl, h, offset, ⟨_, _, _, _, rfl, clauses, hoffset, hlimit⟩, hle⟩
  · rintro ⟨rfl, hlt, offset, ⟨members, outputs, filter, orderBy, rfl, hclauses, ho, hl⟩, hle⟩
    exact ⟨_, rfl, .limit hclauses (orDefault_natural.mpr ⟨offset, ho, rfl⟩) hle
      (orDefault_natural.mpr ⟨some n, hl, rfl⟩) hlt⟩

/-- A select query that is read asks for a window that is not too large. -/
theorem selectAsks_of_decode {q : Select} (h : decode limits document = .ok (.select q)) :
    ∃ offset limit, SelectAsks document offset limit ∧ offset.getD 0 = q.offset ∧
      limit.getD limits.default = q.limit ∧ q.offset ≤ maxOffset ∧ q.limit ≤ limits.max := by
  cases decode_eq_ok.mp h with
  | select h =>
    obtain ⟨offset, ho, hoffset⟩ := orDefault_natural.mp h.offset
    obtain ⟨limit, hl, hlimit⟩ := orDefault_natural.mp h.limit
    exact ⟨offset, limit, ⟨_, _, _, _, rfl, h.clauses, ho, hl⟩, hoffset, hlimit, h.offset_le,
      h.limit_le⟩

/-- A window that is too large is refused, also where other parts are malformed. -/
theorem exists_decode_error {members : Members Json}
    (h : (∃ n, optional "limit" members = some (.ofNat n) ∧ limits.max < n) ∨
      ∃ k, optional "offset" members = some (.ofNat k) ∧ maxOffset < k) :
    ∃ e, decode limits (.obj [("select", .obj members)]) = .error e := by
  show ∃ e, (decodeSelect limits (.obj members) >>= fun q => pure (Query.select q)) = .error e
  have hmeets := meets_decodeSelect limits (.obj members)
  cases hselect : decodeSelect limits (.obj members) with
  | error e => exact ⟨e, rfl⟩
  | ok q =>
    exfalso
    rw [hselect] at hmeets
    obtain ⟨members, hbody, hform⟩ := hmeets
    obtain rfl := Json.obj.inj hbody
    have hnatural : ∀ {default m n : Nat} {j : Option Json},
        OrDefault NaturalForm default j m → j = some (.ofNat n) → m = n := by
      rintro default m n _ hm rfl
      exact (Int.ofNat.inj (JsonNumber.int.inj (Json.num.inj hm))).symm
    rcases h with ⟨n, hn, hlt⟩ | ⟨k, hk, hlt⟩
    · obtain rfl := hnatural hform.limit hn
      exact absurd hform.limit_le (Nat.not_le_of_lt hlt)
    · obtain rfl := hnatural hform.offset hk
      exact absurd hform.offset_le (Nat.not_le_of_lt hlt)

/-! ### Compilation -/

/-- What a compilation is refused for is no limit. -/
def Blameless {α : Type} (r : Except QueryError α) : Prop :=
  Meets r (fun _ => True) fun e => (CatalogError.ofQuery e).blamesLimit = false

section Blameless

variable {columns : List Column}

theorem blameless_requireColumn (id : Uuid) : Blameless (requireColumn columns id) := by
  rw [requireColumn]
  cases columnType? columns id with
  | some type => trivial
  | none => exact rfl

theorem blameless_compileExpr (next : Nat) (e : Expr) : Blameless (compileExpr columns next e) := by
  cases e with
  | metadata field => cases field <;> trivial
  | column id =>
    exact Meets.map (blameless_requireColumn id) fun _ _ => trivial
  | value literal => trivial
  | func name args => exact rfl
  | binary op left right => exact rfl
  | unary op operand => exact rfl

theorem blameless_compileOutput (next : Nat) (e : Expr) :
    Blameless (compileOutput columns next e) := by
  unfold compileOutput
  split
  · trivial
  · exact blameless_compileExpr next e

theorem blameless_compileEach {compile : Nat → Expr → Except QueryError (Term × List Json)}
    (h : ∀ next e, Blameless (compile next e)) (next : Nat) (es : List Expr) :
    Blameless (compileEach compile next es) := by
  induction es generalizing next with
  | nil => trivial
  | cons e rest ih =>
    exact Meets.bind (h next e) fun _ _ => Meets.bind (ih _) fun _ _ => trivial

theorem blameless_compileSelect (table : Uuid) (q : Select) :
    Blameless (compileSelect table columns q) := by
  rw [compileSelect_eq]
  split
  · exact rfl
  · refine Meets.bind (blameless_compileEach blameless_compileOutput _ _) fun _ _ =>
      Meets.bind (blameless_compileEach blameless_compileExpr _ _) fun _ _ => ?_
    split
    · exact rfl
    · trivial

theorem blameless_compileRows (table : Uuid) (ids : List Uuid) (now : Timestamp)
    (fresh : Nat → Uuid) (position : Nat) (rows : List (List Json)) :
    Blameless (compileRows table ids now fresh position rows) := by
  induction rows generalizing position with
  | nil => trivial
  | cons row rest ih =>
    rw [compileRows]
    split
    · exact rfl
    · exact Meets.bind (ih _) fun _ _ => trivial

theorem blameless_compile (table : Uuid) (now : Timestamp) (fresh : Nat → Uuid) (q : Query) :
    Blameless (compile table columns now fresh q) := by
  cases q with
  | insert q =>
    have hcolumns : Blameless (q.columns.forM fun id => discard (requireColumn columns id)) := by
      induction q.columns with
      | nil => trivial
      | cons id rest ih =>
        exact Meets.bind (Meets.map (Q := fun _ => True) (blameless_requireColumn id)
          fun _ _ => trivial) fun _ _ => ih
    refine Meets.map (Q := fun _ => True) (P := fun _ => True) ?_ fun _ _ => trivial
    exact Meets.bind hcolumns fun _ _ =>
      Meets.bind (blameless_compileRows _ _ _ _ _ _) fun _ _ => trivial
  | select q => exact Meets.map (blameless_compileSelect table q) fun _ _ => trivial
  | update => exact rfl
  | delete => exact rfl

/-- An offset that the store can't count to is refused in every select, however it was made. -/
theorem compileSelect_offsetTooLarge {table : Uuid} {q : Select} (h : maxOffset < q.offset) :
    (∃ e, compileSelect table columns q = .error e) ∧
      ∀ plan, compileSelect table columns { q with offset := 0 } = .ok plan →
        compileSelect table columns q = .error (.offsetTooLarge q.offset maxOffset) := by
  constructor
  · cases hplan : compileSelect table columns q with
    | error e => exact ⟨e, rfl⟩
    | ok plan =>
      obtain ⟨-, hle, -⟩ := compileSelect_ok hplan
      exact absurd h (Nat.not_lt.mpr hle)
  · intro plan hplan
    obtain ⟨hfilter, -, outputs, literals, order, more, houtputs, horder, -⟩ :=
      compileSelect_ok hplan
    have hnone : q.filter = none := hfilter
    rw [compileSelect_eq, hnone]
    refine (if_neg (by simp)).trans ?_
    exact (bind_of_ok houtputs (bind_of_ok horder (if_pos h)))

end Blameless

end Query

/-! ### Queries -/

section Queries

variable {env : Surroundings} {table : Uuid} {document : Json}

/-- What limits are to a select. -/
structure SelectBounded (env : Surroundings) (table : Uuid) (document : Json) : Prop where
  /-- It fails for its limit exactly if one is given that is too large, and nothing that is read
  before is wrong. -/
  refused_iff : ∀ {σ : Type} (exec : {β : Type} → Request β → σ → Except StoreError β × σ) (st : σ)
    (n max : Nat),
    (((Operation.query table document).program env).run exec st).result =
        .error (.invalidQuery (.limitTooLarge n max)) ↔
      max = env.limits.max ∧ max < n ∧
        ∃ offset, Query.SelectAsks document offset (some n) ∧ offset.getD 0 ≤ Query.maxOffset
  /-- With a window that is too large it is refused before anything is asked of the store. -/
  unread : ∀ members, document = .obj [("select", .obj members)] →
    ((∃ n, Query.optional "limit" members = some (.ofNat n) ∧ env.limits.max < n) ∨
      ∃ k, Query.optional "offset" members = some (.ofNat k) ∧ Query.maxOffset < k) →
    ∃ e, Query.decode env.limits document = .error e ∧
      (Operation.query table document).program env = .fail (CatalogError.ofQuery e)
  /-- What is answered keeps to the limit. -/
  bounded : ∀ {σ : Type} {exec : {β : Type} → Request β → σ → Except StoreError β × σ},
    KeepsLimits exec → ∀ (st : σ) (rows : List (List Json)),
    (((Operation.query table document).program env).run exec st).result = .ok (.rows rows) →
      ∃ offset limit, Query.SelectAsks document offset limit ∧
        offset.getD 0 ≤ Query.maxOffset ∧ limit.getD env.limits.default ≤ env.limits.max ∧
        rows.length ≤ limit.getD env.limits.default

theorem program_query_of_error {e : QueryError} (h : Query.decode env.limits document = .error e) :
    (Operation.query table document).program env = .fail (CatalogError.ofQuery e) := by
  rw [Operation.program, Catalog.executeQuery, h]
  rfl

theorem Catalog.isModest_requireTable (id : Uuid) : (requireTable id).IsModest := by
  have hentry : ((Stored.getEntry id).mapError (asMissingTable id)).IsModest := by
    refine Program.Within.mapError ((Stored.isModest_getEntry id).mono fun e he => ?_)
    cases e with
    | entryNotFound => rfl
    | _ => exact he
  refine Program.Within.bind hentry fun entry => ?_
  split
  · trivial
  · exact rfl

/-- A query that is read is modest. -/
theorem isModest_query {q : Query} (h : Query.decode env.limits document = .ok q) :
    ((Operation.query table document).program env).IsModest := by
  rw [Operation.program]
  refine Program.Within.bind ?_ fun result => by cases result <;> trivial
  rw [Catalog.executeQuery, h]
  refine Program.within_ofExcept_bind (fun e he => by cases he) fun q _ => ?_
  refine Program.Within.bind (Catalog.isModest_requireTable table) fun _ => ?_
  refine Program.Within.bind (Stored.isModest_listColumns table) fun columns => ?_
  refine Program.within_ofExcept_bind (fun e he => ?_) fun plan _ => ?_
  · have hblameless : Query.Blameless (Query.compile table columns env.now env.fresh q) :=
      Query.blameless_compile table env.now env.fresh q
    rw [he] at hblameless
    exact hblameless
  · refine Program.Within.bind (p := Program.note _ _) trivial fun _ => ?_
    cases plan with
    | insert plan =>
      have hput : (Request.insertRecords plan).IsPut := fun e he => by cases he
      exact Program.Within.bind (Program.within_request hput CatalogError.blamesLimit_ofStore)
        fun _ => trivial
    | select plan =>
      have hput : (Request.selectRecords plan).IsPut := fun e he => by cases he
      exact Program.Within.bind (Program.within_request hput CatalogError.blamesLimit_ofStore)
        fun _ => trivial

/-- What a query answers keeps to the limit of the select that was read. -/
theorem length_rows_le {σ : Type} {exec : {β : Type} → Request β → σ → Except StoreError β × σ}
    {st : σ} (hexec : KeepsLimits exec) {rows : List (List Json)}
    (h : (((Operation.query table document).program env).run exec st).result = .ok (.rows rows)) :
    ∃ q, Query.decode env.limits document = .ok (.select q) ∧ rows.length ≤ q.limit := by
  obtain ⟨q, columns, plan, hdecode, hselect, before, after, hserved⟩ := Operation.select_of_rows h
  obtain ⟨-, -, outputs, literals, order, more, -, -, rfl⟩ := Query.compileSelect_ok hselect
  exact ⟨q, hdecode, hexec.records hserved⟩

theorem selectBounded (hdefault : env.limits.default ≤ env.limits.max) :
    SelectBounded env table document := by
  refine ⟨fun exec st n max => ?_, ?_, fun hexec st rows h => ?_⟩
  · rw [← Query.decode_limitTooLarge hdefault]
    constructor
    · intro h
      cases hdecode : Query.decode env.limits document with
      | ok q => cases (isModest_query hdecode).fails_of_run h
      | error e =>
        rw [program_query_of_error hdecode] at h
        have he : CatalogError.ofQuery e = .invalidQuery (.limitTooLarge n max) :=
          Except.error.inj h
        cases e with
        | unimplemented => cases he
        | _ => exact congrArg _ (CatalogError.invalidQuery.inj he)
    · intro hdecode
      rw [program_query_of_error hdecode]
      rfl
  · rintro members rfl h
    obtain ⟨e, he⟩ := Query.exists_decode_error h
    exact ⟨e, he, program_query_of_error he⟩
  · obtain ⟨q, hdecode, hlength⟩ := length_rows_le hexec h
    obtain ⟨offset, limit, hasks, hoffset, hlimit, hle, hmax⟩ := Query.selectAsks_of_decode hdecode
    rw [← hoffset] at hle
    rw [← hlimit] at hmax hlength
    exact ⟨offset, limit, hasks, hle, hmax, hlength⟩

end Queries

/-! ### Configurations -/

namespace Config

variable {c : Config}

/-- The configuration is accepted: that of a file and of environment variables, or of a text. -/
def IsAccepted (c : Config) : Prop :=
  (∃ files environment path, load files environment path = .ok c) ∨
    ∃ text, (ofToml text >>= validate) = .ok c

theorem validate_ok {c' : Config} (h : validate c = .ok c') :
    c' = c ∧ c.limits.default ≤ c.limits.max ∧ c.limits.max ≤ Query.Limits.standard.max := by
  rw [validate] at h
  by_cases hmax : Query.Limits.standard.max < c.limits.max
  · rw [if_pos hmax] at h
    cases h
  · by_cases hdefault : c.limits.max < c.limits.default
    · rw [if_neg hmax, if_pos hdefault] at h
      cases h
    · rw [if_neg hmax, if_neg hdefault] at h
      obtain rfl : c = c' := by
        split at h
        · split at h
          · cases h
          · exact Except.ok.inj h
        · exact Except.ok.inj h
      exact ⟨rfl, Nat.not_lt.mp hdefault, Nat.not_lt.mp hmax⟩

/-- An accepted configuration has passed the last checks. -/
theorem IsAccepted.limits_le (h : c.IsAccepted) :
    c.limits.default ≤ c.limits.max ∧ c.limits.max ≤ 999 := by
  obtain ⟨given, hvalid⟩ : ∃ given, validate given = .ok c := by
    rcases h with ⟨files, environment, path, h⟩ | ⟨text, h⟩
    · obtain ⟨⟨format, text⟩, -, h⟩ := bind_ok h
      dsimp only at h
      split at h
      · obtain ⟨given, -, h⟩ := bind_ok h
        exact ⟨given, h⟩
      · cases h
    · obtain ⟨given, -, h⟩ := bind_ok h
      exact ⟨given, h⟩
  obtain ⟨rfl, hdefault, hmax⟩ := validate_ok hvalid
  exact ⟨hdefault, hmax⟩

end Config

/-- The program listens with the limits of its configuration. -/
theorem CommandLine.limits_of_start {disk : Disk} {c : Config} {l : Http.Listener}
    {log : List LogLine} (h : start disk c = (.listening l, log)) : l.limits = c.limits := by
  unfold start at h
  split at h
  · cases h
  · split at h
    · cases h
    · split at h
      · cases h
      · split at h
        · cases h
        · cases h
          rfl

/-- **Configured limits bound every answer.** The limits of an accepted configuration are in order,
and the program listens with them. With such limits every listing and every select keeps to the
window that is asked for or to the default, for every store that keeps to limits, in particular the
embedded database; it is refused for its limit exactly if it gives one above the greatest, and for
no offset that the store can't count to is anything asked of the store, also where a select was made
without a document. -/
theorem configured_limits_bound_answers {c : Config} (h : c.IsAccepted) :
    c.limits.default ≤ c.limits.max ∧ c.limits.max ≤ 999 ∧
      (∀ disk l log, CommandLine.start disk c = (.listening l, log) → l.limits = c.limits) ∧
      KeepsLimits Database.serve ∧
      (∀ env : Surroundings, env.limits = c.limits →
        (∀ parent sort offset limit path, ListingBounded env parent sort offset limit path) ∧
        ∀ table document, SelectBounded env table document) ∧
      ∀ (table : Uuid) (columns : List Column) (q : Query.Select), Query.maxOffset < q.offset →
        (∃ e, Query.compileSelect table columns q = .error e) ∧
        ∀ plan, Query.compileSelect table columns { q with offset := 0 } = .ok plan →
          Query.compileSelect table columns q =
            .error (.offsetTooLarge q.offset Query.maxOffset) := by
  obtain ⟨hdefault, hmax⟩ := h.limits_le
  refine ⟨hdefault, hmax, fun _ _ _ => CommandLine.limits_of_start, Database.keepsLimits_serve,
    fun env henv => ?_, fun table columns q => Query.compileSelect_offsetTooLarge⟩
  rw [← henv] at hdefault hmax
  have hsigned : env.limits.max ≤ Json.maxSigned := hmax.trans (by decide)
  exact ⟨fun _ _ _ _ _ => listingBounded hdefault hsigned, fun _ _ => selectBounded hdefault⟩

/-- With a configuration of a few lines, a listing of four children is refused for its limit. -/
theorem listing_above_configured_limit :
    (Config.ofToml ("catalog = \x7b type = \"sqlite\", dsn = \"t.db\" \x7d\n" ++
        "misc = \x7b default_query_limit = 2, max_query_limit = 3 \x7d\n") >>= Config.validate) =
      .ok ⟨.embedded "t.db" .wal false, some .standard, ⟨2, 3⟩⟩ ∧
    ∀ (env : Surroundings) (db : Database) (root : Uuid), env.limits = ⟨2, 3⟩ →
      (((Operation.listChildren (.root root) ["created_at"] 0 (some 4) false).program env).run
        Database.serve db).result = .error (.invalidLimit 4 3) := by
  have haccepted : (Config.ofToml ("catalog = \x7b type = \"sqlite\", dsn = \"t.db\" \x7d\n" ++
        "misc = \x7b default_query_limit = 2, max_query_limit = 3 \x7d\n") >>= Config.validate) =
      .ok ⟨.embedded "t.db" .wal false, some .standard, ⟨2, 3⟩⟩ := by decide +kernel
  refine ⟨haccepted, fun env db root henv => ?_⟩
  obtain ⟨-, -, -, -, hbounded, -⟩ := configured_limits_bound_answers (.inr ⟨_, haccepted⟩)
  have hlisting := (hbounded env henv).1 (.root root) ["created_at"] 0 (some 4) false
  refine (hlisting.refused_iff Database.serve db 4 3).mpr
    ⟨?_, rfl, by decide, [⟨.createdAt, .asc⟩], rfl⟩
  rw [henv]

end TableStore
