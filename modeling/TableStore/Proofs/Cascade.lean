import Mathlib.Data.List.Basic
import Mathlib.Logic.Relation
import TableStore.Store.Cascade

/-!
# What a deletion takes along

A row goes with the row it refers to (`Tables.RefersTo`, `Tables.GoesWith`). A cascade follows the
foreign keys from one row to the rows that refer to it, and skips what has gone before it gets
there. **What it takes is all that goes with its row, and nothing else**
(`Tables.mem_gone_iff_of_cascade`): what has gone is not referred to any more (`Tables.Clears`),
which is kept from one row to the next and from one key to the next, so in the end nothing is left
that refers to any of it.

The second half is about depth. A cascade fails only where a row that keys can refer to stands as
many references away as there are levels (`Tables.cascade_error`). The converse holds where rows
stand in a tree (`Tables.Ranked`): no row is reached on two ways then, so that nothing on the way to
a deep row has gone before its turn (`Tables.lt_of_cascade_ok`).
-/

namespace TableStore

/-- A row, by its table and its identifier. -/
structure RowId where
  kind : RowKind
  id : Uuid
deriving DecidableEq

/-! ### Runs over lists -/

section Runs

variable {σ ε α : Type} {f : σ → α → Except ε σ} {s s' : σ} {l l' : List α} {a : α}

theorem foldlM_append_ok :
    (l ++ l').foldlM f s = .ok s' ↔ ∃ u, l.foldlM f s = .ok u ∧ l'.foldlM f u = .ok s' := by
  rw [List.foldlM_append]
  cases l.foldlM f s with
  | error e => exact ⟨nofun, nofun⟩
  | ok u => exact ⟨fun h => ⟨u, rfl, h⟩, fun ⟨_, hu, h⟩ => Except.ok.inj hu ▸ h⟩

theorem foldlM_cons_ok :
    (a :: l).foldlM f s = .ok s' ↔ ∃ u, f s a = .ok u ∧ l.foldlM f u = .ok s' := by
  rw [List.foldlM_cons]
  cases f s a with
  | error e => exact ⟨nofun, nofun⟩
  | ok u => exact ⟨fun h => ⟨u, rfl, h⟩, fun ⟨_, hu, h⟩ => Except.ok.inj hu ▸ h⟩

/-- A run that fails fails at one of the members, after those before it. -/
theorem foldlM_error {e : ε} (h : l.foldlM f s = .error e) :
    ∃ front a back u, l = front ++ a :: back ∧ front.foldlM f s = .ok u ∧ f u a = .error e := by
  induction l generalizing s with
  | nil => cases h
  | cons b l ih =>
    rw [List.foldlM_cons] at h
    cases hb : f s b with
    | error e' =>
      rw [hb] at h
      exact ⟨[], b, l, s, rfl, rfl, hb.trans h⟩
    | ok u =>
      rw [hb] at h
      obtain ⟨front, a, back, v, rfl, hfront, ha⟩ := ih h
      exact ⟨b :: front, a, back, v, rfl, foldlM_cons_ok.mpr ⟨u, hb, hfront⟩, ha⟩

end Runs

namespace ForeignKey

theorem mem_referrers {key : ForeignKey} {kind : RowKind} :
    key ∈ kind.referrers ↔ key.target = kind := by
  have hall : key ∈ all := by cases key <;> decide
  simp [RowKind.referrers, hall]

theorem source_ne_organization (key : ForeignKey) : key.source ≠ .organization := by
  cases key <;> decide

/-- A key is known by the tables that it connects. -/
theorem eq_of_source_of_target {key other : ForeignKey} (hsource : key.source = other.source)
    (htarget : key.target = other.target) : key = other := by
  revert hsource htarget
  cases key <;> cases other <;> decide

end ForeignKey

/-- Keys refer to all tables but two. -/
theorem RowKind.referrers_eq_nil {kind : RowKind} :
    kind.referrers = [] ↔ kind = .column ∨ kind = .record := by
  cases kind <;> decide

namespace Tables

variable {t t' : Tables} {kind : RowKind} {id : Uuid} {key : ForeignKey} {gone gone' : List RowId}
  {x y z w : RowId} {depth n : Nat}

/-! ### Rows and references -/

/-- The first row refers to the second one. -/
def RefersTo (t : Tables) (x y : RowId) : Prop :=
  ∃ key : ForeignKey, key.source = x.kind ∧ key.target = y.kind ∧ x.id ∈ t.referring key y.id

/-- The first row goes when the second one is deleted. -/
def GoesWith (t : Tables) : RowId → RowId → Prop :=
  Relation.ReflTransGen t.RefersTo

/-- The tables without some rows. -/
def without (t : Tables) (gone : List RowId) : Tables where
  organizations := t.organizations.filter fun o => ⟨.organization, o.id⟩ ∉ gone
  entries := t.entries.filter fun e => ⟨.entry, e.id⟩ ∉ gone
  folders := t.folders.filter fun folder => ⟨.folder, folder⟩ ∉ gone
  tables := t.tables.filter fun table => ⟨.table, table⟩ ∉ gone
  columns := t.columns.filter fun c => ⟨.column, c.id⟩ ∉ gone
  records := t.records.filter fun r => ⟨.record, r.id⟩ ∉ gone

theorem without_nil : t.without [] = t := by
  simp [without]

theorem without_without : (t.without gone).without gone' = t.without (gone ++ gone') := by
  simp [without, List.filter_filter, not_or, Bool.and_comm]

theorem erase_eq_without : t.erase kind id = t.without [⟨kind, id⟩] := by
  cases kind <;> simp [erase, deleteColumn, without, bne, beq_eq_decide]

theorem mem_ids_without :
    id ∈ (t.without gone).ids kind ↔ id ∈ t.ids kind ∧ ⟨kind, id⟩ ∉ gone := by
  cases kind <;> simp [ids, without] <;> grind

theorem mem_referring_without {child : Uuid} :
    child ∈ (t.without gone).referring key id ↔
      child ∈ t.referring key id ∧ ⟨key.source, child⟩ ∉ gone := by
  cases key <;> simp [referring, without, ForeignKey.source] <;> grind

/-- What refers is there. -/
theorem mem_ids_of_mem_referring {child : Uuid} (h : child ∈ t.referring key id) :
    child ∈ t.ids key.source := by
  cases key <;> simp [referring, ids, ForeignKey.source] at h ⊢ <;> grind

theorem refersTo_without : (t.without gone).RefersTo x y ↔ t.RefersTo x y ∧ x ∉ gone := by
  constructor
  · rintro ⟨key, hsource, htarget, hmem⟩
    obtain ⟨hmem, hgone⟩ := mem_referring_without.mp hmem
    rw [hsource] at hgone
    exact ⟨⟨key, hsource, htarget, hmem⟩, hgone⟩
  · rintro ⟨⟨key, hsource, htarget, hmem⟩, hgone⟩
    refine ⟨key, hsource, htarget, mem_referring_without.mpr ⟨hmem, ?_⟩⟩
    rwa [hsource]

theorem goesWith_of_without (h : (t.without gone).GoesWith x y) : t.GoesWith x y :=
  Relation.ReflTransGen.mono (fun _ _ hxy => (refersTo_without.mp hxy).1) _ _ h

theorem RefersTo.mem_ids (h : t.RefersTo x y) : x.id ∈ t.ids x.kind := by
  obtain ⟨key, hsource, -, hmem⟩ := h
  exact hsource ▸ mem_ids_of_mem_referring hmem

/-- What is referred to is in a table that keys refer to. -/
theorem RefersTo.referrers_ne_nil (h : t.RefersTo x y) : y.kind.referrers ≠ [] := by
  obtain ⟨key, -, htarget, -⟩ := h
  exact List.ne_nil_of_mem (ForeignKey.mem_referrers.mpr htarget)

/-- Organizations refer to nothing. -/
theorem RefersTo.kind_ne (h : t.RefersTo x y) : x.kind ≠ .organization := by
  obtain ⟨key, hsource, -, -⟩ := h
  exact hsource ▸ key.source_ne_organization

/-! ### What a cascade takes -/

/-- Some rows have gone, and nothing that is left refers to any of them. -/
structure Clears (t t' : Tables) (gone : List RowId) : Prop where
  eq : t' = t.without gone
  closed : ∀ x ∈ gone, ∀ y, ¬ t'.RefersTo y x

theorem Clears.refl : t.Clears t [] where
  eq := without_nil.symm
  closed := by simp

theorem Clears.trans {t'' : Tables} (h : t.Clears t' gone) (h' : t'.Clears t'' gone') :
    t.Clears t'' (gone ++ gone') where
  eq := by rw [h'.eq, h.eq, without_without]
  closed := by
    intro x hx y hyx
    rcases List.mem_append.mp hx with hx | hx
    · rw [h'.eq] at hyx
      exact h.closed x hx y (refersTo_without.mp hyx).1
    · exact h'.closed x hx y hyx

/-- What a cascade of a depth does: it takes what goes with its row, and the row itself. -/
def TakesAlong (depth : Nat) : Prop :=
  ∀ {kind : RowKind} {t t' : Tables} {id : Uuid}, cascade depth kind t id = .ok t' →
    ∃ gone, t.Clears t' gone ∧ (∀ x ∈ gone, t.GoesWith x ⟨kind, id⟩) ∧ id ∉ t'.ids kind

section Steps

variable (hdepth : TakesAlong depth)
include hdepth

/-- One row after another. -/
theorem clears_of_rows {ids : List Uuid} (h : ids.foldlM (cascade depth kind) t = .ok t') :
    ∃ gone, t.Clears t' gone ∧ (∀ x ∈ gone, ∃ id ∈ ids, t.GoesWith x ⟨kind, id⟩) ∧
      ∀ id ∈ ids, id ∉ t'.ids kind := by
  induction ids generalizing t with
  | nil =>
    obtain rfl := Except.ok.inj h
    exact ⟨[], .refl, by simp, by simp⟩
  | cons id ids ih =>
    obtain ⟨u, hfirst, hrest⟩ := foldlM_cons_ok.mp h
    obtain ⟨gone, hclears, hwith, hgone⟩ := hdepth hfirst
    obtain ⟨gone', hclears', hwith', hgone'⟩ := ih hrest
    refine ⟨gone ++ gone', hclears.trans hclears', fun x hx => ?_, fun other hother => ?_⟩
    · rcases List.mem_append.mp hx with hx | hx
      · exact ⟨id, List.mem_cons_self, hwith x hx⟩
      · obtain ⟨other, hother, hx⟩ := hwith' x hx
        rw [hclears.eq] at hx
        exact ⟨other, List.mem_cons_of_mem _ hother, goesWith_of_without hx⟩
    · rcases List.mem_cons.mp hother with rfl | hother
      · rw [hclears'.eq, mem_ids_without]
        exact fun hmem => hgone hmem.1
      · exact hgone' other hother

/-- One key after another. -/
theorem clears_of_keys {keys : List ForeignKey}
    (h : keys.foldlM (fun t key => (t.referring key id).foldlM (cascade depth key.source) t) t =
      .ok t') :
    ∃ gone, t.Clears t' gone ∧
      (∀ x ∈ gone, ∃ key ∈ keys, ∃ child ∈ t.referring key id,
        t.GoesWith x ⟨key.source, child⟩) ∧
      ∀ key ∈ keys, t'.referring key id = [] := by
  induction keys generalizing t with
  | nil =>
    obtain rfl := Except.ok.inj h
    exact ⟨[], .refl, by simp, by simp⟩
  | cons key keys ih =>
    obtain ⟨u, hfirst, hrest⟩ := foldlM_cons_ok.mp h
    obtain ⟨gone, hclears, hwith, hgone⟩ := clears_of_rows hdepth hfirst
    obtain ⟨gone', hclears', hwith', hgone'⟩ := ih hrest
    refine ⟨gone ++ gone', hclears.trans hclears', fun x hx => ?_, fun other hother => ?_⟩
    · rcases List.mem_append.mp hx with hx | hx
      · obtain ⟨child, hchild, hx⟩ := hwith x hx
        exact ⟨key, List.mem_cons_self, child, hchild, hx⟩
      · obtain ⟨other, hother, child, hchild, hx⟩ := hwith' x hx
        rw [hclears.eq] at hchild hx
        exact ⟨other, List.mem_cons_of_mem _ hother, child,
          (mem_referring_without.mp hchild).1, goesWith_of_without hx⟩
    · rcases List.mem_cons.mp hother with rfl | hother
      · -- what referred by this key has gone, and nothing comes back
        refine List.eq_nil_iff_forall_not_mem.mpr fun child hchild => ?_
        rw [hclears'.eq, hclears.eq, without_without] at hchild
        obtain ⟨hchild, hstays⟩ := mem_referring_without.mp hchild
        refine hgone child hchild ?_
        rw [hclears.eq, mem_ids_without]
        exact ⟨mem_ids_of_mem_referring hchild,
          fun hmem => hstays (List.mem_append_left _ hmem)⟩
      · exact hgone' other hother

end Steps

theorem takesAlong (depth : Nat) : TakesAlong depth := by
  induction depth with
  | zero =>
    intro kind t t' id h
    rw [cascade] at h
    split at h
    case isTrue hmem =>
      split at h
      case isTrue hnone =>
        obtain rfl := Except.ok.inj h
        refine ⟨[⟨kind, id⟩], ⟨erase_eq_without, fun x hx y hyx => ?_⟩, ?_, ?_⟩
        · obtain rfl := List.mem_singleton.mp hx
          exact hyx.referrers_ne_nil (List.isEmpty_iff.mp hnone)
        · intro x hx
          exact List.mem_singleton.mp hx ▸ .refl
        · rw [erase_eq_without, mem_ids_without]
          simp
      case isFalse => cases h
    case isFalse hmem =>
      obtain rfl := Except.ok.inj h
      exact ⟨[], .refl, by simp, by simpa using hmem⟩
  | succ depth ih =>
    intro kind t t' id h
    rw [cascade] at h
    split at h
    case isTrue hmem =>
      rw [erase_eq_without] at h
      obtain ⟨gone, hclears, hwith, hnone⟩ := clears_of_keys ih h
      have heq : t' = t.without (⟨kind, id⟩ :: gone) := by
        rw [hclears.eq, without_without, List.singleton_append]
      refine ⟨⟨kind, id⟩ :: gone, ⟨heq, fun x hx y hyx => ?_⟩, fun x hx => ?_, ?_⟩
      · rcases List.mem_cons.mp hx with rfl | hx
        · obtain ⟨key, -, htarget, hmem⟩ := hyx
          rw [hnone key (ForeignKey.mem_referrers.mpr htarget)] at hmem
          cases hmem
        · exact hclears.closed x hx y hyx
      · rcases List.mem_cons.mp hx with rfl | hx
        · exact .refl
        · obtain ⟨key, hkey, child, hchild, hx⟩ := hwith x hx
          refine (goesWith_of_without hx).tail
            ⟨key, rfl, ForeignKey.mem_referrers.mp hkey, (mem_referring_without.mp hchild).1⟩
      · rw [heq, mem_ids_without]
        simp
    case isFalse hmem =>
      obtain rfl := Except.ok.inj h
      exact ⟨[], .refl, by simp, by simpa using hmem⟩

/-- Where nothing that is left refers to what has gone, all has gone that goes with it. -/
theorem Clears.mem_of_goesWith (h : t.Clears t' gone) (hxy : t.GoesWith x y) (hy : y ∈ gone) :
    x ∈ gone := by
  induction hxy using Relation.ReflTransGen.head_induction_on with
  | refl => exact hy
  | head hxz _ ih =>
    by_contra hx
    exact h.closed _ ih _ (h.eq ▸ refersTo_without.mpr ⟨hxz, hx⟩)

/-- **A cascade takes what goes with its row**, and nothing else. -/
theorem mem_gone_iff_of_cascade (h : cascade depth kind t id = .ok t') (hid : id ∈ t.ids kind) :
    ∃ gone, t' = t.without gone ∧ ∀ x, x ∈ gone ↔ t.GoesWith x ⟨kind, id⟩ := by
  obtain ⟨gone, hclears, hwith, hgone⟩ := takesAlong depth h
  refine ⟨gone, hclears.eq, fun x => ⟨hwith x, fun hx => hclears.mem_of_goesWith hx ?_⟩⟩
  rw [hclears.eq, mem_ids_without] at hgone
  exact not_not.mp fun hmem => hgone ⟨hid, hmem⟩

/-- A row that is not there takes nothing along. -/
theorem cascade_of_notMem (depth : Nat) (hid : id ∉ t.ids kind) :
    cascade depth kind t id = .ok t := by
  cases depth <;> rw [cascade, if_neg (by simpa using hid)]

/-! ### How deep a cascade goes -/

/-- The first row refers to the second one over so many references. -/
inductive RefersIn (t : Tables) : Nat → RowId → RowId → Prop where
  | refl (x : RowId) : RefersIn t 0 x x
  | tail {n : Nat} {x y z : RowId} (h : RefersIn t n x y) (hyz : t.RefersTo y z) :
      RefersIn t (n + 1) x z

theorem RefersIn.goesWith (h : t.RefersIn n x y) : t.GoesWith x y := by
  induction h with
  | refl => exact .refl
  | tail _ hyz ih => exact ih.tail hyz

theorem RefersIn.head (hxy : t.RefersTo x y) (h : t.RefersIn n y z) : t.RefersIn (n + 1) x z := by
  induction h with
  | refl => exact .tail (.refl x) hxy
  | tail _ hyz ih => exact (ih hxy).tail hyz

theorem RefersIn.exists_head (h : t.RefersIn (n + 1) x z) :
    ∃ y, t.RefersTo x y ∧ t.RefersIn n y z := by
  induction n generalizing z with
  | zero =>
    cases h with
    | tail h hyz =>
      cases h
      exact ⟨z, hyz, .refl z⟩
  | succ n ih =>
    cases h with
    | tail h hyz =>
      obtain ⟨y, hxy, h⟩ := ih h
      exact ⟨y, hxy, h.tail hyz⟩

theorem RefersIn.of_without (h : (t.without gone).RefersIn n x y) : t.RefersIn n x y := by
  induction h with
  | refl => exact .refl _
  | tail _ hyz ih => exact ih.tail (refersTo_without.mp hyz).1

/-- A way stays where nothing on it has gone. -/
theorem RefersIn.without (h : t.RefersIn n x y)
    (hstays : ∀ w, t.GoesWith x w → t.GoesWith w y → w ∉ gone) :
    (t.without gone).RefersIn n x y := by
  induction h with
  | refl => exact .refl _
  | tail h hyz ih =>
    exact (ih fun w hxw hwy => hstays w hxw (hwy.tail hyz)).tail
      (refersTo_without.mpr ⟨hyz, hstays _ h.goesWith (.single hyz)⟩)

/-- What a row goes with is not an organization, unless it is the last on the way. -/
theorem kind_ne_of_goesWith (h : t.GoesWith x y) (hy : y.kind ≠ .organization) :
    x.kind ≠ .organization := by
  rcases Relation.ReflTransGen.cases_head h with rfl | ⟨z, hxz, -⟩
  · exact hy
  · exact hxz.kind_ne

theorem referrers_of_goesWith (hx : x.kind.referrers ≠ []) (h : t.GoesWith x y) :
    y.kind.referrers ≠ [] := by
  rcases Relation.ReflTransGen.cases_tail h with rfl | ⟨z, -, hzy⟩
  · exact hx
  · exact hzy.referrers_ne_nil

/-- **A cascade that fails is too deep**: a row that keys can refer to stands as many references
away from its row as there are levels. -/
theorem cascade_error {fault : EngineFault} (h : cascade depth kind t id = .error fault) :
    fault = .tooManyLevels ∧ ∃ x : RowId, x.kind.referrers ≠ [] ∧ x.id ∈ t.ids x.kind ∧
      t.RefersIn depth x ⟨kind, id⟩ := by
  induction depth generalizing t kind id with
  | zero =>
    rw [cascade] at h
    split at h
    case isTrue hmem =>
      split at h
      case isTrue => cases h
      case isFalse hsome =>
        exact ⟨(Except.error.inj h).symm, ⟨kind, id⟩, by simpa using hsome, by simpa using hmem,
          .refl _⟩
    case isFalse => cases h
  | succ depth ih =>
    rw [cascade] at h
    split at h
    case isTrue =>
      rw [erase_eq_without] at h
      obtain ⟨front, key, back, u, hkeys, hfront, h⟩ := foldlM_error h
      obtain ⟨front', child, back', v, hids, hfront', h⟩ := foldlM_error h
      obtain ⟨hfault, x, hx, hid, hway⟩ := ih h
      -- the rows that are left when the cascade fails have been there from the beginning
      obtain ⟨gone, hu, -⟩ := clears_of_keys (takesAlong depth) hfront
      obtain ⟨gone', hv, -⟩ := clears_of_rows (takesAlong depth) hfront'
      have hkey : key ∈ kind.referrers := by rw [hkeys]; simp
      have hchild : child ∈ u.referring key id := by rw [hids]; simp
      rw [hv.eq, hu.eq, without_without, without_without] at hway hid
      rw [hu.eq, without_without] at hchild
      exact ⟨hfault, x, hx, (mem_ids_without.mp hid).1, hway.of_without.tail
        ⟨key, rfl, ForeignKey.mem_referrers.mp hkey, (mem_referring_without.mp hchild).1⟩⟩
    case isFalse => cases h

/-- Where one row after another is deleted, it is the first one that a row goes with that counts. -/
theorem rows_error {ids : List Uuid} {fault : EngineFault} (hids : ∀ id ∈ ids, id ∈ t.ids kind)
    (h : ids.foldlM (cascade depth kind) t = .error fault) :
    fault = .tooManyLevels ∧ ∃ front id back, ∃ x : RowId, ids = front ++ id :: back ∧
      x.kind.referrers ≠ [] ∧ t.RefersIn depth x ⟨kind, id⟩ ∧
        ∀ other ∈ front, ¬ t.GoesWith x ⟨kind, other⟩ := by
  obtain ⟨front, id, back, u, rfl, hfront, h⟩ := foldlM_error h
  obtain ⟨hfault, x, hx, hid, hway⟩ := cascade_error h
  obtain ⟨gone, hclears, -, hgone⟩ := clears_of_rows (takesAlong depth) hfront
  rw [hclears.eq] at hway hid
  refine ⟨hfault, front, id, back, x, rfl, hx, hway.of_without, fun other hother hxo => ?_⟩
  -- the row would have gone with the other one
  have hmem : (⟨kind, other⟩ : RowId) ∈ gone := by
    have hnone := hgone other hother
    rw [hclears.eq, mem_ids_without] at hnone
    exact not_not.mp fun hmem => hnone ⟨hids other (List.mem_append_left _ hother), hmem⟩
  exact (mem_ids_without.mp hid).2 (hclears.mem_of_goesWith hxo hmem)

/-- A reference that a tree is made of: organizations and what nothing refers to stand outside. -/
def Inside (t : Tables) (x y : RowId) : Prop :=
  x.kind.referrers ≠ [] ∧ t.RefersTo x y ∧ y.kind ≠ .organization

theorem goesWith_of_inside (h : Relation.ReflTransGen t.Inside x y) : t.GoesWith x y :=
  Relation.ReflTransGen.mono (fun _ _ hxy => hxy.2.1) _ _ h

/-- Rows that stand in a tree, but for organizations: each row that keys can refer to refers to one
row at most, which has the rank below its own. -/
structure Ranked (t : Tables) (rank : RowId → Nat) : Prop where
  unique : ∀ {x y z : RowId}, x.kind.referrers ≠ [] → t.RefersTo x y → t.RefersTo x z →
    y.kind ≠ .organization → z.kind ≠ .organization → y = z
  rank : ∀ {x y : RowId}, x.kind.referrers ≠ [] → t.RefersTo x y → y.kind ≠ .organization →
    rank x = rank y + 1

namespace Ranked

variable {rank : RowId → Nat}

theorem without (hr : t.Ranked rank) (gone : List RowId) : (t.without gone).Ranked rank where
  unique := fun hx hxy hxz => hr.unique hx (refersTo_without.mp hxy).1 (refersTo_without.mp hxz).1
  rank := fun hx hxy => hr.rank hx (refersTo_without.mp hxy).1

variable (hr : t.Ranked rank)
include hr

/-- Ranks do not grow on the way to a row, which leads over references of the tree. -/
theorem goesWith_inside (hx : x.kind.referrers ≠ []) (hy : y.kind ≠ .organization)
    (h : t.GoesWith x y) :
    Relation.ReflTransGen t.Inside x y ∧ rank y ≤ rank x := by
  induction h using Relation.ReflTransGen.head_induction_on with
  | refl => exact ⟨.refl, Nat.le_refl _⟩
  | @head a b hab hby ih =>
    obtain ⟨hinside, hle⟩ := ih hab.referrers_ne_nil
    have hb := kind_ne_of_goesWith hby hy
    exact ⟨.head ⟨hx, hab, hb⟩ hinside, by rw [hr.rank hx hab hb]; omega⟩

/-- Of the rows on a way there is only one of each rank. -/
theorem eq_of_rank_eq (hx : x.kind.referrers ≠ []) (hy : y.kind ≠ .organization)
    (h : t.GoesWith x y) (hrank : rank x = rank y) : x = y := by
  rcases Relation.ReflTransGen.cases_head h with rfl | ⟨c, hxc, hcy⟩
  · rfl
  · have hstep := hr.rank hx hxc (kind_ne_of_goesWith hcy hy)
    have hle := (hr.goesWith_inside hxc.referrers_ne_nil hy hcy).2
    omega

/-- **No row goes with two rows that refer to the same one.** -/
theorem eq_of_refersTo {root : RowId} (hroot : root.kind ≠ .organization)
    (hw : w.kind.referrers ≠ []) (hwy : t.GoesWith w y) (hwz : t.GoesWith w z)
    (hy : t.RefersTo y root) (hz : t.RefersTo z root) : y = z := by
  have hrank : rank y = rank z :=
    (hr.rank (referrers_of_goesWith hw hwy) hy hroot).trans
      (hr.rank (referrers_of_goesWith hw hwz) hz hroot).symm
  have htotal := Relation.ReflTransGen.total_of_right_unique
    (fun _ _ _ hab hac => hr.unique hab.1 hab.2.1 hac.2.1 hab.2.2 hac.2.2)
    (hr.goesWith_inside hw hy.kind_ne hwy).1 (hr.goesWith_inside hw hz.kind_ne hwz).1
  rcases htotal with h | h
  · exact hr.eq_of_rank_eq (referrers_of_goesWith hw hwy) hz.kind_ne
      (goesWith_of_inside h) hrank
  · exact (hr.eq_of_rank_eq (referrers_of_goesWith hw hwz) hy.kind_ne
      (goesWith_of_inside h) hrank.symm).symm

/-- When the turn comes to a row that refers to the deleted one, nothing on the way from a row below
it has gone. -/
theorem exists_cascade_child (h : cascade (depth + 1) kind t id = .ok t') (hid : id ∈ t.ids kind)
    (hkind : kind ≠ .organization) (hx : x.kind.referrers ≠ []) (hway : t.RefersIn n x y)
    (hy : t.RefersTo y ⟨kind, id⟩) :
    ∃ gone after, cascade depth y.kind (t.without gone) y.id = .ok after ∧
      (t.without gone).RefersIn n x y ∧ y.id ∈ (t.without gone).ids y.kind := by
  have hreference := hy
  obtain ⟨key, hsource, htarget, hmem⟩ := hreference
  obtain ⟨front, back, hkeys, hkey⟩ :=
    List.eq_append_cons_of_mem (ForeignKey.mem_referrers.mpr htarget)
  rw [cascade, if_pos (by simpa using hid), erase_eq_without, hkeys] at h
  obtain ⟨u, hfront, h⟩ := foldlM_append_ok.mp h
  obtain ⟨v₀, hrows, -⟩ := foldlM_cons_ok.mp h
  obtain ⟨gone, hu, hwith, -⟩ := clears_of_keys (takesAlong depth) hfront
  -- the deleted row itself stands above the way, and the keys before lead to other rows
  have hother : ∀ w, t.GoesWith x w → t.GoesWith w y → w ∉ [⟨kind, id⟩] ++ gone := by
    intro w hxw hwy hgone
    have hw := referrers_of_goesWith hx hxw
    rcases List.mem_append.mp hgone with hgone | hgone
    · obtain rfl := List.mem_singleton.mp hgone
      have hle := (hr.goesWith_inside hw hy.kind_ne hwy).2
      rw [hr.rank (referrers_of_goesWith hw hwy) hy hkind] at hle
      omega
    · obtain ⟨other, hfront, child, hchild, hwz⟩ := hwith w hgone
      have htarget' : other.target = kind :=
        ForeignKey.mem_referrers.mp (hkeys ▸ List.mem_append_left _ hfront)
      obtain rfl := hr.eq_of_refersTo hkind hw hwy (goesWith_of_without hwz) hy
        ⟨other, rfl, htarget', (mem_referring_without.mp hchild).1⟩
      exact hkey (ForeignKey.eq_of_source_of_target hsource (htarget.trans htarget'.symm) ▸ hfront)
  rw [hu.eq, without_without] at hrows
  have hturn : y.id ∈ (t.without ([⟨kind, id⟩] ++ gone)).referring key id :=
    mem_referring_without.mpr ⟨hmem, by rw [hsource]; exact hother y hway.goesWith .refl⟩
  obtain ⟨front', back', hids, hrow⟩ := List.eq_append_cons_of_mem hturn
  rw [hids] at hrows
  obtain ⟨v, hfront', h⟩ := foldlM_append_ok.mp hrows
  obtain ⟨after, h, -⟩ := foldlM_cons_ok.mp h
  obtain ⟨gone', hv, hwith', -⟩ := clears_of_rows (takesAlong depth) hfront'
  -- the rows before refer to the deleted one as well, so the way leads to none of them
  have hbefore : ∀ w, t.GoesWith x w → t.GoesWith w y →
      w ∉ [⟨kind, id⟩] ++ gone ++ gone' := by
    intro w hxw hwy hgone
    rcases List.mem_append.mp hgone with hgone | hgone
    · exact hother w hxw hwy hgone
    · obtain ⟨child, hchild, hwz⟩ := hwith' w hgone
      have hmem' : child ∈ (t.without ([⟨kind, id⟩] ++ gone)).referring key id :=
        hids ▸ List.mem_append_left _ hchild
      obtain rfl := hr.eq_of_refersTo hkind (referrers_of_goesWith hx hxw) hwy
        (goesWith_of_without hwz) hy ⟨key, rfl, htarget, (mem_referring_without.mp hmem').1⟩
      exact hrow hchild
  rw [hv.eq, without_without, hsource] at h
  refine ⟨_, after, h, hway.without hbefore, mem_ids_without.mpr ⟨hy.mem_ids, ?_⟩⟩
  exact hbefore y hway.goesWith .refl

/-- **A cascade that succeeds is not too deep**, where rows stand in a tree. -/
theorem lt_of_cascade_ok (h : cascade depth kind t id = .ok t') (hid : id ∈ t.ids kind)
    (hkind : kind ≠ .organization) (hx : x.kind.referrers ≠ [])
    (hway : t.RefersIn n x ⟨kind, id⟩) : n < depth := by
  induction depth generalizing t kind id n t' with
  | zero =>
    rw [cascade, if_pos (by simpa using hid),
      if_neg (by simpa using referrers_of_goesWith hx hway.goesWith)] at h
    cases h
  | succ depth ih =>
    cases hway with
    | refl => exact Nat.succ_pos _
    | tail hway hy =>
      obtain ⟨gone, after, h, hway, hid⟩ := hr.exists_cascade_child h hid hkind hx hway hy
      exact Nat.succ_lt_succ (ih (hr.without gone) h hid hy.kind_ne hway)

/-- Where one row after another is deleted, rows go with the first one that they can go with. -/
theorem lt_of_rows_ok {front back : List Uuid}
    (h : (front ++ id :: back).foldlM (cascade depth kind) t = .ok t') (hid : id ∈ t.ids kind)
    (hkind : kind ≠ .organization) (hx : x.kind.referrers ≠ [])
    (hway : t.RefersIn n x ⟨kind, id⟩) (hfirst : ∀ other ∈ front, ¬ t.GoesWith x ⟨kind, other⟩) :
    n < depth := by
  obtain ⟨u, hfront, h⟩ := foldlM_append_ok.mp h
  obtain ⟨v, h, hback⟩ := foldlM_cons_ok.mp h
  obtain ⟨gone, hclears, hwith, -⟩ := clears_of_rows (takesAlong depth) hfront
  have hstays : ∀ w, t.GoesWith x w → w ∉ gone := fun w hxw hw => by
    obtain ⟨other, hother, hwo⟩ := hwith w hw
    exact hfirst other hother (hxw.trans hwo)
  rw [hclears.eq] at h
  exact (hr.without gone).lt_of_cascade_ok h
    (mem_ids_without.mpr ⟨hid, hstays _ hway.goesWith⟩) hkind hx
    (hway.without fun w hxw _ => hstays w hxw)

end Ranked
end Tables
end TableStore
