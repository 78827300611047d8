import TableStore.Proofs.Failures
import TableStore.Proofs.History

/-!
# Moves

`Tables.verdict` says whether an entry may move to a place, or why not, and a move that is made
comes to this verdict and to nothing else (`Linked.moveEntry_verdict`). It is in favour exactly if
the entry is there and admits the place (`Sound.verdict_ok`): the root, or a folder of the same
organization that is neither the entry nor below it. **Moves are exact**: `Database.move_is_exact`
adds what a move changes, which is one row, and what it makes of the ways up of all entries.

The dry run of a move comes to the same verdict, with one exception (`Sound.validateMove_verdict`):
of a table that is moved into itself it says that this is a cycle, while the move itself says that a
table is no folder (`Database.dry_run_agrees_iff`).
-/

namespace TableStore

namespace Tables

variable {t t' : Tables} {id other d : Uuid} {destination : Option Uuid}

/-- The places that an entry can move to: the root, and every folder of its organization that is
neither the entry nor below it. -/
def Admits (t : Tables) (e : EntryRow) (destination : Option Uuid) : Prop :=
  ∀ d, destination = some d → ∃ folder ∈ t.entries, folder.id = d ∧
    folder.type = EntryType.folder.name ∧ folder.organizationId = e.organizationId ∧
    ¬ t.AtOrBelow d e.id

/-- Whether an entry may move to a place, or why not. -/
def verdict (t : Tables) (id : Uuid) (destination : Option Uuid) : Except CatalogError Unit :=
  Except.mapError (CatalogError.entryMissing id) do
    let e ← found (t.entry? id)
    match destination with
    | some d => t.checkDestination id e.organizationId d
    | none => .ok ()

theorem verdict_of_some {e : EntryRow} (he : t.entry? id = some e) :
    t.verdict id (some d) =
      (t.checkDestination id e.organizationId d).mapError (CatalogError.entryMissing id) := by
  rw [verdict, he]
  rfl

/-- The verdict is in favour exactly if the entry is there and admits the place. -/
theorem Sound.verdict_ok (hs : t.Sound) :
    t.verdict id destination = .ok () ↔
      ∃ e ∈ t.entries, e.id = id ∧ t.Admits e destination := by
  constructor
  · intro h
    obtain ⟨e, he, hcheck⟩ := found_bind_ok (mapError_ok h)
    obtain ⟨hm, rfl⟩ := entry?_spec he
    refine ⟨e, hm, rfl, fun d hd => ?_⟩
    subst hd
    obtain ⟨folder, hf, htype, howner, hmem⟩ := checkDestination_ok.mp hcheck
    obtain ⟨hfm, hfid⟩ := entry?_spec hf
    exact ⟨folder, hfm, hfid, htype, howner, fun hb => hmem ((hs.mem_ancestry hf).mpr hb)⟩
  · rintro ⟨e, hm, rfl, hadmits⟩
    have he := hs.entry?_of_mem hm
    cases destination with
    | none => rw [verdict, he]; rfl
    | some d =>
      obtain ⟨folder, hfm, rfl, htype, howner, hbelow⟩ := hadmits d rfl
      have hf := hs.entry?_of_mem hfm
      rw [verdict_of_some he, checkDestination_ok.mpr ⟨folder, hf, htype, howner, fun hmem =>
        hbelow ((hs.mem_ancestry hf).mp hmem)⟩]
      rfl

/-! ### Moves that are made -/

/-- Storing a move fails as the verdict says, and in no other way. -/
theorem moveEntry_map (now : Timestamp) :
    ((t.moveEntry id destination now).mapError (CatalogError.entryMissing id)).map (fun _ => ()) =
      t.verdict id destination := by
  rw [Tables.moveEntry, verdict]
  cases t.entry? id with
  | none => rfl
  | some e =>
    cases destination with
    | none => rfl
    | some d =>
      simp only [found, bind, Except.bind]
      cases t.checkDestination id e.organizationId d <;> rfl

/-- **The catalog moves an entry as the verdict says**: what is stored can be read back. -/
theorem Linked.moveEntry_verdict (hl : t.Linked) (env : Surroundings) :
    (Meaning.moveEntry env t id destination).map (fun _ => ()) = t.verdict id destination := by
  rw [← moveEntry_map env.now, Meaning.moveEntry]
  cases hm : (t.moveEntry id destination env.now).mapError (CatalogError.entryMissing id) with
  | error e => rfl
  | ok x =>
    have hstored := mapError_ok hm
    obtain ⟨entry, hentry⟩ := hl.moveEntry_toEntry hstored
    obtain ⟨whole, hwhole⟩ := hl.moveEntry_readWhole hstored
    simp only [andRead, bind, Except.bind, hentry, Except.map, hwhole]

/-! ### Ways up after a move -/

/-- Where one entry gets another way up, all that were at or below it get it too, with what they had
below the entry. -/
theorem Ascent.rerouted {lower upper way : List Uuid} (h : t.Ascent other (lower ++ id :: upper))
    (hsame : ∀ x, x ≠ id → t'.parentOf? x = t.parentOf? x) (hway : t'.Ascent id way) :
    t'.Ascent other (lower ++ way) := by
  induction lower generalizing other with
  | nil =>
    obtain ⟨above, heq⟩ := h.exists_tail
    obtain ⟨rfl, -⟩ := List.cons.inj heq
    exact hway
  | cons x lower ih =>
    have hne : x ≠ id := by
      rintro rfl
      exact (List.nodup_cons.mp h.nodup).1 (List.mem_append_right _ List.mem_cons_self)
    generalize hchain : x :: lower ++ id :: upper = chain at h
    cases h with
    | root _ => simp at hchain
    | up hp habove =>
      obtain ⟨rfl, rfl⟩ := List.cons.inj hchain
      exact .up ((hsame x hne).trans hp) (ih habove)

theorem parentOf?_moved_self {e : EntryRow} {now : Timestamp} (he : t.entry? id = some e) :
    (t.modifyEntry id (EntryRow.movedTo destination now)).parentOf? id = some destination :=
  parentOf?_eq_some.mpr
    ⟨_, (entry?_modifyEntry_of_some (EntryRow.movedTo_id _ _) he).trans
      (congrArg some (if_pos rfl)), rfl⟩

/-- The way up from where an entry has moved: nothing at the root, or that of the folder. -/
theorem Sound.exists_ascent_moved (hs : t.Sound) {e : EntryRow} (now : Timestamp)
    (he : t.entry? id = some e) (hadmits : t.Admits e destination) :
    ∃ above, (∀ d, destination = some d → t.Ascent d above) ∧ (destination = none → above = []) ∧
      Ascent (t.modifyEntry id (EntryRow.movedTo destination now)) id (id :: above) := by
  cases destination with
  | none => exact ⟨[], by simp, fun _ => rfl, .root (parentOf?_moved_self he)⟩
  | some d =>
    obtain ⟨folder, hfm, rfl, -, -, hbelow⟩ := hadmits d rfl
    obtain ⟨above, habove⟩ := hs.rooted folder hfm
    refine ⟨above, fun d hd => Option.some_inj.mp hd ▸ habove, by simp, ?_⟩
    -- nothing above the folder is the entry, so the folder keeps its way up
    exact .up (parentOf?_moved_self he) (habove.congr fun x hx =>
      parentOf?_modifyEntry_of_ne (EntryRow.movedTo_id _ _) fun heq =>
        hbelow (habove.mem_iff.mp ((entry?_spec he).2.trans heq.symm ▸ hx)))

/-! ### Dry runs -/

/-- What an entry is below stands on its path. -/
theorem Sound.pathTo_of_atOrBelow (hs : t.Sound) {row : EntryRow} (hrow : t.entry? d = some row)
    (hne : d ≠ other) (h : t.AtOrBelow d other) :
    (t.pathTo row.parent).any (fun above => above.id == other) = true := by
  obtain ⟨parent, hchild, habove⟩ := (Relation.ReflTransGen.cases_head h).resolve_left hne
  obtain ⟨row', hrow', hparent⟩ := parentOf?_eq_some.mp hchild
  obtain rfl := Option.some_inj.mp (hrow.symm.trans hrow')
  obtain ⟨folder, hfolder, -, -⟩ := hs.parent row (entry?_spec hrow).1 parent hparent
  obtain ⟨chain, hchain⟩ := hs.exists_ascent hfolder
  have hmem := hchain.mem_iff.mpr habove
  obtain ⟨ancestor, hancestor⟩ := Option.isSome_iff_exists.mp (hchain.isSome_of_mem hmem)
  rw [hparent, pathTo, List.any_reverse, hchain.ancestry_eq, List.any_eq_true]
  exact ⟨_, List.mem_filterMap.mpr ⟨other, hmem, congrArg (Option.map _) hancestor⟩,
    beq_iff_eq.mpr (entry?_spec hancestor).2⟩

/-- The path of another entry tells whether that entry is below. -/
theorem Sound.pathTo_iff (hs : t.Sound) {row : EntryRow} (hrow : t.entry? d = some row)
    (hne : d ≠ other) :
    (t.pathTo row.parent).any (fun above => above.id == other) = true ↔
      other ∈ t.ancestry d :=
  ⟨fun h => (hs.mem_ancestry hrow).mpr (hs.atOrBelow_of_pathTo hrow h),
    fun h => hs.pathTo_of_atOrBelow hrow hne ((hs.mem_ancestry hrow).mp h)⟩

/-- A destination that is not the entry is judged by the dry run as by the move. -/
theorem Sound.validateMove_of_ne (hs : t.Sound) {entry : Entry} (hne : d ≠ entry.id) :
    Meaning.validateMove t entry (some d) =
      (t.checkDestination entry.id entry.organizationId d).mapError
        (CatalogError.entryMissing entry.id) := by
  rw [Meaning.validateMove, if_neg hne, checkDestination]
  cases hread : t.readFolder d with
  | error e =>
    rcases hs.readFolder_error hread with ⟨hnone, rfl⟩ | ⟨⟨row, hrow, htype⟩, rfl⟩
    · rw [hnone]
      rfl
    · have hfolder : row.type ≠ EntryType.folder.name := by simp [htype, EntryType.name]
      simp only [hrow, if_pos hfolder]
      rfl
  | ok folder =>
    obtain ⟨row, hrow, htype, rfl⟩ := hs.readFolder_ok hread
    simp only [hrow, if_neg (not_not.mpr htype)]
    show (if row.organizationId ≠ entry.organizationId then _ else
      if (t.pathTo row.parent).any (fun above => above.id == entry.id) = true then _ else _) = _
    simp only [hs.pathTo_iff hrow hne]
    by_cases howner : row.organizationId ≠ entry.organizationId
    · rw [if_pos howner, if_pos howner]
      rfl
    · rw [if_neg howner, if_neg howner]
      by_cases hmem : entry.id ∈ t.ancestry d
      · rw [if_pos hmem, if_pos hmem]
        rfl
      · rw [if_neg hmem, if_neg hmem]
        rfl

/-- A table that is moved into itself. -/
def IsTableIntoItself (t : Tables) (id : Uuid) (destination : Option Uuid) : Prop :=
  t.IsEntry id .table ∧ destination = some id

/-- To the dry run the entry itself is no destination, whatever the entry is. -/
theorem Sound.validateMove_self (hs : t.Sound) {row : EntryRow} (hrow : t.entry? id = some row) :
    (t.readEntry id >>= fun entry => Meaning.validateMove t entry (some id)) =
      .error (.cycleDetected id id) := by
  obtain ⟨type, -, hread⟩ := hs.readEntry_of_some hrow
  obtain ⟨-, rfl⟩ := entry?_spec hrow
  rw [hread]
  exact if_pos rfl

/-- A folder that is moved into itself is a cycle, and a table is no folder. -/
theorem Sound.verdict_self (hs : t.Sound) {row : EntryRow} (hrow : t.entry? id = some row) :
    t.verdict id (some id) =
      .error (if row.type = EntryType.folder.name then .cycleDetected id id
        else .notAFolder id) := by
  have hmem : id ∈ t.ancestry id := (hs.mem_ancestry hrow).mpr .refl
  rw [verdict_of_some hrow, checkDestination, hrow]
  by_cases htype : row.type = EntryType.folder.name <;> simp [htype, hmem] <;> rfl

/-- **The dry run comes to the verdict on the move**, unless a table is moved into itself. -/
theorem Sound.validateMove_verdict (hs : t.Sound) (h : ¬ t.IsTableIntoItself id destination) :
    (t.readEntry id >>= fun entry => Meaning.validateMove t entry destination) =
      t.verdict id destination := by
  cases hrow : t.entry? id with
  | none =>
    rw [readEntry_of_none hrow, verdict, hrow]
    rfl
  | some row =>
    obtain ⟨type, htype, hread⟩ := hs.readEntry_of_some hrow
    cases destination with
    | none =>
      rw [hread, verdict, hrow]
      rfl
    | some d =>
      by_cases hd : d = id
      · subst hd
        cases type with
        | folder => rw [hs.validateMove_self hrow, hs.verdict_self hrow, if_pos htype]
        | table => exact absurd ⟨⟨row, hrow, htype⟩, rfl⟩ h
      · obtain ⟨-, rfl⟩ := entry?_spec hrow
        rw [hread, verdict_of_some hrow]
        exact hs.validateMove_of_ne hd

end Tables

/-! ### Histories -/

section Outcomes

variable {α ε : Type} {r : Except ε α} {e : ε}

/-- A result that is forgotten is still there or not. -/
theorem map_unit_eq_ok : r.map (fun _ => ()) = .ok () ↔ ∃ a, r = .ok a := by
  cases r <;> simp [Except.map]

theorem map_unit_eq_error : r.map (fun _ => ()) = .error e ↔ r = .error e := by
  cases r <;> simp [Except.map]

end Outcomes

namespace Database

open Tables Program

variable {db : Database} {id : Uuid} {destination : Option Uuid}

/-- A call that moves an entry ends as the move means. -/
theorem ends_moveEntry_program (hl : db.tables.Linked) (hw : db.readOnly = false)
    (env : Surroundings) (id : Uuid) (destination : Option Uuid) :
    ((Operation.moveEntry id destination).program env).Ends db
      (answerOf (asPart Reply.entry (Meaning.moveEntry env db.tables id destination)))
      (db.left (Meaning.moveEntry env db.tables id destination)) := by
  have hends := ends_moveEntry hw env hl id destination
  cases hm : Meaning.moveEntry env db.tables id destination with
  | error e =>
    rw [hm] at hends
    exact Ends.bind_error hends
  | ok x =>
    rw [hm] at hends
    exact Ends.bind hends (ends_pure _)

/-- A call that moves an entry ends as the verdict says. -/
theorem perform_moveEntry (hl : db.tables.Linked) (hw : db.readOnly = false) (env : Surroundings)
    (id : Uuid) (destination : Option Uuid) :
    (db.perform ⟨env, .moveEntry id destination⟩).result.map (fun _ => ()) =
      db.tables.verdict id destination := by
  rw [← hl.moveEntry_verdict env]
  refine (congrArg _ (ends_moveEntry_program hl hw env id destination).result).trans ?_
  cases Meaning.moveEntry env db.tables id destination <;> rfl

/-- A call of the dry run ends as the dry run says. -/
theorem perform_validateMove (hu : db.Usable) (hlocked : db.locked = none) (env : Surroundings)
    (id : Uuid) (destination : Option Uuid) :
    (db.perform ⟨env, .validateMove id destination⟩).result.map (fun _ => ()) =
      (db.tables.readEntry id >>= fun entry =>
        Meaning.validateMove db.tables entry destination) := by
  rw [perform_eq hu hlocked]
  show (answerOf (Meaning.unchanged db.tables _ (db.tables.readEntry id >>= fun entry =>
    Meaning.validateMove db.tables entry destination))).map _ = _
  cases (db.tables.readEntry id >>= fun entry =>
    Meaning.validateMove db.tables entry destination) <;> rfl

/-- What a move that succeeds does to the tables. -/
theorem state_moveEntry (hl : db.tables.Linked) (hw : db.readOnly = false) {env : Surroundings}
    {reply : Reply} (h : (db.perform ⟨env, .moveEntry id destination⟩).result = .ok reply) :
    ∃ row t, db.tables.moveEntry id destination env.now = .ok (row, t) ∧
      (db.perform ⟨env, .moveEntry id destination⟩).state = { db with tables := t } := by
  obtain ⟨hresult, hstate⟩ := ends_moveEntry_program hl hw env id destination
  cases hm : Meaning.moveEntry env db.tables id destination with
  | error e =>
    rw [hm] at hresult
    cases hresult.symm.trans h
  | ok x =>
    obtain ⟨whole, t⟩ := x
    rw [hm] at hstate
    rw [Meaning.moveEntry] at hm
    obtain ⟨read, hread, -⟩ := andRead_ok hm
    obtain ⟨row, hrow, -⟩ := andRead_ok hread
    exact ⟨row, t, mapError_ok hrow, hstate⟩

/-- **Moves are exact.** Whatever has been called before, a move succeeds exactly if the entry is
there and the destination is the root or a folder of the same organization that is neither the entry
nor below it. It then writes the parent and the time of this entry and nothing else, so that the
ways up that come to the entry go on from its new place, and the others stay. -/
theorem move_is_exact (history : List Call) (env : Surroundings) (id : Uuid)
    (destination : Option Uuid) :
    let before := fresh.after history
    let outcome := before.perform ⟨env, .moveEntry id destination⟩
    ((∃ reply, outcome.result = .ok reply) ↔
        ∃ e ∈ before.tables.entries, e.id = id ∧ before.tables.Admits e destination) ∧
      ((∃ reply, outcome.result = .ok reply) →
        outcome.state = { before with tables := { before.tables with
          entries := before.tables.entries.map fun e =>
            if e.id = id then { e with parent := destination, updatedAt := env.now } else e } } ∧
        (∀ other chain, before.tables.Ascent other chain → id ∉ chain →
          outcome.state.tables.Ascent other chain) ∧
        ∃ above, (∀ d, destination = some d → before.tables.Ascent d above) ∧
          (destination = none → above = []) ∧
          ∀ other lower upper, before.tables.Ascent other (lower ++ id :: upper) →
            outcome.state.tables.Ascent other (lower ++ id :: above)) := by
  intro before outcome
  have hu := usable_after history
  have hs := hu.sound
  have hiff : (∃ reply, outcome.result = .ok reply) ↔
      ∃ e ∈ before.tables.entries, e.id = id ∧ before.tables.Admits e destination := by
    rw [← map_unit_eq_ok, perform_moveEntry hs.linked hu.writable, hs.verdict_ok]
  refine ⟨hiff, fun hok => ?_⟩
  obtain ⟨e, hm, rfl, hadmits⟩ := hiff.mp hok
  obtain ⟨reply, hreply⟩ := hok
  obtain ⟨row, t, hmoved, hstate⟩ := state_moveEntry hs.linked hu.writable hreply
  obtain ⟨-, -, -, rfl, -⟩ := moveEntry_ok hmoved
  have hsame : ∀ x, x ≠ e.id →
      Tables.parentOf? (before.tables.modifyEntry e.id (EntryRow.movedTo destination env.now)) x =
        before.tables.parentOf? x :=
    fun x hx => parentOf?_modifyEntry_of_ne (EntryRow.movedTo_id _ _) hx
  obtain ⟨above, hsome, hnone, hway⟩ :=
    hs.exists_ascent_moved env.now (hs.entry?_of_mem hm) hadmits
  refine ⟨hstate, fun other chain hchain hmem => ?_, above, hsome, hnone,
    fun other lower upper hchain => ?_⟩
  · rw [hstate]
    exact hchain.congr fun x hx => hsame x fun heq => hmem (heq ▸ hx)
  · rw [hstate]
    exact hchain.rerouted hsame hway

/-- **Dry runs agree with moves, but for a table that is moved into itself.** Whatever has been
called before, the dry run succeeds exactly if the move does, and where both fail they fail with the
same error exactly if it is not a table that is moved into itself. -/
theorem dry_run_agrees_iff (history : List Call) (env env' : Surroundings) (id : Uuid)
    (destination : Option Uuid) :
    let db := fresh.after history
    let dry := (db.perform ⟨env, .validateMove id destination⟩).result
    let real := (db.perform ⟨env', .moveEntry id destination⟩).result
    ((∃ reply, dry = .ok reply) ↔ ∃ reply, real = .ok reply) ∧
      ((∀ e, dry = .error e ↔ real = .error e) ↔
        ¬ db.tables.IsTableIntoItself id destination) := by
  intro db dry real
  have hu := usable_after history
  have hdry := perform_validateMove hu (locked_after history) env id destination
  have hreal := perform_moveEntry hu.sound.linked hu.writable env' id destination
  have herror : (∀ e, dry = .error e ↔ real = .error e) ↔
      ∀ e, dry.map (fun _ => ()) = .error e ↔ real.map (fun _ => ()) = .error e := by
    simp only [map_unit_eq_error]
  rw [← map_unit_eq_ok, ← map_unit_eq_ok, herror]
  by_cases hself : db.tables.IsTableIntoItself id destination
  · obtain ⟨⟨row, hrow, htype⟩, rfl⟩ := hself
    rw [hu.sound.validateMove_self hrow] at hdry
    rw [hu.sound.verdict_self hrow, if_neg (by simp [htype, EntryType.name])] at hreal
    rw [hdry, hreal]
    refine ⟨by simp, iff_of_false (fun h => ?_) (not_not.mpr ⟨⟨row, hrow, htype⟩, rfl⟩)⟩
    cases (h (.notAFolder id)).mpr rfl
  · rw [hu.sound.validateMove_verdict hself] at hdry
    rw [hdry, hreal]
    exact ⟨Iff.rfl, iff_of_true (fun _ => Iff.rfl) hself⟩

/-- A table is moved into itself: a cycle to the dry run, and no folder to the move. -/
theorem table_into_itself :
    let db := fresh.after [⟨.numbered 1, .createOrganization "org"⟩,
      ⟨.numbered 2, .createEntry ⟨1⟩ .table none [] []⟩]
    (db.perform ⟨.numbered 3, .validateMove ⟨2⟩ (some ⟨2⟩)⟩).result =
        .error (.cycleDetected ⟨2⟩ ⟨2⟩) ∧
      (db.perform ⟨.numbered 3, .moveEntry ⟨2⟩ (some ⟨2⟩)⟩).result = .error (.notAFolder ⟨2⟩) :=
  ⟨by decide +kernel, by decide +kernel⟩

end Database
end TableStore
