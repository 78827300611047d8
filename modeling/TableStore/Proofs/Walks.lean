import TableStore.Proofs.Moves

/-!
# Walks up

Two programs walk up from an entry: one computes a path, the other looks for a cycle before a move.
Both follow pointers that a database may hold in any form, so what they do is told here for
`Tables.Linked` tables, where all that is known of a parent is that it is an entry.

A path is the trail above an entry, read backwards (`Database.reads_computePath`), and what is said
of paths holds of trails (`Tables.isPathTo`). A move looks along a trail too, from the destination
up to the entry that moves, and asks each entry on it for its parent once
(`Request.parentsAsked_walkUp`). **Walks up end, wherever parents point**: `Database.walks_up_end`.
-/

namespace TableStore

namespace Tables

variable {t : Tables} {id : Uuid} {row : EntryRow} {steps : Nat}

/-! ### Paths -/

/-- What is known of a path to an entry, the uppermost folder first. It ends at the parent of the
entry and begins at a root, or where the next folder above would be met twice. -/
structure IsPathTo (t : Tables) (row : EntryRow) (above : List Uuid) : Prop where
  nodup : above.Nodup
  notMem : row.id ∉ above
  linked : (above ++ [row.id]).IsChain fun upper lower => t.IsChildOf lower upper
  last : ∀ p, row.parent = some p → p ≠ row.id → above.getLast? = some p
  top : ∀ x ∈ (above ++ [row.id]).head?, ∀ p, t.IsChildOf x p → p ∈ above ++ [row.id]
  complete : ∀ chain, t.Ascent row.id chain → chain = row.id :: above.reverse

/-- Where a way up leads to a root, the trail above an entry is all that stands on it. -/
theorem Ascent.eq_cons_trail {chain : List Uuid} (h : t.Ascent id chain) {parent : Option Uuid}
    (hparent : t.parentOf? id = some parent) :
    chain = id :: t.trail (Request.identifierCount + 1) [id] parent := by
  cases h with
  | root hp =>
    obtain rfl := Option.some_inj.mp (hp.symm.trans hparent)
    rw [trail_none]
  | up hp above =>
    obtain rfl := Option.some_inj.mp (hp.symm.trans hparent)
    rw [above.trail_eq (Nat.le_succ_of_le above.length_le) (above.notMem_visited hp (by simp))]

/-- **The trail above an entry, read backwards, is the path to it.** -/
theorem isPathTo (hrow : t.entry? row.id = some row) :
    t.IsPathTo row (t.trail (Request.identifierCount + 1) [row.id] row.parent).reverse := by
  have hparent : t.parentOf? row.id = some row.parent := parentOf?_eq_some.mpr ⟨row, hrow, rfl⟩
  obtain ⟨hfirst, hmore⟩ := exists_parent_trail (length_trail_lt t [row.id] row.parent)
  have hchain : (row.id :: t.trail (Request.identifierCount + 1) [row.id] row.parent).IsChain
      t.IsChildOf :=
    (isChain_trail t _ _ _).cons fun p hp => hparent.trans (congrArg some (head?_trail hp))
  refine
    { nodup := List.nodup_reverse.mpr (nodup_trail t _ _ _)
      notMem := fun hmem =>
        notMem_visited_of_mem_trail (List.mem_reverse.mp hmem) List.mem_cons_self
      linked := ?_
      last := fun p hp hne => ?_
      top := fun x hx p hp => ?_
      complete := fun chain h => ?_ }
  · rw [← List.reverse_cons, List.isChain_reverse]
    exact hchain
  · rw [List.getLast?_reverse, hp, trail_of_notMem (by simpa using hne)]
    rfl
  · have hclosed : p ∈ [row.id] ∨
        p ∈ t.trail (Request.identifierCount + 1) [row.id] row.parent := by
      rw [← List.reverse_cons, List.head?_reverse] at hx
      rcases List.mem_cons.mp (List.mem_of_mem_getLast? hx) with rfl | hx
      · exact hfirst p (Option.some_inj.mp (hparent.symm.trans hp))
      · exact hmore x hx p hp
    rw [List.mem_append, List.mem_reverse]
    exact hclosed.symm
  · rw [List.reverse_reverse]
    exact h.eq_cons_trail hparent

theorem map_id_filterMap_element? {ids : List Uuid}
    (h : ∀ x ∈ ids, (t.entry? x).isSome = true) :
    (ids.filterMap t.element?).map PathElement.id = ids := by
  induction ids with
  | nil => rfl
  | cons x ids ih =>
    obtain ⟨hx, hids⟩ := List.forall_mem_cons.mp h
    obtain ⟨e, he⟩ := Option.isSome_iff_exists.mp hx
    have helement : ∃ element, t.element? x = some element ∧ element.id = x :=
      ⟨_, congrArg (Option.map _) he, (entry?_spec he).2⟩
    obtain ⟨element, hsome, hid⟩ := helement
    rw [List.filterMap_cons_some hsome, List.map_cons, ih hids, hid]

/-! ### Moves -/

/-- Up to an entry that moves, the way up is what it was before. -/
theorem atOrBelow_of_moved {x : Uuid} {destination : Option Uuid} {now : Timestamp}
    (h : AtOrBelow (t.modifyEntry id (EntryRow.movedTo destination now)) x id) :
    t.AtOrBelow x id := by
  induction h using Relation.ReflTransGen.head_induction_on with
  | refl => exact .refl
  | @head x y hchild _ ih =>
    by_cases hx : x = id
    · exact hx ▸ .refl
    · refine .head ?_ ih
      rwa [IsChildOf, parentOf?_modifyEntry_of_ne (EntryRow.movedTo_id _ _) hx] at hchild

/-- **A move that is made does not put the entry below itself.** -/
theorem Linked.not_below_itself (hl : t.Linked) {after : Tables} {destination : Option Uuid}
    {now : Timestamp} (h : t.moveEntry id destination now = .ok (row, after)) :
    ¬ Relation.TransGen after.IsChildOf id id := by
  obtain ⟨old, hold, -, rfl, hcheck⟩ := moveEntry_ok h
  intro hcircle
  obtain ⟨d, hd, hup⟩ := Relation.TransGen.head'_iff.mp hcircle
  have hmoved : (t.modifyEntry id (EntryRow.movedTo destination now)).parentOf? id =
      some destination := parentOf?_eq_some.mpr
    ⟨_, (entry?_modifyEntry_of_some (EntryRow.movedTo_id _ _) hold).trans
      (congrArg some (if_pos rfl)), rfl⟩
  obtain rfl : destination = some d := Option.some_inj.mp (hmoved.symm.trans hd)
  obtain ⟨folder, hfolder, -, -, hmem⟩ := checkDestination_ok.mp (hcheck d rfl)
  exact hmem ((hl.mem_ancestry (by simp [hfolder])).mpr (atOrBelow_of_moved hup))

/-- **The verdict on a move to an admissible folder** is against it exactly if the folder is the
entry or below it. -/
theorem Linked.verdict_folder (hl : t.Linked) {d : Uuid} {folder : EntryRow}
    (hrow : t.entry? id = some row) (hfolder : t.entry? d = some folder)
    (htype : folder.type = EntryType.folder.name)
    (howner : folder.organizationId = row.organizationId) :
    (t.verdict id (some d) = .error (.cycleDetected id d) ↔ t.AtOrBelow d id) ∧
      (t.verdict id (some d) = .ok () ↔ ¬ t.AtOrBelow d id) := by
  have hmem : id ∈ t.ancestry d ↔ t.AtOrBelow d id := hl.mem_ancestry (by simp [hfolder])
  rw [verdict_of_some hrow, checkDestination, hfolder]
  by_cases h : t.AtOrBelow d id
  · simp [htype, howner, hmem, h, Except.mapError, CatalogError.entryMissing, CatalogError.ofStore]
  · simp [htype, howner, hmem, h, Except.mapError]

end Tables

/-! ### What a move asks for -/

/-- The entry that a statement asks for the parent of. -/
def Statement.parentAsked? {α : Type} : Statement α → Option Uuid
  | .getParent id => some id
  | _ => none

namespace Batch

variable {α β : Type} {db : Database}

/-- The entries that a batch asks for their parents, one after another. -/
def parentsAsked : Batch α → Database → List Uuid
  | .done _, _ | .fail _, _ => []
  | .send s next, db =>
    s.parentAsked?.toList ++
      match db.execute s with
      | (.ok answer, after) => (next answer).parentsAsked after
      | (.error _, _) => []

theorem parentsAsked_bind (b : Batch α) (f : α → Batch β) (db : Database) :
    (b >>= f).parentsAsked db = b.parentsAsked db ++
      match b.outcome db with
      | (.ok a, after) => (f a).parentsAsked after
      | (.error _, _) => [] := by
  show (b.bind f).parentsAsked db = _
  induction b generalizing db with
  | done a => rfl
  | fail e => rfl
  | send s next ih =>
    rw [bind, parentsAsked, parentsAsked, List.append_assoc, outcome, run]
    cases hs : db.execute s with
    | mk r after =>
      cases r with
      | ok answer => exact congrArg _ (ih answer after)
      | error e => rfl

/-- A batch whose second part asks for no parent. -/
theorem parentsAsked_bind_of_second {b : Batch α} {f : α → Batch β}
    (hf : ∀ a after, (f a).parentsAsked after = []) :
    (b >>= f).parentsAsked db = b.parentsAsked db := by
  rw [parentsAsked_bind]
  rcases b.outcome db with ⟨_ | a, after⟩
  · exact List.append_nil _
  · exact (congrArg _ (hf a after)).trans (List.append_nil _)

/-- A batch whose first part asks for no parent. -/
theorem nodup_parentsAsked_bind {b : Batch α} {f : α → Batch β} (hb : b.parentsAsked db = [])
    (hf : ∀ a after, ((f a).parentsAsked after).Nodup) : ((b >>= f).parentsAsked db).Nodup := by
  rw [parentsAsked_bind, hb]
  rcases b.outcome db with ⟨_ | a, after⟩
  · exact List.nodup_nil
  · exact hf a after

theorem parentsAsked_ask (s : Statement α) : (ask s).parentsAsked db = s.parentAsked?.toList := by
  rw [ask, parentsAsked]
  rcases db.execute s with ⟨_ | a, after⟩ <;> exact List.append_nil _

theorem parentsAsked_askOne (s : Statement (Option α)) :
    (askOne s).parentsAsked db = s.parentAsked?.toList := by
  rw [askOne, parentsAsked]
  rcases db.execute s with ⟨_ | _ | a, after⟩ <;> exact List.append_nil _

end Batch

namespace Request

variable {db : Database} {id : Uuid}

/-- **A walk up asks for the parents of what is on the trail**, one after another, up to the entry
that moves. -/
theorem parentsAsked_walkUp {entry destination current : Uuid} {visited : List Uuid} (steps : Nat)
    (hv : entry ∉ visited) :
    (walkUp entry destination steps visited current).parentsAsked db =
      (db.tables.trail steps visited (some current)).takeWhile (· ≠ entry) := by
  induction steps generalizing visited current with
  | zero => rfl
  | succ steps ih =>
    rw [walkUp]
    by_cases hc : current = entry
    · subst hc
      rw [if_pos rfl, Tables.trail_of_notMem hv, List.takeWhile_cons_of_neg (by simp)]
      rfl
    · rw [if_neg hc]
      by_cases hmet : current ∈ visited
      · rw [if_pos (by simpa using hmet), Tables.trail_of_mem hmet]
        rfl
      · have hrun := Database.execute_reading (.getParent current) (·.parentOf? current)
          (rfl : db.exec _ = _)
        rw [if_neg (by simpa using hmet), Batch.parentsAsked, hrun, Tables.trail_of_notMem hmet,
          List.takeWhile_cons_of_pos (by simpa using hc)]
        refine congrArg _ ?_
        rcases db.tables.parentOf? current with _ | _ | parent
        · rw [Option.join_none, Tables.trail_none]
          rfl
        · rw [Option.join_some, Tables.trail_none]
          rfl
        · exact ih (by simp [hv, Ne.symm hc])

theorem nodup_parentsAsked_checkDestination (organization destination : Uuid) :
    ((checkDestination id organization destination).parentsAsked db).Nodup := by
  refine Batch.nodup_parentsAsked_bind (Batch.parentsAsked_ask _) fun placement after => ?_
  match placement with
  | none => exact List.nodup_nil
  | some (owner, type) =>
    dsimp only
    split_ifs
    · exact List.nodup_nil
    · exact List.nodup_nil
    · rw [parentsAsked_walkUp _ List.not_mem_nil]
      exact (List.takeWhile_sublist _).nodup (Tables.nodup_trail _ _ _ _)

/-- **A move asks no entry for its parent twice.** -/
theorem nodup_parentsAsked_moveEntry (destination : Option Uuid) (now : Timestamp) :
    ((moveEntry id destination now).batch.parentsAsked db).Nodup := by
  refine Batch.nodup_parentsAsked_bind (Batch.parentsAsked_askOne _) fun organization after => ?_
  cases destination with
  | none =>
    have hasked : (Batch.askOne (.setParent id none)).parentsAsked after = [] :=
      Batch.parentsAsked_askOne _
    exact hasked ▸ List.nodup_nil
  | some destination =>
    have hasked : (checkDestination id organization destination >>= fun _ =>
        Batch.askOne (.setParent id (some destination))).parentsAsked after = _ :=
      Batch.parentsAsked_bind_of_second fun _ _ => Batch.parentsAsked_askOne _
    exact hasked ▸ nodup_parentsAsked_checkDestination organization destination

end Request

/-! ### Both walks -/

namespace Database

open Program Tables

variable {db : Database} {id : Uuid} {row : EntryRow}

/-- The path of an entry is the trail above it, read backwards. -/
theorem reads_computePath (hl : db.tables.Linked) (hrow : db.tables.entry? id = some row) :
    (Catalog.computePath id).Reads db
      (.ok ((db.tables.trail (Request.identifierCount + 1) [id] row.parent).filterMap
        db.tables.element?).reverse) := by
  obtain ⟨type, -, hread⟩ := hl.readEntry_of_some hrow
  obtain ⟨hmem, rfl⟩ := entry?_spec hrow
  have hclimb : (Catalog.pathOf (row.reread.entity type)).Reads db _ :=
    reads_climb hl row.id (hl.parent row hmem) (Request.identifierCount + 1) [row.id] []
  rw [List.append_nil] at hclimb
  exact Ends.bind (hread ▸ reads_getEntry) hclimb

/-- **Computing a path ends**, with the same path in all numbers of steps that are greater than the
number of entries. -/
theorem exists_path (hl : db.tables.Linked) (env : Surroundings)
    (hrow : db.tables.entry? id = some row) :
    ∃ path, (db.perform ⟨env, .computePath id⟩).result = .ok (.path path) ∧
      db.tables.IsPathTo row (path.map PathElement.id) ∧
      ∀ steps, db.tables.entries.length < steps →
        ((Catalog.climb id steps [id] row.parent []).run Database.serve db).result = .ok path := by
  obtain ⟨hmem, rfl⟩ := entry?_spec hrow
  have hnext := hl.parent row hmem
  have hends : ((Operation.computePath row.id).program env).Reads db (.ok (.path _)) :=
    Ends.bind (reads_computePath hl hrow) (ends_pure _)
  refine ⟨_, hends.result, ?_, fun steps hsteps => ?_⟩
  · rw [List.map_reverse, map_id_filterMap_element? fun x hx => hl.isSome_of_mem_trail hnext hx]
    exact isPathTo hrow
  · have hclimb := (reads_climb hl row.id hnext steps [row.id] []).result
    rwa [hl.trail_eq hnext hsteps, List.append_nil] at hclimb

/-- **Looking for a cycle ends**, in the same way in all numbers of steps that are greater than the
number of entries. -/
theorem outcome_walkUp_eq (hl : db.tables.Linked) (entry destination : Uuid) {steps : Nat}
    (hsteps : db.tables.entries.length < steps) :
    (Request.walkUp entry destination steps [] destination).outcome db =
      (Request.walkUp entry destination (Request.identifierCount + 1) [] destination).outcome
        db := by
  have htrail : db.tables.trail steps [] (some destination) =
      db.tables.trail (Request.identifierCount + 1) [] (some destination) := by
    cases hd : db.tables.entry? destination with
    | some folder =>
      exact hl.trail_eq (fun p hp => Option.some_inj.mp hp ▸ hd ▸ rfl) hsteps
    | none =>
      -- nothing is above what is no entry
      have hparent : db.tables.parentOf? destination = none := by simp [parentOf?, hd]
      obtain ⟨more, rfl⟩ := Nat.exists_eq_succ_of_ne_zero (Nat.ne_zero_of_lt hsteps)
      rw [trail_of_notMem List.not_mem_nil, trail_of_notMem List.not_mem_nil, hparent,
        Option.join_none, trail_none, trail_none]
  rw [outcome_walkUp steps List.not_mem_nil, outcome_walkUp _ List.not_mem_nil, htrail]

/-- **A move to an admissible folder is refused exactly if the folder is the entry or below it**,
and then because of a cycle. -/
theorem perform_move_to_folder (hl : db.tables.Linked) (hw : db.readOnly = false)
    (env : Surroundings) {d : Uuid} {folder : EntryRow} (hrow : db.tables.entry? id = some row)
    (hfolder : db.tables.entry? d = some folder) (htype : folder.type = EntryType.folder.name)
    (howner : folder.organizationId = row.organizationId) :
    ((db.perform ⟨env, .moveEntry id (some d)⟩).result = .error (.cycleDetected id d) ↔
        db.tables.AtOrBelow d id) ∧
      ((∃ reply, (db.perform ⟨env, .moveEntry id (some d)⟩).result = .ok reply) ↔
        ¬ db.tables.AtOrBelow d id) := by
  rw [← map_unit_eq_error, ← map_unit_eq_ok, perform_moveEntry hl hw env id (some d)]
  exact hl.verdict_folder hrow hfolder htype howner

/-- After a move that is made the entry is not below itself. -/
theorem not_below_itself_after (hl : db.tables.Linked) (hw : db.readOnly = false)
    {env : Surroundings} {destination : Option Uuid} {reply : Reply}
    (h : (db.perform ⟨env, .moveEntry id destination⟩).result = .ok reply) :
    ¬ Relation.TransGen
      (db.perform ⟨env, .moveEntry id destination⟩).state.tables.IsChildOf id id := by
  obtain ⟨moved, t, hmoved, hstate⟩ := state_moveEntry hl hw h
  rw [hstate]
  exact hl.not_below_itself hmoved

/-- **Walks up end, wherever parents point.** In tables whose parents are entries, in circles or
not, the path of every entry is computed, and it is a path to the entry. Whatever moves, and
wherever to, no entry is asked for its parent twice. An entry that moves to an admissible folder is
refused, because of a cycle, exactly if the folder is the entry or below it, and after a move that
is made the entry is not below itself. More steps than there are entries make no difference. -/
theorem walks_up_end (hl : db.tables.Linked) (hw : db.readOnly = false) (env : Surroundings) :
    (∀ id row, db.tables.entry? id = some row →
      ∃ path, (db.perform ⟨env, .computePath id⟩).result = .ok (.path path) ∧
        db.tables.IsPathTo row (path.map PathElement.id) ∧
        ∀ steps, db.tables.entries.length < steps →
          ((Catalog.climb id steps [id] row.parent []).run Database.serve db).result = .ok path) ∧
      (∀ id destination,
        ((Request.moveEntry id destination env.now).batch.parentsAsked db).Nodup) ∧
      (∀ id destination steps, db.tables.entries.length < steps →
        (Request.walkUp id destination steps [] destination).outcome db =
          (Request.walkUp id destination (Request.identifierCount + 1) [] destination).outcome
            db) ∧
      (∀ id row d folder, db.tables.entry? id = some row → db.tables.entry? d = some folder →
        folder.type = EntryType.folder.name → folder.organizationId = row.organizationId →
          ((db.perform ⟨env, .moveEntry id (some d)⟩).result = .error (.cycleDetected id d) ↔
              db.tables.AtOrBelow d id) ∧
            ((∃ reply, (db.perform ⟨env, .moveEntry id (some d)⟩).result = .ok reply) ↔
              ¬ db.tables.AtOrBelow d id)) ∧
      ∀ id destination reply,
        (db.perform ⟨env, .moveEntry id destination⟩).result = .ok reply →
          ¬ Relation.TransGen
            (db.perform ⟨env, .moveEntry id destination⟩).state.tables.IsChildOf id id :=
  ⟨fun _ _ hrow => exists_path hl env hrow,
    fun _ destination => Request.nodup_parentsAsked_moveEntry destination env.now,
    fun id destination _ hsteps => outcome_walkUp_eq hl id destination hsteps,
    fun _ _ _ _ hrow hfolder htype howner =>
      perform_move_to_folder hl hw env hrow hfolder htype howner,
    fun _ _ _ hok => not_below_itself_after hl hw hok⟩

/-- A folder of one organization. -/
def folderAt (id : Uuid) (parent : Option Uuid) : EntryRow :=
  ⟨id, ⟨0⟩, EntryType.folder.name, parent, ⟨[]⟩, ⟨0⟩, ⟨0⟩⟩

/-- Folders 1 and 2 are in each other, folder 3 is in folder 1, and folder 4 in none. -/
def circular : Database where
  tables :=
    { Tables.empty with
      organizations := [⟨⟨0⟩, "org", ⟨0⟩, ⟨0⟩⟩]
      entries := [folderAt ⟨1⟩ (some ⟨2⟩), folderAt ⟨2⟩ (some ⟨1⟩), folderAt ⟨3⟩ (some ⟨1⟩),
        folderAt ⟨4⟩ none]
      folders := [⟨1⟩, ⟨2⟩, ⟨3⟩, ⟨4⟩] }
  readOnly := false
  locked := none

theorem linked_circular : circular.tables.Linked where
  entryType := fun e he => ⟨.folder, by
    revert e
    decide⟩
  columnType := fun c hc => by cases hc
  mem_folders := fun id h => by
    obtain ⟨row, hrow, -⟩ := h
    obtain ⟨hmem, rfl⟩ := entry?_spec hrow
    clear hrow
    revert row
    decide
  parent := by decide

/-- Above folder 3 are 1 and 2, where the circle closes. Folder 2 can't be moved to folder 3, and
folder 4 can. -/
theorem walks_up_end_in_a_circle :
    circular.tables.Linked ∧ circular.readOnly = false ∧
      circular.tables.IsPathTo (folderAt ⟨3⟩ (some ⟨1⟩)) [⟨2⟩, ⟨1⟩] ∧
      (circular.perform ⟨.numbered 5, .moveEntry ⟨2⟩ (some ⟨3⟩)⟩).result =
        .error (.cycleDetected ⟨2⟩ ⟨3⟩) ∧
      circular.tables.AtOrBelow ⟨3⟩ ⟨2⟩ ∧
      ¬ circular.tables.AtOrBelow ⟨3⟩ ⟨4⟩ ∧
      ¬ Relation.TransGen (circular.perform
        ⟨.numbered 5, .moveEntry ⟨4⟩ (some ⟨3⟩)⟩).state.tables.IsChildOf ⟨4⟩ ⟨4⟩ := by
  obtain ⟨hpaths, -, -, hfolder, hmade⟩ := walks_up_end linked_circular rfl (.numbered 5)
  have hrow : circular.tables.entry? ⟨3⟩ = some (folderAt ⟨3⟩ (some ⟨1⟩)) := by decide +kernel
  obtain ⟨path, hpath, hispath, -⟩ := hpaths _ _ hrow
  have hread : (circular.perform ⟨.numbered 5, .computePath ⟨3⟩⟩).result =
      .ok (.path [⟨⟨2⟩, .folder, ⟨[]⟩⟩, ⟨⟨1⟩, .folder, ⟨[]⟩⟩]) := by decide +kernel
  obtain rfl := Reply.path.inj (Except.ok.inj (hread.symm.trans hpath))
  have hcycle : (circular.perform ⟨.numbered 5, .moveEntry ⟨2⟩ (some ⟨3⟩)⟩).result =
      .error (.cycleDetected ⟨2⟩ ⟨3⟩) := by decide +kernel
  obtain ⟨hrefused, -⟩ := hfolder ⟨2⟩ _ ⟨3⟩ _ rfl hrow rfl rfl
  obtain ⟨-, haccepted⟩ := hfolder ⟨4⟩ _ ⟨3⟩ _ rfl hrow rfl rfl
  obtain ⟨reply, hreply⟩ := map_unit_eq_ok.mp
    (by decide +kernel : ((circular.perform
      ⟨.numbered 5, .moveEntry ⟨4⟩ (some ⟨3⟩)⟩).result.map fun _ => ()) = .ok ())
  exact ⟨linked_circular, rfl, hispath, hcycle, hrefused.mp hcycle, haccepted.mp ⟨reply, hreply⟩,
    hmade _ _ reply hreply⟩

end Database
end TableStore
