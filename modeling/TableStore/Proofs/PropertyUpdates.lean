import TableStore.Proofs.PropertyHistory

/-!
# Updates of properties

Updates with a key that is not allowed are refused as a whole, and blame the least of these keys
(`Operation.ChecksFirst.meaning_error`). What else has to be right for an update does not depend on
its members (`UpdateTarget.accepted_iff`), and so an update may as well be made in parts
(`Database.sameJoined`).

**Stored property maps follow their history** (`Database.property_maps_follow_history`) puts this
together with what stored maps hold.
-/

namespace TableStore

open Tables

/-! ### Refusals -/

namespace Operation

variable {env : Surroundings} {t after : Tables} {op : Operation} {members : Members Json}

/-- The maps that an operation is handed. -/
def maps : Operation → List (Members Json)
  | .createEntry _ _ _ members definitions =>
    members :: definitions.map ColumnDefinition.properties
  | .updateProperties _ members => [members]
  | .createColumn _ definition _ => [definition.properties]
  | .updateColumn _ _ changes => changes.properties.toList
  | _ => []

theorem maps_of_isReading (h : op.isReading = true) : op.maps = [] := by
  cases op <;> first | rfl | cases h

theorem isKey_of_checkProperties {properties : Properties}
    (h : Catalog.checkProperties members = .ok properties) :
    ∀ key ∈ members.keys, isKey key = true := by
  obtain ⟨update, hupdate, -⟩ := bind_ok (mapError_ok h)
  obtain ⟨⟨⟩, hkeys, -⟩ := bind_ok hupdate
  exact checkKeys_ok.mp hkeys

theorem isKey_of_checkUpdate {update : PropertiesUpdate}
    (h : Catalog.checkUpdate members = .ok update) : ∀ key ∈ members.keys, isKey key = true := by
  obtain ⟨⟨⟩, hkeys, -⟩ := bind_ok (mapError_ok h)
  exact checkKeys_ok.mp hkeys

theorem isKey_of_checkDefinition {d : ColumnDefinition} {column : NewColumn}
    (h : Catalog.checkDefinition d = .ok column) : ∀ key ∈ d.properties.keys, isKey key = true :=
  isKey_of_checkProperties (Catalog.checkDefinition_ok h).2.2

/-- What is accepted has been handed no key that is not allowed. -/
theorem Does.isKey_of_mem_maps (h : op.Does env t after) (hmem : members ∈ op.maps) :
    ∀ key ∈ members.keys, isKey key = true := by
  cases h with
  | read hread =>
    rw [maps_of_isReading hread] at hmem
    cases hmem
  | createEntry hproperties hcolumns =>
    rcases List.mem_cons.mp hmem with rfl | hmem
    · exact isKey_of_checkProperties hproperties
    · obtain ⟨d, hd, rfl⟩ := List.mem_map.mp hmem
      obtain ⟨column, hcolumn⟩ := exists_of_mapM_ok hcolumns d hd
      exact isKey_of_checkDefinition hcolumn
  | updateProperties hupdate =>
    obtain rfl := List.mem_singleton.mp hmem
    exact isKey_of_checkUpdate hupdate
  | createColumn _ hcolumn =>
    obtain rfl := List.mem_singleton.mp hmem
    exact isKey_of_checkDefinition hcolumn
  | updateColumn hupdate =>
    obtain ⟨-, -, hproperties, -⟩ := Catalog.checkChanges_ok hupdate
    rw [Option.mem_toList.mp hmem] at hproperties
    obtain ⟨update, hupdate, -⟩ := bind_ok hproperties
    exact isKey_of_checkUpdate hupdate
  | _ => cases hmem

/-- Members are what is checked first of an operation, but for what passes the check. -/
inductive ChecksFirst : Operation → Members Json → Prop where
  | createEntry {organization : Uuid} {type : EntryType} {parent : Option Uuid}
      {members : Members Json} {definitions : List ColumnDefinition} :
      ChecksFirst (.createEntry organization type parent members definitions) members
  | definition {organization : Uuid} {type : EntryType} {parent : Option Uuid}
      {members : Members Json} {before after : List ColumnDefinition} {d : ColumnDefinition}
      (hmembers : ∃ properties, Catalog.checkProperties members = .ok properties)
      (hbefore : ∃ columns, before.mapM Catalog.checkDefinition = .ok columns)
      (htype : ∃ type, Catalog.checkType d.type = .ok type) :
      ChecksFirst (.createEntry organization type parent members (before ++ d :: after))
        d.properties
  | updateProperties {id : Uuid} {members : Members Json} :
      ChecksFirst (.updateProperties id members) members
  | createColumn {table : Uuid} {definition : ColumnDefinition} {index : Option Int}
      (hindex : ∃ position, Catalog.checkIndex index = .ok position)
      (htype : ∃ type, Catalog.checkType definition.type = .ok type) :
      ChecksFirst (.createColumn table definition index) definition.properties
  | updateColumn {table column : Uuid} {changes : ColumnChanges} {members : Members Json}
      (hindex : ∃ position, Catalog.checkIndex changes.index = .ok position)
      (htype : ∃ type, changes.type.mapM Catalog.checkType = .ok type)
      (hmembers : changes.properties = some members) :
      ChecksFirst (.updateColumn table column changes) members

theorem checkProperties_error {e : PropertyError} (h : checkKeys members = .error e) :
    Catalog.checkProperties members = .error (.invalidProperty e) := by
  rw [Catalog.checkProperties, Properties.ofMembers?, Properties.merge, PropertiesUpdate.ofMembers?,
    h]
  rfl

theorem checkUpdate_error {e : PropertyError} (h : checkKeys members = .error e) :
    Catalog.checkUpdate members = .error (.invalidProperty e) := by
  rw [Catalog.checkUpdate, PropertiesUpdate.ofMembers?, h]
  rfl

theorem checkDefinition_error {d : ColumnDefinition} {e : PropertyError}
    (htype : ∃ type, Catalog.checkType d.type = .ok type) (h : checkKeys d.properties = .error e) :
    Catalog.checkDefinition d = .error (.invalidProperty e) :=
  htype.elim fun _ htype => bind_of_ok htype (bind_of_error (checkProperties_error h))

theorem checkChanges_error {changes : ColumnChanges} {e : PropertyError}
    (hindex : ∃ position, Catalog.checkIndex changes.index = .ok position)
    (htype : ∃ type, changes.type.mapM Catalog.checkType = .ok type)
    (hmembers : changes.properties = some members) (h : checkKeys members = .error e) :
    Catalog.checkChanges changes = .error (.invalidProperty e) := by
  obtain ⟨position, hposition⟩ := hindex
  obtain ⟨type, htype⟩ := htype
  refine bind_of_ok hposition (bind_of_ok htype (bind_of_error ?_))
  rw [hmembers]
  exact bind_of_error (checkUpdate_error h)

/-- What is checked first is blamed. -/
theorem ChecksFirst.meaning_error (h : op.ChecksFirst members) {e : PropertyError}
    (hkeys : checkKeys members = .error e) : op.meaning env t = .error (.invalidProperty e) := by
  cases h with
  | createEntry =>
    rw [meaning, Meaning.createEntry, checkProperties_error hkeys]
    rfl
  | definition hmembers hbefore htype =>
    obtain ⟨properties, hproperties⟩ := hmembers
    obtain ⟨columns, hcolumns⟩ := hbefore
    rw [meaning, Meaning.createEntry, hproperties, List.mapM_append, hcolumns, List.mapM_cons,
      checkDefinition_error htype hkeys]
    rfl
  | updateProperties =>
    rw [meaning, Meaning.updateProperties, checkUpdate_error hkeys]
    rfl
  | createColumn hindex htype =>
    obtain ⟨position, hposition⟩ := hindex
    rw [meaning, Meaning.createColumn, hposition, checkDefinition_error htype hkeys]
    rfl
  | updateColumn hindex htype hmembers =>
    rw [meaning, Meaning.updateColumn, checkChanges_error hindex htype hmembers hkeys]
    rfl

end Operation

/-! ### Updates in parts -/

/-- Where an update of properties goes: to an entry, or to a column, with what else is to change
there. -/
inductive UpdateTarget where
  | entry (id : Uuid)
  | column (table id : Uuid) (changes : ColumnChanges)

namespace UpdateTarget

variable {target : UpdateTarget} {db : Database} {env : Surroundings} {members : Members Json}

def entity : UpdateTarget → Entity
  | .entry id => .entry id
  | .column _ id _ => .column id

/-- The update with some members. -/
def update (members : Members Json) : UpdateTarget → Operation
  | .entry id => .updateProperties id members
  | .column table id changes => .updateColumn table id { changes with properties := some members }

/-- What has to be right for an update besides its members. -/
def Admits (t : Tables) : UpdateTarget → Prop
  | .entry id => ∃ e, t.entry? id = some e
  | .column table id changes =>
    (∃ position, Catalog.checkIndex changes.index = .ok position) ∧
      (∃ type, changes.type.mapM Catalog.checkType = .ok type) ∧
      ∃ c, t.column? id = some c ∧ c.tableId = table

theorem giving_update (target : UpdateTarget) :
    (target.update members).giving env target.entity = .updates members := by
  cases target <;> exact if_pos rfl

/-- What is admitted has properties. -/
theorem Admits.exists_properties {t : Tables} (h : target.Admits t) :
    ∃ p, t.properties? target.entity = some p := by
  cases target with
  | entry id =>
    obtain ⟨e, he⟩ := h
    exact ⟨_, congrArg (Option.map _) he⟩
  | column table id changes =>
    obtain ⟨-, -, c, hc, -⟩ := h
    exact ⟨_, congrArg (Option.map _) hc⟩

theorem checkUpdate_of_isKey (h : ∀ key ∈ members.keys, isKey key = true) :
    Catalog.checkUpdate members = .ok ⟨members⟩ := by
  rw [Catalog.checkUpdate, PropertiesUpdate.ofMembers?, checkKeys_ok.mpr h]
  rfl

/-- **What else has to be right for an update does not depend on its members.** -/
theorem accepted_iff (hu : db.Usable) (hlocked : db.locked = none) (target : UpdateTarget)
    (env : Surroundings) (members : Members Json) :
    (∃ reply, (db.perform ⟨env, target.update members⟩).result = .ok reply) ↔
      target.Admits db.tables ∧ ∀ key ∈ members.keys, isKey key = true := by
  constructor
  · rintro ⟨reply, hreply⟩
    obtain ⟨t, hdoes, -⟩ := Database.perform_ok hu hreply
    cases target with
    | entry id =>
      refine ⟨?_, hdoes.isKey_of_mem_maps List.mem_cons_self⟩
      cases hdoes with
      | read hread => cases hread
      | updateProperties _ h =>
        obtain ⟨old, hold, -⟩ := changeProperties_ok h
        exact ⟨old, hold⟩
    | column table id changes =>
      refine ⟨?_, hdoes.isKey_of_mem_maps List.mem_cons_self⟩
      cases hdoes with
      | read hread => cases hread
      | updateColumn hupdate hold htable =>
        obtain ⟨hindex, htype, -⟩ := Catalog.checkChanges_ok hupdate
        exact ⟨⟨_, hindex⟩, ⟨_, htype⟩, _, hold, htable⟩
  · rintro ⟨hadmits, hkeys⟩
    -- all ways in which an update can fail are known, and what is admitted excludes them
    suffices h : ∃ x, (target.update members).meaning env db.tables = .ok x by
      obtain ⟨x, hx⟩ := h
      exact ⟨x.1, (Database.perform_of_meaning hu hlocked (t := x.2) hx).1⟩
    cases target with
    | entry id =>
      obtain ⟨e, he⟩ := hadmits
      refine FailsOnly.exists_ok (updateProperties_fails hu.sound env
        (.of_ok ⟨_, checkUpdate_of_isKey hkeys⟩) fun hnone => ?_).asPart
      rw [he] at hnone
      cases hnone
    | column table id changes =>
      obtain ⟨⟨position, hposition⟩, ⟨type, htype⟩, c, hc, hown⟩ := hadmits
      have hchanges : Catalog.checkChanges { changes with properties := some members } =
          .ok ⟨changes.name, type, some ⟨members⟩, position⟩ :=
        bind_of_ok hposition (bind_of_ok htype
          (bind_of_ok (bind_of_ok (checkUpdate_of_isKey hkeys) rfl) rfl))
      have htable : db.tables.IsEntry table .table :=
        hown ▸ hu.sound.columnTable c (column?_spec hc).1
      exact FailsOnly.exists_ok (updateColumn_fails hu.sound env (.of_ok ⟨_, hchanges⟩)
        (fun h => h htable) (readTableColumn_holds hu.sound hc hown)).asPart

/-- An update that is accepted can be followed by others. -/
theorem admits_perform (hu : db.Usable) {reply : Reply}
    (h : (db.perform ⟨env, target.update members⟩).result = .ok reply) :
    target.Admits (db.perform ⟨env, target.update members⟩).state.tables := by
  obtain ⟨t, hdoes, hstate⟩ := Database.perform_ok hu h
  rw [hstate]
  cases target with
  | entry id =>
    cases hdoes with
    | read hread => cases hread
    | updateProperties _ h =>
      obtain ⟨old, hold, -, rfl⟩ := changeProperties_ok h
      exact ⟨_, entry?_modifyEntry_of_some (EntryRow.withProperties_id _ _) hold⟩
  | column table id changes =>
    cases hdoes with
    | read hread => cases hread
    | @updateColumn _ _ _ update _ _ _ hupdate hold htable h =>
      obtain ⟨hindex, htype, -⟩ := Catalog.checkChanges_ok hupdate
      obtain ⟨old, hold', -, rfl⟩ := changeColumn_ok h
      obtain rfl := Option.some_inj.mp (hold'.symm.trans hold)
      have hmodified : (db.tables.modifyColumn id (update.revise env.now old)).column? id =
          some (update.revise env.now old old) := by
        rw [column?_modifyColumn (update.revise env.now old) fun _ => rfl, if_pos rfl, hold]
        rfl
      exact ⟨⟨_, hindex⟩, ⟨_, htype⟩, _, column?_withOrder hmodified rfl, htable⟩

/-- Updates of one target with some members each. -/
def calls (target : UpdateTarget) (parts : List (Surroundings × Members Json)) : List Call :=
  parts.map fun part => ⟨part.1, target.update part.2⟩

/-- The members of several updates in one, the later ones winning. -/
def joined (parts : List (Surroundings × Members Json)) : Members Json :=
  .ofList (parts.flatMap Prod.snd)

theorem isKey_joined_iff {parts : List (Surroundings × Members Json)} :
    (∀ key ∈ (joined parts).keys, isKey key = true) ↔
      ∀ part ∈ parts, ∀ key ∈ part.2.keys, isKey key = true := by
  simp only [joined, Members.mem_keys_ofList, List.map_flatMap, List.mem_flatMap]
  exact ⟨fun h part hpart key hkey => h key ⟨part, hpart, hkey⟩,
    fun h key ⟨part, hpart, hkey⟩ => h part hpart key hkey⟩

end UpdateTarget

namespace Database

/-- All calls are accepted, one after another. -/
def Accepts (db : Database) : List Call → Prop
  | [] => True
  | call :: rest =>
    (∃ reply, (db.perform call).result = .ok reply) ∧ Accepts (db.perform call).state rest

variable {db : Database} {target : UpdateTarget} {parts : List (Surroundings × Members Json)}

theorem accepts_calls_iff (hu : db.Usable) (hlocked : db.locked = none)
    (hadmits : target.Admits db.tables) :
    db.Accepts (target.calls parts) ↔
      ∀ part ∈ parts, ∀ key ∈ part.2.keys, isKey key = true := by
  induction parts generalizing db with
  | nil => simp [UpdateTarget.calls, Accepts]
  | cons part rest ih =>
    rw [List.forall_mem_cons]
    have hfirst := UpdateTarget.accepted_iff hu hlocked target part.1 part.2
    obtain ⟨hnext, hguard⟩ := hu.perform ⟨part.1, target.update part.2⟩
    refine ⟨fun ⟨haccepted, hrest⟩ => ?_, fun ⟨hkeys, hrest⟩ => ?_⟩
    · obtain ⟨reply, hreply⟩ := haccepted
      have hstays := UpdateTarget.admits_perform hu hreply
      exact ⟨(hfirst.mp ⟨reply, hreply⟩).2, (ih hnext (hguard.trans hlocked) hstays).mp hrest⟩
    · obtain ⟨reply, hreply⟩ := hfirst.mpr ⟨hadmits, hkeys⟩
      have hstays := UpdateTarget.admits_perform hu hreply
      exact ⟨⟨reply, hreply⟩, (ih hnext (hguard.trans hlocked) hstays).mpr hrest⟩

/-- What updates that are accepted give, they give in their order. -/
theorem given_calls (before : List (String × Json)) (h : db.Accepts (target.calls parts)) :
    db.given target.entity before (target.calls parts) = before ++ parts.flatMap Prod.snd := by
  induction parts generalizing db before with
  | nil => exact (List.append_nil before).symm
  | cons part rest ih =>
    obtain ⟨⟨reply, hreply⟩, hrest⟩ := h
    have hgiving : db.giving ⟨part.1, target.update part.2⟩ target.entity = .updates part.2 := by
      rw [Database.giving, hreply]
      exact target.giving_update
    show (db.perform _).state.given target.entity _ (target.calls rest) = _
    rw [ih _ hrest, hgiving, Giving.added, List.flatMap_cons, List.append_assoc]

/-- What updates leave that are accepted has properties. -/
theorem exists_properties_after (hu : db.Usable) (hadmits : target.Admits db.tables)
    (h : db.Accepts (target.calls parts)) :
    ∃ p, (db.after (target.calls parts)).tables.properties? target.entity = some p := by
  induction parts generalizing db with
  | nil => exact hadmits.exists_properties
  | cons part rest ih =>
    obtain ⟨⟨reply, hreply⟩, hrest⟩ := h
    exact ih (hu.perform _).1 (UpdateTarget.admits_perform hu hreply) hrest

/-- Several updates, one after another, do what one does with their members joined. -/
structure SameJoined (history : List Call) (target : UpdateTarget) (env : Surroundings)
    (parts : List (Surroundings × Members Json)) : Prop where
  accepted_iff : (fresh.after history).Accepts (target.calls parts) ↔
    (fresh.after history).Accepts (target.calls [(env, UpdateTarget.joined parts)])
  /-- The maps that are left have the same keys, and are the same where writing and reading keeps
  the values. -/
  same : (fresh.after history).Accepts (target.calls parts) → ∃ p q,
    (fresh.after (history ++ target.calls parts)).tables.properties? target.entity = some p ∧
      (fresh.after (history ++ target.calls [(env, UpdateTarget.joined parts)])).tables.properties?
          target.entity = some q ∧
      (∀ key, (p.get? key).isSome = (q.get? key).isSome) ∧
      ((∀ key v, Properties.lastValue
          (fresh.given target.entity [] (history ++ target.calls parts)) key = some v →
            v.reread = v) → p = q)

/-- **An update may as well be made in parts**, and updates that follow one another at once. -/
theorem sameJoined (history : List Call) (target : UpdateTarget) (env : Surroundings)
    (hne : parts ≠ []) : SameJoined history target env parts := by
  have hu := usable_after history
  have hlocked := locked_after history
  -- what the first of some updates needs besides its members, all of them need
  have hadmits : ∀ {parts : List (Surroundings × Members Json)}, parts ≠ [] →
      (fresh.after history).Accepts (target.calls parts) →
        target.Admits (fresh.after history).tables := fun hne h => by
    obtain ⟨part, rest, rfl⟩ := List.exists_cons_of_ne_nil hne
    exact ((UpdateTarget.accepted_iff hu hlocked target part.1 part.2).mp h.1).1
  have haccepted : (fresh.after history).Accepts (target.calls parts) ↔
      (fresh.after history).Accepts (target.calls [(env, UpdateTarget.joined parts)]) := by
    constructor
    · intro h
      have hneeds := hadmits hne h
      rw [accepts_calls_iff hu hlocked hneeds, ← UpdateTarget.isKey_joined_iff] at h
      exact (accepts_calls_iff hu hlocked hneeds).mpr (List.forall_mem_singleton.mpr h)
    · intro h
      have hneeds := hadmits (List.cons_ne_nil _ _) h
      rw [accepts_calls_iff hu hlocked hneeds, List.forall_mem_singleton] at h
      exact (accepts_calls_iff hu hlocked hneeds).mpr (UpdateTarget.isKey_joined_iff.mp h)
  refine ⟨haccepted, fun h => ?_⟩
  have hneeds := hadmits hne h
  obtain ⟨p, hp⟩ := exists_properties_after hu hneeds h
  obtain ⟨q, hq⟩ := exists_properties_after hu hneeds (haccepted.mp h)
  rw [← after_append] at hp hq
  have hgiven := given_calls (fresh.given target.entity [] history) h
  have hgiven' := given_calls (fresh.given target.entity [] history) (haccepted.mp h)
  rw [← given_append] at hgiven hgiven'
  have hlast : ∀ key,
      Properties.lastValue (fresh.given target.entity [] (history ++ target.calls parts)) key =
        Properties.lastValue (fresh.given target.entity []
          (history ++ target.calls [(env, UpdateTarget.joined parts)])) key := by
    rw [hgiven, hgiven', List.flatMap_singleton]
    exact Properties.lastValue_append_congr _ fun key =>
      (Members.lookup_reverse_ofList _ key).symm
  exact ⟨p, q, hp, hq, (follows_history hp).isSome_eq (follows_history hq) hlast,
    (follows_history hp).eq (follows_history hq) hlast⟩

/-- **Stored property maps follow their history.** Whatever has been called before, the map of an
entry or a column, as it is stored and as it is read, has only keys that are allowed, each once, and
no `null`. It has a key exactly if the accepted calls have given it last a value other than `null`,
and then it has this value, if the value is one that writing and reading keeps; all are that have no
double in them. An operation with a key that is not allowed is refused and changes nothing, and it
blames the least of these keys where all that is checked before passes. Updates may be split and
joined. -/
theorem property_maps_follow_history (history : List Call) :
    (∀ entity p, (fresh.after history).tables.properties? entity = some p →
        p.Follows (fresh.given entity [] history) ∧
          p.reread.Follows (fresh.given entity [] history)) ∧
      (∀ v : Json, v.hasDouble = false → v.reread = v) ∧
      (∀ call : Call, ∀ members ∈ call.operation.maps, (invalidKeys members).Nonempty →
        (∃ e, ((fresh.after history).perform call).result = .error e) ∧
          ((fresh.after history).perform call).state = fresh.after history) ∧
      (∀ (call : Call) (members : Members Json), call.operation.ChecksFirst members →
        members.Ascending → (invalidKeys members).Nonempty →
        ∃ key, IsLeast (invalidKeys members) key ∧
          ((fresh.after history).perform call).result =
            .error (.invalidProperty (.invalidKey key))) ∧
      ∀ target env parts, parts ≠ [] → SameJoined history target env parts := by
  have hu := usable_after history
  refine ⟨fun entity p hp => ?_, Json.reread_of_not_hasDouble, fun call members hmem hinvalid => ?_,
    fun call members hfirst hascending hinvalid => ?_,
    fun target env parts hne => sameJoined history target env hne⟩
  · exact ⟨follows_history hp, (follows_history hp).reread⟩
  · obtain ⟨key, hkey, hnot⟩ := hinvalid
    cases hresult : ((fresh.after history).perform call).result with
    | error e => exact ⟨⟨e, rfl⟩, perform_error hu hresult⟩
    | ok reply =>
      obtain ⟨t, hdoes, -⟩ := perform_ok hu hresult
      rw [hdoes.isKey_of_mem_maps hmem key hkey] at hnot
      cases hnot
  · cases hkeys : checkKeys members with
    | ok u =>
      obtain ⟨key, hkey, hnot⟩ := hinvalid
      rw [checkKeys_ok.mp hkeys key hkey] at hnot
      cases hnot
    | error e =>
      obtain ⟨key, hleast, rfl⟩ := checkKeys_error hascending hkeys
      refine ⟨key, hleast, ?_⟩
      rw [perform_eq hu (locked_after history), hfirst.meaning_error hkeys]
      rfl

/-- A key that is not allowed is not blamed where the type of the column isn't known, and a value
does not stay what it was given where another key is updated: it is written and read by the way. -/
theorem type_is_blamed_before_key_and_doubles_change :
    let history : List Call :=
      [⟨.numbered 1, .createOrganization "org"⟩,
        ⟨.numbered 2, .createEntry ⟨1⟩ .table none [("x", .num (.real ⟨0x3af357c299a88ea7⟩))] []⟩,
        ⟨.numbered 3, .updateProperties ⟨2⟩ [("y", .null)]⟩]
    let db := fresh.after history
    (db.perform ⟨.numbered 4, .createColumn ⟨2⟩ ⟨"a", "none", [("a b", .bool true)]⟩ none⟩).result =
        .error (.invalidType "none") ∧
      Properties.lastValue (fresh.given (.entry ⟨2⟩) [] history) "x" =
        some (.num (.real ⟨0x3af357c299a88ea7⟩)) ∧
      db.tables.properties? (.entry ⟨2⟩) = some ⟨[("x", .num (.real ⟨0x3af357c299a88ea8⟩))]⟩ := by
  decide +kernel

end Database
end TableStore
