import TableStore.Proofs.Effects

/-!
# Histories

A history is a list of calls of operations, each in its own surroundings: with any time, any limits
and any source of identifiers. `Database.after` is the database that a history leaves. What a call
does follows from the meaning of its operation (`perform_cases`): it fails and changes nothing, or
it succeeds and does what the operation does. By induction on the history every database is sound
(`sound_after`), and can be written. **Failures leave no trace**: `failed_call_changes_nothing`.
-/

namespace TableStore

/-- One call of an operation. -/
structure Call where
  surroundings : Surroundings
  operation : Operation

/-- Surroundings with the identifiers from a number on. -/
def Surroundings.numbered (start : Nat) : Surroundings :=
  ⟨.standard, .sqlite, ⟨0⟩, fun i => ⟨BitVec.ofNat 128 (start + i)⟩⟩

namespace Database

/-- Carries out a call. -/
def perform (db : Database) (call : Call) : Program.Outcome Database Reply :=
  (call.operation.program call.surroundings).run Database.serve db

/-- The database that calls leave, one after another. -/
def after (db : Database) (history : List Call) : Database :=
  history.foldl (fun db call => (db.perform call).state) db

/-- A database with sound tables that can be written. -/
structure Usable (db : Database) : Prop where
  sound : db.tables.Sound
  writable : db.readOnly = false

variable {db : Database} {call : Call} {reply : Reply} {e : CatalogError}

/-! ### One call -/

/-- A call ends as the meaning of its operation says, or is refused by a guarded column. -/
theorem perform_cases (hu : db.Usable) (call : Call) :
    (∃ reply t, call.operation.meaning call.surroundings db.tables = .ok (reply, t) ∧
        (db.perform call).result = .ok reply ∧
        (db.perform call).state = { db with tables := t }) ∨
      (∃ e, call.operation.meaning call.surroundings db.tables = .error e ∧
        (db.perform call).result = .error e ∧ (db.perform call).state = db) ∨
      (db.locked ≠ none ∧ (db.perform call).result = .error .storage ∧
        (db.perform call).state = db) := by
  rcases call.operation.meets hu.sound hu.writable call.surroundings with
    ⟨hresult, hstate⟩ | ⟨hlocked, hresult, hstate⟩
  · cases hm : call.operation.meaning call.surroundings db.tables with
    | ok x =>
      rw [hm] at hresult hstate
      exact .inl ⟨x.1, x.2, rfl, hresult, hstate⟩
    | error e =>
      rw [hm] at hresult hstate
      exact .inr (.inl ⟨e, rfl, hresult, hstate⟩)
  · exact .inr (.inr ⟨hlocked, hresult, hstate⟩)

/-- A call that fails changes nothing. -/
theorem perform_error (hu : db.Usable) (h : (db.perform call).result = .error e) :
    (db.perform call).state = db := by
  rcases perform_cases hu call with ⟨reply, t, -, hresult, -⟩ | ⟨_, -, -, hstate⟩ | ⟨-, -, hstate⟩
  · rw [hresult] at h
    cases h
  · exact hstate
  · exact hstate

/-- A call that succeeds ends as its operation means. -/
theorem meaning_of_perform (hu : db.Usable) (h : (db.perform call).result = .ok reply) :
    ∃ t, call.operation.meaning call.surroundings db.tables = .ok (reply, t) ∧
      (db.perform call).state = { db with tables := t } := by
  rcases perform_cases hu call with
    ⟨_, t, hm, hresult, hstate⟩ | ⟨_, -, hresult, -⟩ | ⟨-, hresult, -⟩
  · obtain rfl := Except.ok.inj (hresult.symm.trans h)
    exact ⟨t, hm, hstate⟩
  · rw [hresult] at h
    cases h
  · rw [hresult] at h
    cases h

/-- A call that succeeds does what its operation does. -/
theorem perform_ok (hu : db.Usable) (h : (db.perform call).result = .ok reply) :
    ∃ t, call.operation.Does call.surroundings db.tables t ∧
      (db.perform call).state = { db with tables := t } :=
  (meaning_of_perform hu h).imp fun _ h => ⟨Operation.does_of_meaning hu.sound h.1, h.2⟩

/-- Every call leaves a usable database, with the guard it had. -/
theorem Usable.perform (hu : db.Usable) (call : Call) :
    (db.perform call).state.Usable ∧ (db.perform call).state.locked = db.locked := by
  cases h : (db.perform call).result with
  | error e =>
    rw [perform_error hu h]
    exact ⟨hu, rfl⟩
  | ok reply =>
    obtain ⟨t, hdoes, hstate⟩ := perform_ok hu h
    rw [hstate]
    exact ⟨⟨hdoes.sound hu.sound, hu.writable⟩, rfl⟩

/-! ### Many calls -/

theorem after_append (db : Database) (history later : List Call) :
    db.after (history ++ later) = (db.after history).after later :=
  List.foldl_append

theorem Usable.after (hu : db.Usable) (history : List Call) :
    (db.after history).Usable ∧ (db.after history).locked = db.locked := by
  induction history generalizing db with
  | nil => exact ⟨hu, rfl⟩
  | cons call rest ih =>
    obtain ⟨hnext, hlocked⟩ := hu.perform call
    obtain ⟨hrest, hsame⟩ := ih hnext
    exact ⟨hrest, hsame.trans hlocked⟩

theorem usable_fresh : fresh.Usable :=
  ⟨Tables.sound_empty, rfl⟩

theorem usable_after (history : List Call) : (fresh.after history).Usable :=
  (usable_fresh.after history).1

theorem locked_after (history : List Call) : (fresh.after history).locked = none :=
  (usable_fresh.after history).2

/-- **Histories leave sound tables**, whatever is called and whether or not it succeeds. -/
theorem sound_after (history : List Call) : (fresh.after history).tables.Sound :=
  (usable_after history).sound

/-- Without a guard a call ends as the meaning of its operation says. -/
theorem perform_eq (hu : db.Usable) (hlocked : db.locked = none) (call : Call) :
    (db.perform call).result =
      answerOf (call.operation.meaning call.surroundings db.tables) := by
  rcases perform_cases hu call with
    ⟨reply, t, hm, hresult, -⟩ | ⟨e, hm, hresult, -⟩ | ⟨h, -, -⟩
  · rw [hm, hresult]
    rfl
  · rw [hm, hresult]
    rfl
  · exact absurd hlocked h

/-- Without a guard a call that is to succeed does, and leaves what it means to. -/
theorem perform_of_meaning (hu : db.Usable) (hlocked : db.locked = none) {t : Tables}
    (h : call.operation.meaning call.surroundings db.tables = .ok (reply, t)) :
    (db.perform call).result = .ok reply ∧ (db.perform call).state = { db with tables := t } := by
  have hresult : (db.perform call).result = .ok reply :=
    (perform_eq hu hlocked call).trans (by rw [h]; rfl)
  obtain ⟨t', hm, hstate⟩ := meaning_of_perform hu hresult
  obtain ⟨-, rfl⟩ := Prod.mk.inj (Except.ok.inj (h.symm.trans hm))
  exact ⟨hresult, hstate⟩

/-! ### Failures -/

/-- **Failed calls change nothing.** Whatever has been called before, a call that fails leaves the
database as it was, also where a guarded column stops it half-way. -/
theorem failed_call_changes_nothing (history : List Call) (guard : Option String) (call : Call)
    {e : CatalogError}
    (h : (({ fresh.after history with locked := guard } : Database).perform call).result =
      .error e) :
    (({ fresh.after history with locked := guard } : Database).perform call).state =
      { fresh.after history with locked := guard } :=
  perform_error ⟨(usable_after history).sound, (usable_after history).writable⟩ h

/-- A folder doesn't move into a folder that is in it, and a table isn't stored without its second
column, although both have been written to by then. -/
theorem refused_calls_change_nothing :
    let db : Database := { fresh.after
      [⟨.numbered 1, .createOrganization "org"⟩,
        ⟨.numbered 2, .createEntry ⟨1⟩ .folder none [] []⟩,
        ⟨.numbered 3, .createEntry ⟨1⟩ .folder (some ⟨2⟩) [] []⟩] with locked := none }
    let move : Call := ⟨.numbered 4, .moveEntry ⟨2⟩ (some ⟨3⟩)⟩
    let repeating : Surroundings :=
      { Surroundings.numbered 4 with fresh := fun i => ⟨BitVec.ofNat 128 (4 + min i 1)⟩ }
    let create : Call := ⟨repeating,
      .createEntry ⟨1⟩ .table none [] [⟨"a", "string", []⟩, ⟨"b", "string", []⟩]⟩
    (db.perform move).result = .error (.cycleDetected ⟨2⟩ ⟨3⟩) ∧ (db.perform move).state = db ∧
      (db.perform create).result = .error .storage ∧ (db.perform create).state = db :=
  ⟨rfl, failed_call_changes_nothing _ none _ rfl, rfl,
    failed_call_changes_nothing (e := .storage) _ none _ rfl⟩

end Database

end TableStore
