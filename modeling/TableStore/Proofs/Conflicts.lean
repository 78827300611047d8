import TableStore.Proofs.StorageErrors
import TableStore.Proofs.Transactions

/-!
# Conflicts on a server

A server tells of a conflict between transactions by a fault of code `40001`, in answer to any
command: when a transaction is opened, to a statement that reads or writes, or when it is committed.
`Server.firstFault?` is the first fault among the answers to some commands. A request of the store
that gets one fails with it (`Connection.serve_first_fault`), and a program passes a conflict on as
`concurrentModification` if each of its requests explains it so (`Program.TellsConflicts`), which
all operations do (`Operation.tellsConflicts`).

The `ROLLBACK` by which a connection gives up what has failed already is not a statement of the
operation, and nothing depends on how it is answered.
-/

namespace TableStore

variable {α β ε : Type} {server : Server} {sent statements : List Command} {f : DatabaseFault}

/-! ### The first fault -/

/-- The first fault that a server answers to commands that are sent one after the other, after those
that it has been sent already. -/
def Server.firstFault? (server : Server) : List Command → List Command → Option DatabaseFault
  | _, [] => none
  | sent, x :: rest =>
    match server.answer sent x with
    | .error f => some f
    | .ok _ => server.firstFault? (x :: sent) rest

theorem Server.firstFault?_cons_ok {x : Command} {rest : List Command} {rows : List ResultRow}
    (h : server.answer sent x = .ok rows) :
    server.firstFault? sent (x :: rest) = server.firstFault? (x :: sent) rest := by
  rw [firstFault?, h]

theorem Server.firstFault?_cons_error {x : Command} {rest : List Command}
    (h : server.answer sent x = .error f) : server.firstFault? sent (x :: rest) = some f := by
  rw [firstFault?, h]

theorem Server.firstFault?_append (first second : List Command) :
    server.firstFault? sent (first ++ second) =
      (server.firstFault? sent first).or (server.firstFault? (first.reverse ++ sent) second) := by
  induction first generalizing sent with
  | nil => rfl
  | cons x first ih =>
    cases hx : server.answer sent x with
    | error f => simp [firstFault?_cons_error hx]
    | ok rows => simp [firstFault?_cons_ok hx, ih]

/-- A fault in the course of a batch is how the batch fails. -/
theorem Batch.Dialogue.first_fault {batch : Batch α} {body : List Command} {r : Except StoreError α}
    (h : Dialogue server sent batch body r) (hf : server.firstFault? sent body = some f) :
    r = .error (.ofServerFault f) := by
  induction h with
  | done | fail => cases hf
  | fault hanswer =>
    rw [Server.firstFault?_cons_error hanswer] at hf
    rw [Option.some_inj.mp hf]
  | unreadable hanswer _ =>
    rw [Server.firstFault?_cons_ok hanswer] at hf
    cases hf
  | answered hanswer _ _ ih =>
    rw [Server.firstFault?_cons_ok hanswer] at hf
    exact ih hf

namespace Connection

/-! ### What is sent -/

/-- What has been sent between two states of a connection: some statements and, only after a
failure, the `ROLLBACK` that gives the transaction up. -/
structure Sends (c after : Connection) (failed : Prop) (statements : List Command) : Prop where
  server : after.server = c.server
  rollback_notMem : .rollback ∉ statements
  sent : ∃ closing, (closing = [] ∨ failed ∧ closing = [.rollback]) ∧
    after.sent = (statements ++ closing).reverse ++ c.sent

/-- Which statements have been sent is known from the connection. -/
theorem Sends.unique {c after : Connection} {failed : Prop} {statements' : List Command}
    (h : Sends c after failed statements) (h' : Sends c after failed statements') :
    statements = statements' := by
  obtain ⟨closing, hclosing, hafter⟩ := h.sent
  obtain ⟨closing', hclosing', hafter'⟩ := h'.sent
  have hall : statements ++ closing = statements' ++ closing' :=
    List.reverse_inj.mp (List.append_cancel_right (hafter.symm.trans hafter'))
  -- neither of them ends with a rollback
  rcases hclosing with rfl | ⟨-, rfl⟩ <;> rcases hclosing' with rfl | ⟨-, rfl⟩
  · simpa using hall
  · rw [List.append_nil] at hall
    exact absurd (hall ▸ List.mem_append_right _ (List.mem_singleton_self _)) h.rollback_notMem
  · rw [List.append_nil] at hall
    exact absurd (hall ▸ List.mem_append_right _ (List.mem_singleton_self _)) h'.rollback_notMem
  · exact List.append_cancel_right hall

/-- What does not fail has sent its statements, and nothing else. -/
theorem Sends.eq_of_not_failed {c after : Connection} {failed : Prop}
    (h : Sends c after failed statements) (hok : ¬ failed) :
    after = { c with sent := statements.reverse ++ c.sent } := by
  obtain ⟨closing, hclosing, hafter⟩ := h.sent
  obtain rfl : closing = [] := hclosing.resolve_right fun hfailed => hok hfailed.1
  rw [List.append_nil] at hafter
  exact congrArg₂ Connection.mk h.server hafter

theorem Sends.imp {c after : Connection} {failed failed' : Prop}
    (h : Sends c after failed statements) (hfailed : failed → failed') :
    Sends c after failed' statements where
  server := h.server
  rollback_notMem := h.rollback_notMem
  sent := by
    obtain ⟨closing, hclosing, hafter⟩ := h.sent
    exact ⟨closing, hclosing.imp_right (And.imp_left hfailed), hafter⟩

/-- What is sent after some statements is sent with them. -/
theorem Sends.append {c after : Connection} {failed : Prop} {later : List Command}
    (h : Sends { c with sent := statements.reverse ++ c.sent } after failed later)
    (hrollback : .rollback ∉ statements) : Sends c after failed (statements ++ later) where
  server := h.server
  rollback_notMem := by simpa using ⟨hrollback, h.rollback_notMem⟩
  sent := by
    obtain ⟨closing, hclosing, hafter⟩ := h.sent
    exact ⟨closing, hclosing, by rw [hafter]; simp⟩

/-- Whether a result is a failure. -/
def Failed (r : Except ε α) : Prop :=
  ∃ e, r = .error e

theorem not_failed_ok (a : α) : ¬ Failed (.ok a : Except ε α) := nofun

/-! ### Requests of the store -/

theorem rollback_notMem_body {batch : Batch α} {body : List Command} {r : Except StoreError α}
    (h : Batch.Dialogue server sent batch body r) : .rollback ∉ body :=
  fun hmem => h.not_isControl _ hmem (by simp [Command.IsControl])

/-- A transaction that opens has had no fault until then. -/
theorem Opens.firstFault?_cons (h : Opens server sent) (rest : List Command) :
    server.firstFault? sent (.begin :: .serializable :: rest) =
      server.firstFault? (.serializable :: .begin :: sent) rest := by
  obtain ⟨⟨_, hbegin⟩, ⟨_, hserializable⟩⟩ := h
  rw [Server.firstFault?_cons_ok hbegin, Server.firstFault?_cons_ok hserializable]

theorem rollback_notMem_opening {batch : Batch α} {body : List Command} {r : Except StoreError α}
    (h : Batch.Dialogue server sent batch body r) :
    .rollback ∉ .begin :: .serializable :: body := by
  simp only [List.mem_cons, not_or]
  exact ⟨by decide, by decide, rollback_notMem_body h⟩

/-- Where all statements have been answered without a fault, the first one is that of the commit. -/
theorem Opens.fault_of_commit {batch : Batch α} {body : List Command} {a : α}
    (hopens : Opens server sent)
    (h : Batch.Dialogue server (.serializable :: .begin :: sent) batch body (.ok a))
    (hf : server.firstFault? sent (.begin :: .serializable :: body ++ [.commit]) = some f) :
    server.answer ((.begin :: .serializable :: body).reverse ++ sent) .commit = .error f := by
  have hbody : server.firstFault? sent (.begin :: .serializable :: body) = none := by
    rw [hopens.firstFault?_cons]
    exact Option.eq_none_iff_forall_ne_some.mpr fun g hg => by cases h.first_fault hg
  rw [Server.firstFault?_append, hbody, Option.none_or] at hf
  cases hcommit : server.answer ((.begin :: .serializable :: body).reverse ++ sent) .commit with
  | error g =>
    rw [Server.firstFault?_cons_error hcommit] at hf
    rw [Option.some_inj.mp hf]
  | ok rows =>
    rw [Server.firstFault?_cons_ok hcommit] at hf
    cases hf

/-- The statements of a transaction, what closes it, and how it fails if one of the statements is
answered with a fault. -/
theorem Course.first_fault {batch : Batch α} {trace : List Command} {r : Except StoreError α}
    (h : Course server sent batch trace r) :
    ∃ statements closing, trace = statements ++ closing ∧ .rollback ∉ statements ∧
      (closing = [] ∨ Failed r ∧ closing = [.rollback]) ∧
      ∀ f, server.firstFault? sent statements = some f → r = .error (.ofServerFault f) := by
  cases h with
  | refused h =>
    refine ⟨[.begin], [], rfl, by decide, .inl rfl, fun g hg => ?_⟩
    rw [Server.firstFault?_cons_error h] at hg
    rw [Option.some_inj.mp hg]
  | notSerializable hbegin h =>
    refine ⟨[.begin, .serializable], [.rollback], rfl, by decide, .inr ⟨⟨_, rfl⟩, rfl⟩,
      fun g hg => ?_⟩
    rw [Server.firstFault?_cons_ok hbegin.choose_spec, Server.firstFault?_cons_error h] at hg
    rw [Option.some_inj.mp hg]
  | @failed body e hopens h =>
    refine ⟨.begin :: .serializable :: body, [.rollback], rfl, rollback_notMem_opening h,
      .inr ⟨⟨_, rfl⟩, rfl⟩, fun g hg => ?_⟩
    rw [hopens.firstFault?_cons] at hg
    exact h.first_fault hg
  | @notCommitted body a f hopens h hcommit =>
    refine ⟨.begin :: .serializable :: body ++ [.commit], [.rollback], by simp, ?_,
      .inr ⟨⟨_, rfl⟩, rfl⟩, fun g hg => ?_⟩
    · exact fun hmem => (List.mem_append.mp hmem).elim (rollback_notMem_opening h) (by decide)
    · rw [hopens.fault_of_commit h hg] at hcommit
      rw [Except.error.inj hcommit]
  | @committed body a hopens h hcommit =>
    refine ⟨.begin :: .serializable :: body ++ [.commit], [], by simp, ?_, .inl rfl,
      fun g hg => ?_⟩
    · exact fun hmem => (List.mem_append.mp hmem).elim (rollback_notMem_opening h) (by decide)
    · rw [hopens.fault_of_commit h hg] at hcommit
      cases hcommit.choose_spec

/-- **A fault of the server is how a request fails**, with the first one if there are several. -/
theorem serve_first_fault (r : Request α) (c : Connection) :
    ∃ statements, Sends c (c.serve r).2 (Failed (c.serve r).1) statements ∧
      ∀ f, c.server.firstFault? c.sent statements = some f →
        (c.serve r).1 = .error (.ofServerFault f) := by
  rw [serve]
  split
  · obtain ⟨trace, hcourse, hafter⟩ := transact_course r.batch c
    obtain ⟨statements, closing, rfl, hrollback, hclosing, hfault⟩ := hcourse.first_fault
    rw [hafter]
    exact ⟨statements, ⟨rfl, hrollback, closing, hclosing, rfl⟩, hfault⟩
  · obtain ⟨body, hbody, hafter⟩ := run_dialogue r.batch c
    rw [hafter]
    exact ⟨body, ⟨rfl, rollback_notMem_body hbody, [], .inl rfl, by simp⟩,
      fun f hf => hbody.first_fault hf⟩

end Connection

/-! ### Programs -/

namespace Program

/-- Every request of a program explains a conflict as a concurrent modification, whatever has been
answered before. -/
def TellsConflicts {α : Type} : Program α → Prop
  | .done _ | .fail _ => True
  | .log _ next => next.TellsConflicts
  | .call _ explain next =>
    (∀ f, explain (.serializationFailure f) = .concurrentModification f) ∧
      ∀ answer, (next answer).TellsConflicts

theorem TellsConflicts.bind {p : Program α} {g : α → Program β} (hp : p.TellsConflicts)
    (hg : ∀ a, (g a).TellsConflicts) : (p >>= g).TellsConflicts := by
  show (p.bind g).TellsConflicts
  induction p with
  | done a => exact hg a
  | fail e => trivial
  | log line next ih => exact ih hp
  | call r explain next ih => exact ⟨hp.1, fun answer => ih answer (hp.2 answer)⟩

theorem TellsConflicts.mapError {p : Program α} {g : CatalogError → CatalogError}
    (hp : p.TellsConflicts)
    (hg : ∀ f, g (.concurrentModification f) = .concurrentModification f) :
    (p.mapError g).TellsConflicts := by
  induction p with
  | done a => trivial
  | fail e => trivial
  | log line next ih => exact ih hp
  | call r explain next ih =>
    exact ⟨fun f => (congrArg g (hp.1 f)).trans (hg f), fun answer => ih answer (hp.2 answer)⟩

theorem tellsConflicts_request {r : Request α} {explain : StoreError → CatalogError}
    (h : ∀ f, explain (.serializationFailure f) = .concurrentModification f) :
    (request r explain).TellsConflicts :=
  ⟨h, fun _ => trivial⟩

theorem tellsConflicts_ofExcept (explain : ε → CatalogError) (r : Except ε α) :
    (ofExcept explain r).TellsConflicts := by
  cases r <;> trivial

theorem tellsConflicts_note (level : LogLevel) (message : String) :
    (note level message).TellsConflicts :=
  trivial

/-- What is told of a conflict is told of a run: if the first fault of the server is a conflict, so
is the failure of the program. -/
theorem TellsConflicts.run {p : Program α} (hp : p.TellsConflicts) (c : Connection) :
    ∃ statements,
      Connection.Sends c (p.run Connection.serve c).state
        (Connection.Failed (p.run Connection.serve c).result) statements ∧
      ∀ f, c.server.firstFault? c.sent statements = some f → f.code = some "40001" →
        (p.run Connection.serve c).result = .error (.concurrentModification f) := by
  induction p generalizing c with
  | done a => exact ⟨[], ⟨rfl, List.not_mem_nil, [], .inl rfl, rfl⟩, nofun⟩
  | fail e => exact ⟨[], ⟨rfl, List.not_mem_nil, [], .inl rfl, rfl⟩, nofun⟩
  | log line next ih => exact ih hp c
  | call r explain next ih =>
    obtain ⟨statements, hsends, hfault⟩ := Connection.serve_first_fault r c
    rw [Program.run]
    cases hserve : c.serve r with
    | mk answer after =>
      rw [hserve] at hsends hfault
      cases answer with
      | error e =>
        refine ⟨statements, hsends.imp fun _ => ⟨_, rfl⟩, fun f hf hcode => ?_⟩
        obtain rfl := Except.error.inj (hfault f hf)
        have hconflict : StoreError.ofServerFault f = .serializationFailure f := by
          simp [StoreError.ofServerFault, hcode]
        exact congrArg Except.error ((congrArg explain hconflict).trans (hp.1 f))
      | ok a =>
        -- no fault so far: the conflict, if there is one, comes later
        obtain rfl := hsends.eq_of_not_failed (Connection.not_failed_ok a)
        obtain ⟨later, hlater, hrest⟩ :=
          ih a (hp.2 a) { c with sent := statements.reverse ++ c.sent }
        refine ⟨statements ++ later, hlater.append hsends.rollback_notMem, fun f hf hcode => ?_⟩
        have hnone : c.server.firstFault? c.sent statements = none :=
          Option.eq_none_iff_forall_ne_some.mpr fun g hg => by cases hfault g hg
        rw [Server.firstFault?_append, hnone, Option.none_or] at hf
        exact hrest f hf hcode

end Program

/-! ### Operations -/

open Program

/-- A request whose answer is read afterwards. -/
theorem tellsConflicts_reading {r : Request α} {explain : StoreError → CatalogError}
    {read : α → Except CatalogError β}
    (h : ∀ f, explain (.serializationFailure f) = .concurrentModification f) :
    (Program.request r explain >>= fun a => ofExcept id (read a)).TellsConflicts :=
  (tellsConflicts_request h).bind fun _ => tellsConflicts_ofExcept _ _

namespace Stored

theorem tellsConflicts_getOrganization (id : Uuid) : (getOrganization id).TellsConflicts :=
  tellsConflicts_request fun _ => rfl

theorem tellsConflicts_getEntry (id : Uuid) : (getEntry id).TellsConflicts :=
  tellsConflicts_reading fun _ => rfl

theorem tellsConflicts_listColumns (table : Uuid) : (listColumns table).TellsConflicts :=
  tellsConflicts_reading fun _ => rfl

end Stored

namespace Catalog

open Stored (tellsConflicts_getOrganization tellsConflicts_getEntry)

theorem tellsConflicts_check (r : Except CatalogError α) : (check r).TellsConflicts :=
  tellsConflicts_ofExcept id r

theorem tellsConflicts_getFolder (id : Uuid) : (getFolder id).TellsConflicts := by
  refine (tellsConflicts_getEntry id).bind fun folder => ?_
  split <;> trivial

theorem tellsConflicts_climb (start : Uuid) (steps : Nat) (visited : List Uuid) (next : Option Uuid)
    (path : List PathElement) : (climb start steps visited next path).TellsConflicts := by
  induction steps generalizing visited next path with
  | zero => cases next <;> trivial
  | succ steps ih =>
    cases next with
    | none => trivial
    | some parent =>
      rw [climb]
      split
      · trivial
      · exact (tellsConflicts_getEntry parent).bind fun folder => ih _ _ _

theorem tellsConflicts_pathOf (entry : Entry) : (pathOf entry).TellsConflicts :=
  tellsConflicts_climb _ _ _ _ _

theorem tellsConflicts_withColumns (entry : Entry) : (withColumns entry).TellsConflicts := by
  rw [withColumns]
  split
  · trivial
  · exact (Stored.tellsConflicts_listColumns entry.id).bind fun _ => trivial

theorem tellsConflicts_createEntry (env : Surroundings) (organization : Uuid) (type : EntryType)
    (parent : Option Uuid) (properties : Members Json) (columns : List ColumnDefinition) :
    (createEntry env organization type parent properties columns).TellsConflicts := by
  refine (tellsConflicts_check _).bind fun properties =>
    (tellsConflicts_check _).bind fun columns =>
      (tellsConflicts_getOrganization organization).bind fun _ => ?_
  extract_lets created
  -- with a parent or without one, the program ends in the same way
  have hcreated : ∀ u, (created u).TellsConflicts := fun u => by
    refine (tellsConflicts_reading fun _ => rfl).bind fun entry =>
      (tellsConflicts_note _ _).bind fun _ => ?_
    cases type with
    | folder => trivial
    | table => exact (Stored.tellsConflicts_listColumns entry.id).bind fun _ => trivial
  cases parent with
  | none => exact hcreated ()
  | some id =>
    refine (tellsConflicts_getFolder id).bind fun folder => ?_
    split
    · trivial
    · exact hcreated ()

theorem tellsConflicts_getEntry (id : Uuid) (path : Bool) : (getEntry id path).TellsConflicts := by
  refine (Stored.tellsConflicts_getEntry id).bind fun entry =>
    (tellsConflicts_withColumns entry).bind fun entry => ?_
  split
  · exact (tellsConflicts_pathOf entry).bind fun _ => trivial
  · trivial

theorem tellsConflicts_listChildren (env : Surroundings) (parent : Parent) (sort : List String)
    (offset : Nat) (limit : Option Nat) (path : Bool) :
    (listChildren env parent sort offset limit path).TellsConflicts := by
  refine (tellsConflicts_ofExcept _ _).bind fun keys => (tellsConflicts_check _).bind fun limit =>
    (tellsConflicts_check _).bind fun offset => ?_
  have hpage : ∀ organization folder (above : List PathElement),
      (Stored.listChildren organization folder keys offset limit >>= fun page =>
        pure (ChildrenPage.mk
          (if path then page.1.map fun e => { e with path := some above } else page.1)
          page.2)).TellsConflicts :=
    fun _ _ _ => ((tellsConflicts_request fun _ => rfl).bind fun ⟨_, _⟩ =>
      (tellsConflicts_ofExcept _ _).bind fun _ => trivial).bind fun _ => trivial
  cases parent with
  | root organization =>
    exact (tellsConflicts_getOrganization organization).bind fun _ => hpage organization none []
  | folder id =>
    refine (tellsConflicts_getFolder id).bind fun folder => ?_
    cases path with
    | false => exact hpage folder.organizationId (some id) []
    | true => exact (tellsConflicts_pathOf folder).bind fun _ => hpage folder.organizationId _ _

theorem tellsConflicts_validateMove (entry : Entry) (destination : Option Uuid) :
    (validateMove entry destination).TellsConflicts := by
  rw [validateMove.eq_def]
  split
  · trivial
  · next destination =>
    dsimp only
    split
    · trivial
    · refine (tellsConflicts_getFolder destination).bind fun folder => ?_
      split
      · trivial
      · refine (tellsConflicts_pathOf folder).bind fun path => ?_
        split <;> trivial

theorem tellsConflicts_requireTable (id : Uuid) : (requireTable id).TellsConflicts := by
  refine ((Stored.tellsConflicts_getEntry id).mapError fun _ => rfl).bind fun entry => ?_
  split <;> trivial

theorem tellsConflicts_tableColumn (table column : Uuid) :
    (tableColumn table column).TellsConflicts := by
  refine Program.TellsConflicts.bind (tellsConflicts_reading fun _ => rfl) fun c => ?_
  split <;> trivial

theorem tellsConflicts_executeQuery (env : Surroundings) (table : Uuid) (query : Json) :
    (executeQuery env table query).TellsConflicts := by
  refine (tellsConflicts_ofExcept _ _).bind fun query =>
    (tellsConflicts_requireTable table).bind fun _ =>
      (Stored.tellsConflicts_listColumns table).bind fun columns =>
        (tellsConflicts_ofExcept _ _).bind fun plan =>
          (tellsConflicts_note _ _).bind fun _ => ?_
  cases plan with
  | insert plan =>
    exact (tellsConflicts_request fun _ => rfl).bind fun count =>
      (tellsConflicts_note _ _).bind fun _ => trivial
  | select plan => exact (tellsConflicts_request fun _ => rfl).bind fun _ => trivial

end Catalog

open Catalog in
/-- All operations tell of conflicts. -/
theorem Operation.tellsConflicts (env : Surroundings) (op : Operation) :
    (op.program env).TellsConflicts := by
  cases op with
  | createOrganization | getOrganization | listOrganizations | renameOrganization =>
    exact (tellsConflicts_request fun _ => rfl).bind fun _ => trivial
  | deleteOrganization => exact (tellsConflicts_request fun _ => rfl).bind fun _ => trivial
  | createEntry => exact (Catalog.tellsConflicts_createEntry _ _ _ _ _ _).bind fun _ => trivial
  | getEntry => exact (Catalog.tellsConflicts_getEntry _ _).bind fun _ => trivial
  | computePath =>
    exact ((Stored.tellsConflicts_getEntry _).bind tellsConflicts_pathOf).bind fun _ => trivial
  | listChildren => exact (tellsConflicts_listChildren _ _ _ _ _ _).bind fun _ => trivial
  | validateMove =>
    exact (Stored.tellsConflicts_getEntry _).bind fun entry =>
      (tellsConflicts_validateMove entry _).bind fun _ => trivial
  | moveEntry =>
    exact ((tellsConflicts_reading fun _ => rfl).bind fun _ => (tellsConflicts_note _ _).bind
      fun _ => Catalog.tellsConflicts_getEntry _ _).bind fun _ => trivial
  | updateProperties =>
    exact ((tellsConflicts_check _).bind fun _ => (tellsConflicts_reading fun _ => rfl).bind
      fun _ => Catalog.tellsConflicts_getEntry _ _).bind fun _ => trivial
  | deleteEntry =>
    exact ((tellsConflicts_request fun _ => rfl).bind fun _ => tellsConflicts_note _ _).bind
      fun _ => trivial
  | listColumns =>
    exact ((tellsConflicts_requireTable _).bind fun _ =>
      Stored.tellsConflicts_listColumns _).bind fun _ => trivial
  | createColumn =>
    refine TellsConflicts.bind ((tellsConflicts_check _).bind fun _ =>
      (tellsConflicts_check _).bind fun _ => (tellsConflicts_requireTable _).bind fun _ =>
        (tellsConflicts_reading fun _ => rfl).bind fun _ => ?_) fun _ => trivial
    exact (tellsConflicts_note _ _).bind fun _ => trivial
  | updateColumn =>
    exact ((tellsConflicts_check _).bind fun _ => (tellsConflicts_requireTable _).bind fun _ =>
      (tellsConflicts_tableColumn _ _).bind fun _ => tellsConflicts_reading fun _ => rfl).bind
        fun _ => trivial
  | deleteColumn =>
    exact ((tellsConflicts_requireTable _).bind fun _ => (tellsConflicts_tableColumn _ _).bind
      fun _ => (tellsConflicts_request fun _ => rfl).bind fun _ => tellsConflicts_note _ _).bind
        fun _ => trivial
  | reorderColumns =>
    exact ((tellsConflicts_requireTable _).bind fun _ => tellsConflicts_reading fun _ => rfl).bind
      fun _ => trivial
  | query =>
    refine (tellsConflicts_executeQuery _ _ _).bind fun result => ?_
    cases result <;> trivial

/-! ### Answers of the service -/

namespace Http

variable {σ : Type} {exec : {β : Type} → TableStore.Request β → σ → Except StoreError β × σ}
  {st : σ} {env : Surroundings} {op : Operation} {e : CatalogError}

/-- What a service adds to an operation comes after the operation has succeeded. -/
theorem program_of_error (h : ((op.program env).run exec st).result = .error e) :
    ((program env op).run exec st).result = .error e := by
  change (((op.program env).bind _).run exec st).result = .error e
  rw [Program.run_bind]
  dsimp only
  rw [h]

/-- A request that is let through is answered with the status of the failure of its operation. -/
theorem status_of_error {policy : OriginPolicy} {r : Request}
    (hop : Endpoint.operationOf r = .ok op) (hadmits : policy.Admits r)
    (h : ((op.program env).run exec st).result = .error e) :
    (answer exec policy env r st).response.status = statusOf e.kind := by
  have hperform : (perform exec env r st).response.status = statusOf e.kind := by
    delta perform
    simp only [hop, program_of_error h, failure]
  rw [OriginPolicy.Admits] at hadmits
  rw [answer]
  cases hjudge : policy.judge r with
  | plain => simpa using hperform
  | allowed origin => simpa [hop] using hperform
  | preflight origin => rw [hjudge] at hadmits; exact hadmits.elim
  | forbidden => rw [hjudge] at hadmits; exact hadmits.elim

end Http

namespace Connection

/-- **Conflicts on a server are told as conflicts**, by every operation and whatever the server
answers. Take the first fault among the answers to the statements of the operation: those that open
its transactions, read and write, and commit. If it has the code `40001` the operation fails with
`concurrentModification`, which is an error of kind `conflict`, and a request that asks for the
operation is answered with status 400. -/
theorem serialization_failures_are_conflicts (env : Surroundings) (op : Operation)
    (c : Connection) :
    let outcome := (op.program env).run serve c
    (∃ statements, Sends c outcome.state (Failed outcome.result) statements) ∧
      ∀ statements, Sends c outcome.state (Failed outcome.result) statements →
        ∀ f, c.server.firstFault? c.sent statements = some f → f.code = some "40001" →
          (∃ e, outcome.result = .error e ∧ e = .concurrentModification f ∧ e.kind = .conflict) ∧
          ∀ (policy : Http.OriginPolicy) (request : Http.Request),
            Http.Endpoint.operationOf request = .ok op → policy.Admits request →
              (Http.answer serve policy env request c).response.status = 400 := by
  intro outcome
  obtain ⟨statements, hsends, hconflict⟩ := (op.tellsConflicts env).run c
  refine ⟨⟨statements, hsends⟩, fun statements' hsends' f hf hcode => ?_⟩
  obtain rfl := hsends'.unique hsends
  have herror : outcome.result = .error (.concurrentModification f) := hconflict f hf hcode
  exact ⟨⟨_, herror, rfl, rfl⟩, fun policy request hop hadmits =>
    Http.status_of_error hop hadmits herror⟩

/-- A folder is made on a server that has an answer for everything but the commit. -/
theorem serialization_failures_are_conflicts_commit :
    let fault : DatabaseFault := ⟨some "40001", "could not serialize access"⟩
    let row : ResultRow :=
      ⟨[("id", .uuid ⟨2⟩), ("organization_id", .uuid ⟨1⟩), ("name", .text "org"),
        ("type", .text "folder"), ("parent_folder_id", .null), ("properties", .document (.obj [])),
        ("created_at", .time default), ("updated_at", .time default)]⟩
    let server : Server := ⟨fun sent _ => if sent.length = 5 then .error fault else .ok [row]⟩
    let env : Surroundings := .numbered 2
    let op : Operation := .createEntry ⟨1⟩ .folder none [] []
    let outcome := (op.program env).run serve ⟨server, []⟩
    let statements : List Command :=
      [(Statement.getOrganization ⟨1⟩).command, .begin, .serializable,
        (Statement.insertEntry ⟨⟨2⟩, ⟨1⟩, "folder", none, .empty, env.now, env.now⟩).command,
        (Statement.markFolder ⟨2⟩).command, .commit]
    Sends ⟨server, []⟩ outcome.state (Failed outcome.result) statements ∧
      server.firstFault? [] statements = some fault ∧ fault.code = some "40001" ∧
      outcome.result = .error (.concurrentModification fault) := by
  intro fault row server env op outcome statements
  obtain ⟨⟨_, hsent⟩, htold⟩ := serialization_failures_are_conflicts env op ⟨server, []⟩
  have hsends : Sends ⟨server, []⟩ outcome.state (Failed outcome.result) statements :=
    ⟨hsent.server, by decide +kernel, [.rollback],
      .inr ⟨⟨.concurrentModification fault, by decide +kernel⟩, rfl⟩, by decide +kernel⟩
  have hfirst : server.firstFault? [] statements = some fault := by decide
  obtain ⟨⟨_, hresult, rfl, -⟩, -⟩ := htold statements hsends fault hfirst rfl
  exact ⟨hsends, hfirst, rfl, hresult⟩

end Connection
end TableStore
