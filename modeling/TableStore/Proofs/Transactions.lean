import Mathlib.Data.List.Basic
import TableStore.Store.Connection

/-!
# Transactions on a server

What a connection sends for an operation that takes several statements, whatever the server answers:
rows, none, rows that can't be read, or a fault, at any point. `Batch.Dialogue` is how the
statements of a batch are answered one after another, and `Connection.Course` lists the five ways
that a transaction can go; every transaction goes one of them (`Connection.transact_course`).

**Transactions are disciplined**: `Connection.transaction_disciplined` reads off what all ways have
in common. What is not committed ends with `ROLLBACK`, also where the commit itself has failed, and
this is the only command that is ever sent after `COMMIT`.
-/

namespace TableStore

/-! ### Operations that are transactions -/

/-- The operations of the store that change something by several statements. -/
inductive Transaction : Type → Type where
  | createEntry (organization : Uuid) (type : EntryType) (parent : Option Uuid)
      (properties : Properties) (columns : List NewColumn) (now : Timestamp) (fresh : Nat → Uuid) :
      Transaction EntryRow
  | updateEntryProperties (id : Uuid) (update : PropertiesUpdate) (now : Timestamp) :
      Transaction EntryRow
  | moveEntry (id : Uuid) (destination : Option Uuid) (now : Timestamp) : Transaction EntryRow
  | createColumn (table : Uuid) (column : NewColumn) (index : Option Nat) (now : Timestamp)
      (id : Uuid) : Transaction ColumnRow
  | updateColumn (id : Uuid) (update : ColumnUpdate) (now : Timestamp) : Transaction ColumnRow
  | deleteColumn (id : Uuid) : Transaction Unit
  | reorderColumns (table : Uuid) (columns : List Uuid) : Transaction (List ColumnRow)
  | insertRecords (plan : Query.InsertPlan) : Transaction Nat

variable {α : Type}

/-- The request of an operation. -/
def Transaction.request : Transaction α → Request α
  | .createEntry organization type parent properties columns now fresh =>
    Request.createEntry organization type parent properties columns now fresh
  | .updateEntryProperties id update now => Request.updateEntryProperties id update now
  | .moveEntry id destination now => Request.moveEntry id destination now
  | .createColumn table column index now id => Request.createColumn table column index now id
  | .updateColumn id update now => Request.updateColumn id update now
  | .deleteColumn id => Request.deleteColumn id
  | .reorderColumns table columns => Request.reorderColumns table columns
  | .insertRecords plan => Request.insertRecords plan

theorem Transaction.atomic_request (op : Transaction α) : op.request.atomic = true := by
  cases op <;> rfl

/-! ### Texts of statements -/

/-- The command begins or ends a transaction. -/
def Command.IsControl (c : Command) : Prop :=
  c.text ∈ [begin.text, serializable.text, commit.text, rollback.text]

/-- How texts of statements begin: inserting, selecting, updating, deleting. -/
def Statement.verbs : List (List Char) :=
  [['I', 'N', 'S'], ['S', 'E', 'L'], ['U', 'P', 'D'], ['D', 'E', 'L']]

/-- A text begins as those of statements do. -/
def IsStatementText (text : String) : Prop :=
  text.toList.take 3 ∈ Statement.verbs

theorem isStatementText_ofList (cs : List Char) (h : cs.take 3 ∈ Statement.verbs) :
    IsStatementText (String.ofList cs) := by
  rwa [IsStatementText, String.toList_ofList]

theorem IsStatementText.append {a b : String} (h : IsStatementText a) :
    IsStatementText (a ++ b) := by
  have hverbs : ∀ verb ∈ Statement.verbs, verb.length = 3 := by decide
  have hlength := hverbs _ h
  rw [List.length_take] at hlength
  rwa [IsStatementText, String.toList_append, List.take_append_of_le_length (by omega)]

/-- Every statement begins as statements do, whatever it is filled in with. -/
theorem Statement.isStatementText : (s : Statement α) → IsStatementText s.command.text
  | .deleteOrganization _ | .markFolder _ | .markTable _ | .getEntryProperties _ | .getPlacement _
  | .getParent _ | .deleteEntry _ | .columnOrder _ | .negateIndices _ | .setIndex _ _
  | .setColumn _ _ _ _ _ | .deleteColumn _ => isStatementText_ofList _ (by decide)
  | .renameOrganization _ _ _ | .touchEntry _ _ | .setParent _ _ | .countChildren _ none
  | .countChildren _ (some _) | .insertRecords _ => (isStatementText_ofList _ (by decide)).append
  | .getOrganization _ | .listOrganizations | .getEntry _ | .setEntryProperties _ _ _
  | .getColumn _ | .listColumns _ | .insertColumn _ =>
    (isStatementText_ofList _ (by decide)).append.append
  | .insertOrganization _ | .insertEntry _ =>
    (isStatementText_ofList _ (by decide)).append.append.append
  | .selectRecords _ =>
    (isStatementText_ofList _ (by decide)).append.append.append.append.append.append.append
  | .listChildren _ none _ _ _ | .listChildren _ (some _) _ _ _ =>
    (isStatementText_ofList _ (by decide)).append.append.append.append.append.append.append.append
      |>.append

theorem Command.IsControl.not_isStatementText {c : Command} (h : c.IsControl) :
    ¬ IsStatementText c.text := by
  simp only [IsControl, List.mem_cons, List.not_mem_nil, or_false] at h
  rcases h with h | h | h | h <;> rw [h] <;> simp [IsStatementText, Statement.verbs, begin,
    serializable, commit, rollback]

/-- No statement begins or ends a transaction. -/
theorem Statement.not_isControl (s : Statement α) : ¬ s.command.IsControl :=
  fun h => h.not_isStatementText s.isStatementText

/-! ### Dialogues -/

variable {server : Server} {sent : List Command}

/-- How a server carries out a batch: the commands that are sent to it, in their order, and the
result. It has been sent other commands before, the last one first. -/
inductive Batch.Dialogue (server : Server) :
    List Command → Batch α → List Command → Except StoreError α → Prop where
  | done {sent : List Command} (a : α) : Dialogue server sent (.done a) [] (.ok a)
  /-- A check refuses. -/
  | fail {sent : List Command} (e : StoreError) : Dialogue server sent (.fail e) [] (.error e)
  /-- A statement is answered with a fault. -/
  | fault {sent : List Command} {β : Type} {s : Statement β} {next : β → Batch α}
      {f : DatabaseFault} (h : server.answer sent s.command = .error f) :
      Dialogue server sent (.send s next) [s.command] (.error (.ofServerFault f))
  /-- A statement is answered with rows that can't be read. -/
  | unreadable {sent : List Command} {β : Type} {s : Statement β} {next : β → Batch α}
      {rows : List ResultRow} {e : StoreError} (h : server.answer sent s.command = .ok rows)
      (hread : s.read rows = .error e) :
      Dialogue server sent (.send s next) [s.command] (.error e)
  /-- A statement is answered with rows that are read, and the batch goes on from there. -/
  | answered {sent : List Command} {β : Type} {s : Statement β} {next : β → Batch α}
      {rows : List ResultRow} {b : β} {body : List Command} {r : Except StoreError α}
      (h : server.answer sent s.command = .ok rows) (hread : s.read rows = .ok b)
      (rest : Dialogue server (s.command :: sent) (next b) body r) :
      Dialogue server sent (.send s next) (s.command :: body) r

namespace Batch.Dialogue

variable {batch : Batch α} {body : List Command} {r : Except StoreError α}

/-- Nothing that is sent for a batch begins or ends a transaction. -/
theorem not_isControl (h : Dialogue server sent batch body r) : ∀ x ∈ body, ¬ x.IsControl := by
  induction h with
  | done | fail => simp
  | fault | unreadable =>
    intro x hx
    obtain rfl := List.mem_singleton.mp hx
    exact Statement.not_isControl _
  | answered _ _ _ ih =>
    intro x hx
    rcases List.mem_cons.mp hx with rfl | hx
    · exact Statement.not_isControl _
    · exact ih x hx

/-- Where a batch comes to its end, everything has been answered without a fault. -/
theorem exists_rows {a : α} (h : Dialogue server sent batch body (.ok a))
    {before after : List Command} {x : Command} (hbody : body = before ++ x :: after) :
    ∃ rows, server.answer (before.reverse ++ sent) x = .ok rows := by
  generalize hr : (Except.ok a : Except StoreError α) = r at h
  induction h generalizing before with
  | done => simp at hbody
  | fail | fault | unreadable => cases hr
  | answered hrows _ _ ih =>
    cases before with
    | nil =>
      obtain ⟨rfl, -⟩ := List.cons.inj hbody
      exact ⟨_, hrows⟩
    | cons y before =>
      obtain ⟨rfl, hrest⟩ := List.cons.inj hbody
      simpa using ih hrest hr

end Batch.Dialogue

namespace Connection

/-- Running a batch is a dialogue with the server. -/
theorem run_dialogue (batch : Batch α) (c : Connection) :
    ∃ body, Batch.Dialogue c.server c.sent batch body (batch.run execute c).1 ∧
      (batch.run execute c).2 = { c with sent := body.reverse ++ c.sent } := by
  induction batch generalizing c with
  | done a => exact ⟨[], .done a, rfl⟩
  | fail e => exact ⟨[], .fail e, rfl⟩
  | send s next ih =>
    cases hanswer : c.server.answer c.sent s.command with
    | error f =>
      refine ⟨[s.command], ?_⟩
      simp only [Batch.run, execute, send, hanswer]
      exact ⟨.fault hanswer, rfl⟩
    | ok rows =>
      cases hread : s.read rows with
      | error e =>
        refine ⟨[s.command], ?_⟩
        simp only [Batch.run, execute, send, hanswer, hread]
        exact ⟨.unreadable hanswer hread, rfl⟩
      | ok b =>
        obtain ⟨body, hbody, hsent⟩ := ih b { c with sent := s.command :: c.sent }
        refine ⟨s.command :: body, ?_⟩
        simp only [Batch.run, execute, send, hanswer, hread]
        exact ⟨.answered hanswer hread hbody, by simpa using hsent⟩

/-! ### Courses of transactions -/

/-- A server lets a transaction be opened and made serializable. -/
def Opens (server : Server) (sent : List Command) : Prop :=
  (∃ rows, server.answer sent .begin = .ok rows) ∧
    ∃ rows, server.answer (.begin :: sent) .serializable = .ok rows

/-- How a batch goes as a transaction: the commands that are sent, in their order, and the
result. -/
inductive Course (server : Server) (sent : List Command) (batch : Batch α) :
    List Command → Except StoreError α → Prop where
  /-- No transaction is opened. -/
  | refused {f : DatabaseFault} (h : server.answer sent .begin = .error f) :
      Course server sent batch [.begin] (.error (.ofServerFault f))
  /-- The transaction is not made serializable. -/
  | notSerializable {f : DatabaseFault} (hbegin : ∃ rows, server.answer sent .begin = .ok rows)
      (h : server.answer (.begin :: sent) .serializable = .error f) :
      Course server sent batch [.begin, .serializable, .rollback] (.error (.ofServerFault f))
  /-- The statements don't come to their end. -/
  | failed {body : List Command} {e : StoreError} (hopens : Opens server sent)
      (h : Batch.Dialogue server (.serializable :: .begin :: sent) batch body (.error e)) :
      Course server sent batch (.begin :: .serializable :: body ++ [.rollback]) (.error e)
  /-- The statements come to their end, and the commit fails. -/
  | notCommitted {body : List Command} {a : α} {f : DatabaseFault} (hopens : Opens server sent)
      (h : Batch.Dialogue server (.serializable :: .begin :: sent) batch body (.ok a))
      (hcommit : server.answer ((.begin :: .serializable :: body).reverse ++ sent) .commit =
        .error f) :
      Course server sent batch (.begin :: .serializable :: body ++ [.commit, .rollback])
        (.error (.ofServerFault f))
  | committed {body : List Command} {a : α} (hopens : Opens server sent)
      (h : Batch.Dialogue server (.serializable :: .begin :: sent) batch body (.ok a))
      (hcommit : ∃ rows, server.answer ((.begin :: .serializable :: body).reverse ++ sent) .commit =
        .ok rows) :
      Course server sent batch (.begin :: .serializable :: body ++ [.commit]) (.ok a)

/-- **Every transaction goes one of these ways.** -/
theorem transact_course (batch : Batch α) (c : Connection) :
    ∃ trace, Course c.server c.sent batch trace (c.transact batch).1 ∧
      (c.transact batch).2 = { c with sent := trace.reverse ++ c.sent } := by
  cases hbegin : c.server.answer c.sent .begin with
  | error f =>
    refine ⟨[.begin], ?_⟩
    simp only [transact, tell, send, hbegin]
    exact ⟨.refused hbegin, rfl⟩
  | ok rows =>
    cases hserializable : c.server.answer (.begin :: c.sent) .serializable with
    | error f =>
      refine ⟨[.begin, .serializable, .rollback], ?_⟩
      simp only [transact, tell, send, hbegin, hserializable, abandon]
      exact ⟨.notSerializable ⟨rows, hbegin⟩ hserializable, rfl⟩
    | ok rows' =>
      have hopens : Opens c.server c.sent := ⟨⟨rows, hbegin⟩, ⟨rows', hserializable⟩⟩
      obtain ⟨body, hbody, hsent⟩ :=
        run_dialogue batch { c with sent := .serializable :: .begin :: c.sent }
      cases hrun : batch.run execute { c with sent := .serializable :: .begin :: c.sent } with
      | mk r after =>
        rw [hrun] at hbody hsent
        obtain rfl := hsent
        cases r with
        | error e =>
          refine ⟨.begin :: .serializable :: body ++ [.rollback], ?_⟩
          simp only [transact, tell, send, hbegin, hserializable, hrun, abandon]
          exact ⟨.failed hopens hbody, by simp⟩
        | ok a =>
          have hsent : (.begin :: .serializable :: body).reverse ++ c.sent =
              body.reverse ++ (.serializable :: .begin :: c.sent) := by simp
          cases hcommit : c.server.answer ((.begin :: .serializable :: body).reverse ++ c.sent)
              .commit with
          | error f =>
            refine ⟨.begin :: .serializable :: body ++ [.commit, .rollback], ?_⟩
            have hcourse := Course.notCommitted hopens hbody hcommit
            rw [hsent] at hcommit
            simp only [transact, tell, send, hbegin, hserializable, hrun, hcommit, abandon]
            exact ⟨hcourse, by simp⟩
          | ok rows'' =>
            refine ⟨.begin :: .serializable :: body ++ [.commit], ?_⟩
            have hcourse := Course.committed hopens hbody ⟨rows'', hcommit⟩
            rw [hsent] at hcommit
            simp only [transact, tell, send, hbegin, hserializable, hrun, hcommit]
            exact ⟨hcourse, by simp⟩

namespace Course

variable {batch : Batch α} {trace earlier later : List Command} {r : Except StoreError α}

/-- A transaction opens, sends its statements, and is committed or rolled back. -/
theorem shape (h : Course server sent batch trace r) :
    trace = [.begin] ∨ ∃ body closing, trace = .begin :: .serializable :: body ++ closing ∧
      (∀ x ∈ body, ¬ x.IsControl) ∧
      (closing = [.rollback] ∨ closing = [.commit, .rollback] ∨ closing = [.commit]) := by
  cases h with
  | refused _ => exact .inl rfl
  | notSerializable _ _ => exact .inr ⟨[], _, rfl, by simp, .inl rfl⟩
  | failed _ h => exact .inr ⟨_, _, rfl, h.not_isControl, .inl rfl⟩
  | notCommitted _ h _ => exact .inr ⟨_, _, rfl, h.not_isControl, .inr (.inl rfl)⟩
  | committed _ h _ => exact .inr ⟨_, _, rfl, h.not_isControl, .inr (.inr rfl)⟩

theorem commit_notMem_opening {body : List Command} {s : Except StoreError α}
    (h : Batch.Dialogue server (.serializable :: .begin :: sent) batch body s) :
    .commit ∉ .begin :: .serializable :: body := by
  have hcontrol : Command.commit.IsControl := by simp [Command.IsControl]
  simp only [List.mem_cons, not_or]
  exact ⟨by decide, by decide, fun hmem => h.not_isControl _ hmem hcontrol⟩

/-- A commit is sent once all statements have been answered and read, and at most a rollback after
it. -/
theorem commit_cases (h : Course server sent batch trace r)
    (htrace : trace = earlier ++ .commit :: later) :
    (later = [] ∨ later = [.rollback]) ∧ .commit ∉ earlier ∧ Opens server sent ∧
      ∃ body a, earlier = .begin :: .serializable :: body ∧
        Batch.Dialogue server (.serializable :: .begin :: sent) batch body (.ok a) := by
  have hmem : .commit ∈ trace := by simp [htrace]
  cases h with
  | refused _ => exact absurd hmem (by decide)
  | notSerializable _ _ => exact absurd hmem (by decide)
  | failed _ h =>
    rcases List.mem_append.mp hmem with hmem | hmem
    · exact absurd hmem (commit_notMem_opening h)
    · exact absurd hmem (by decide)
  | notCommitted hopens h _ =>
    have hopening := commit_notMem_opening h
    obtain ⟨rfl, -, rfl⟩ := (List.append_cons_inj_of_notMem hopening (by decide)).mp htrace
    exact ⟨.inr rfl, hopening, hopens, _, _, rfl, h⟩
  | committed hopens h _ =>
    have hopening := commit_notMem_opening h
    obtain ⟨rfl, -, rfl⟩ := (List.append_cons_inj_of_notMem hopening (by decide)).mp htrace
    exact ⟨.inl rfl, hopening, hopens, _, _, rfl, h⟩

/-- Before a commit everything has been answered without a fault. -/
theorem exists_rows {body before after : List Command} {a : α} {x : Command}
    (hopens : Opens server sent)
    (h : Batch.Dialogue server (.serializable :: .begin :: sent) batch body (.ok a))
    (hx : .begin :: .serializable :: body = before ++ x :: after) :
    ∃ rows, server.answer (before.reverse ++ sent) x = .ok rows := by
  rcases before with _ | ⟨y, _ | ⟨z, before⟩⟩
  · obtain ⟨rfl, -⟩ := List.cons.inj hx
    exact hopens.1
  · obtain ⟨rfl, htail⟩ := List.cons.inj hx
    obtain ⟨rfl, -⟩ := List.cons.inj htail
    exact hopens.2
  · obtain ⟨rfl, htail⟩ := List.cons.inj hx
    obtain ⟨rfl, hbody⟩ := List.cons.inj htail
    simpa using h.exists_rows hbody

/-- What succeeds has been committed. -/
theorem committed_of_ok {a : α} (h : Course server sent batch trace (.ok a)) :
    ∃ earlier rows, trace = earlier ++ [.commit] ∧
      server.answer (earlier.reverse ++ sent) .commit = .ok rows := by
  cases h with
  | committed _ _ hcommit => exact ⟨_, hcommit.choose, rfl, hcommit.choose_spec⟩

end Course

/-- **Transactions are disciplined**, whatever the server answers. They open with `BEGIN` and become
serializable before anything else is sent; all their statements are sent before the transaction
ends, which it does once. `COMMIT` is sent at most once, as the last statement of the operation, and
only where every statement has been answered without a fault, all answers have been read and no
check has refused; the `ROLLBACK` by which a connection gives up what could not be committed is all
that can come after it. Only what the server has committed succeeds. -/
theorem transaction_disciplined (op : Transaction α) (c : Connection) :
    let served := c.serve op.request
    ∃ trace, served.2 = { c with sent := trace.reverse ++ c.sent } ∧
      (trace = [.begin] ∨ ∃ body closing, trace = .begin :: .serializable :: body ++ closing ∧
        (∀ x ∈ body, ¬ x.IsControl) ∧
        (closing = [.rollback] ∨ closing = [.commit, .rollback] ∨ closing = [.commit])) ∧
      (∀ earlier later, trace = earlier ++ .commit :: later →
        (later = [] ∨ later = [.rollback]) ∧ .commit ∉ earlier ∧
        (∀ before x after, earlier = before ++ x :: after →
          ∃ rows, c.server.answer (before.reverse ++ c.sent) x = .ok rows) ∧
        ∃ body a, earlier = .begin :: .serializable :: body ∧
          Batch.Dialogue c.server (.serializable :: .begin :: c.sent) op.request.batch body
            (.ok a)) ∧
      ∀ a, served.1 = .ok a → ∃ earlier rows, trace = earlier ++ [.commit] ∧
        c.server.answer (earlier.reverse ++ c.sent) .commit = .ok rows := by
  intro served
  have hserve : served = c.transact op.request.batch := if_pos op.atomic_request
  obtain ⟨trace, hcourse, hsent⟩ := transact_course op.request.batch c
  rw [hserve]
  refine ⟨trace, hsent, hcourse.shape, fun earlier later htrace => ?_, fun a hok => ?_⟩
  · obtain ⟨hlater, hearlier, hopens, body, a, rfl, hbody⟩ := hcourse.commit_cases htrace
    exact ⟨hlater, hearlier, fun before x after hx => Course.exists_rows hopens hbody hx, body, a,
      rfl, hbody⟩
  · rw [hok] at hcourse
    exact hcourse.committed_of_ok

end Connection
end TableStore
