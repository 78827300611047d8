import TableStore.Query.Compile
import TableStore.Store.Error
import TableStore.Store.Row

/-!
# Statements and programs

A `Statement` asks a database for one thing, and its type says what the answer is read as. A `Batch`
is a program of statements: each may depend on the answers before it, and the first failure ends the
batch. Batches are data, so that several databases can run them and proofs can follow them.
-/

namespace TableStore

/-- A statement, by what its answer is read as. Where a statement is about one row, the answer is
that row or nothing. -/
inductive Statement : Type → Type where
  | insertOrganization (row : Organization) : Statement (Option Organization)
  | getOrganization (id : Uuid) : Statement (Option Organization)
  | listOrganizations : Statement (List Organization)
  | renameOrganization (id : Uuid) (name : String) (now : Timestamp) :
      Statement (Option Organization)
  | deleteOrganization (id : Uuid) : Statement (Option Unit)
  | insertEntry (row : EntryRow) : Statement (Option EntryRow)
  | markFolder (id : Uuid) : Statement Unit
  | markTable (id : Uuid) : Statement Unit
  | getEntry (id : Uuid) : Statement (Option EntryRow)
  | listChildren (organization : Uuid) (parent : Option Uuid) (keys : List SortKey)
      (limit offset : Nat) : Statement (List EntryRow)
  | countChildren (organization : Uuid) (parent : Option Uuid) : Statement (Option Int)
  | getEntryProperties (id : Uuid) : Statement (Option Properties)
  | setEntryProperties (id : Uuid) (properties : Properties) (now : Timestamp) :
      Statement (Option EntryRow)
  | touchEntry (id : Uuid) (now : Timestamp) : Statement (Option Uuid)
  | getPlacement (id : Uuid) : Statement (Option (Uuid × String))
  | getParent (id : Uuid) : Statement (Option (Option Uuid))
  | setParent (id : Uuid) (parent : Option Uuid) : Statement (Option EntryRow)
  | deleteEntry (id : Uuid) : Statement (Option Unit)
  | columnOrder (table : Uuid) : Statement (List Uuid)
  | negateIndices (table : Uuid) : Statement Unit
  | setIndex (id : Uuid) (position : Nat) : Statement Unit
  | getColumn (id : Uuid) : Statement (Option ColumnRow)
  | listColumns (table : Uuid) : Statement (List ColumnRow)
  | insertColumn (row : ColumnRow) : Statement Unit
  | setColumn (id : Uuid) (name type : String) (properties : Properties) (now : Timestamp) :
      Statement Unit
  | deleteColumn (id : Uuid) : Statement (Option Uuid)
  | insertRecords (plan : Query.InsertPlan) : Statement Nat
  | selectRecords (plan : Query.SelectPlan) : Statement (List (List Json))

/-- A program of statements with a result. -/
inductive Batch : Type → Type 1 where
  | done {α : Type} (result : α) : Batch α
  | fail {α : Type} (error : StoreError) : Batch α
  | send {α β : Type} (statement : Statement β) (next : β → Batch α) : Batch α

namespace Batch

/-- One batch after another. -/
def bind {α β : Type} (b : Batch α) (f : α → Batch β) : Batch β :=
  match b with
  | .done a => f a
  | .fail e => .fail e
  | .send s next => .send s fun answer => (next answer).bind f

instance : Monad Batch where
  pure := .done
  bind := bind

/-- The batch of one statement. -/
def ask {α : Type} (s : Statement α) : Batch α :=
  .send s .done

/-- The batch of one statement that has to find a row. -/
def askOne {α : Type} (s : Statement (Option α)) : Batch α :=
  .send s fun
    | some row => .done row
    | none => .fail .rowNotFound

/-- Runs a batch, given what a statement does to a state. -/
def run {σ α : Type} (exec : {β : Type} → Statement β → σ → Except StoreError β × σ) :
    Batch α → σ → Except StoreError α × σ
  | .done a, st => (.ok a, st)
  | .fail e, st => (.error e, st)
  | .send s next, st =>
    match exec s st with
    | (.ok answer, st) => run exec (next answer) st
    | (.error e, st) => (.error e, st)

/-! ### Laws -/

variable {α β γ σ : Type}

@[simp]
theorem bind_done (a : α) (f : α → Batch β) : (Batch.done a).bind f = f a :=
  rfl

@[simp]
theorem bind_fail (e : StoreError) (f : α → Batch β) : (Batch.fail e : Batch α).bind f = .fail e :=
  rfl

theorem bind_assoc (b : Batch α) (f : α → Batch β) (g : β → Batch γ) :
    (b.bind f).bind g = b.bind fun a => (f a).bind g := by
  induction b with
  | done a => rfl
  | fail e => rfl
  | send s next ih => simp only [bind, ih]

/-- Running one batch after another is running the first, then the second on its result. -/
theorem run_bind (exec : {β : Type} → Statement β → σ → Except StoreError β × σ) (b : Batch α)
    (f : α → Batch β) (st : σ) :
    (b.bind f).run exec st =
      match b.run exec st with
      | (.ok a, st) => (f a).run exec st
      | (.error e, st) => (.error e, st) := by
  induction b generalizing st with
  | done a => rfl
  | fail e => rfl
  | send s next ih =>
    simp only [bind, run]
    cases h : exec s st with
    | mk r st' => cases r <;> simp [ih]

end Batch
end TableStore
