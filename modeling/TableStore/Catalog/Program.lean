import TableStore.Catalog.Error
import TableStore.Log
import TableStore.Store.Request

/-!
# Programs of the catalog

A catalog operation is a `Program`: requests to the store with, for each, what its failure means,
and messages to the log. A failure always ends the program. Like batches, programs are data:
`Program.run` carries one out on any store.
-/

namespace TableStore

/-- A catalog operation with a result. -/
inductive Program : Type → Type 1 where
  | done {α : Type} (result : α) : Program α
  | fail {α : Type} (error : CatalogError) : Program α
  | log {α : Type} (line : LogLine) (next : Program α) : Program α
  | call {α β : Type} (request : Request β) (explain : StoreError → CatalogError)
      (next : β → Program α) : Program α

namespace Program

/-- One program after another. -/
def bind {α β : Type} (p : Program α) (f : α → Program β) : Program β :=
  match p with
  | .done a => f a
  | .fail e => .fail e
  | .log line next => .log line (next.bind f)
  | .call r explain next => .call r explain fun answer => (next answer).bind f

instance : Monad Program where
  pure := .done
  bind := bind

/-- The program with its failures seen in another way. -/
def mapError {α : Type} (f : CatalogError → CatalogError) : Program α → Program α
  | .done a => .done a
  | .fail e => .fail (f e)
  | .log line next => .log line (next.mapError f)
  | .call r explain next => .call r (fun e => f (explain e)) fun answer => (next answer).mapError f

/-- The program of one request. -/
def request {α : Type} (r : Request α) (explain : StoreError → CatalogError) : Program α :=
  .call r explain .done

/-- The program that writes one message. -/
def note (level : LogLevel) (message : String) : Program Unit :=
  .log ⟨level, message⟩ (.done ())

/-- The program of a result that may be a failure. -/
def ofExcept {α ε : Type} (explain : ε → CatalogError) : Except ε α → Program α
  | .ok a => .done a
  | .error e => .fail (explain e)

/-- How a program ends: its result or failure, the state it leaves, and what it logged. -/
structure Outcome (σ α : Type) where
  result : Except CatalogError α
  state : σ
  log : List LogLine

/-- Carries a program out, given what a request does to a state. -/
def run {σ α : Type} (exec : {β : Type} → Request β → σ → Except StoreError β × σ) :
    Program α → σ → Outcome σ α
  | .done a, st => ⟨.ok a, st, []⟩
  | .fail e, st => ⟨.error e, st, []⟩
  | .log line next, st =>
    let o := run exec next st
    { o with log := line :: o.log }
  | .call r explain next, st =>
    match exec r st with
    | (.ok answer, st) => run exec (next answer) st
    | (.error e, st) => ⟨.error (explain e), st, []⟩

/-! ### Laws -/

variable {α β σ : Type}

/-- Running one program after another is running the first, then the second on its result. -/
theorem run_bind (exec : {β : Type} → Request β → σ → Except StoreError β × σ) (p : Program α)
    (f : α → Program β) (st : σ) :
    (p.bind f).run exec st =
      let o := p.run exec st
      match o.result with
      | .ok a =>
        let o' := (f a).run exec o.state
        { o' with log := o.log ++ o'.log }
      | .error e => ⟨.error e, o.state, o.log⟩ := by
  induction p generalizing st with
  | done a => simp [bind, run]
  | fail e => simp [bind, run]
  | log line next ih =>
    simp only [bind, run, ih]
    cases h : (run exec next st).result <;> simp
  | call r explain next ih =>
    simp only [bind, run]
    cases h : exec r st with
    | mk answer st' => cases answer <;> simp [ih]

end Program
end TableStore
