import TableStore.Proofs.Asking
import TableStore.Proofs.QueryDocuments
import TableStore.Proofs.Served

/-!
# What is not compiled

A query that is not served asks the store for its table and for the columns of the table, and for
nothing after that: a run that sends anything to the records has a query that is served
(`Catalog.served_of_not_sparesRecords`). It is refused for the first of its faults
(`Query.served_or_refused_for_first_fault`).
-/

namespace TableStore

/-! ### What a run asks -/

/-- A statement on the records of a table. -/
def Statement.onRecords {α : Type} : Statement α → Bool
  | .insertRecords _ | .selectRecords _ => true
  | _ => false

/-- The batch sends no statement on records, whatever it is answered. -/
def Batch.SparesRecords {α : Type} : Batch α → Prop
  | .done _ | .fail _ => True
  | .send s next => s.onRecords = false ∧ ∀ answer, (next answer).SparesRecords

/-- The request sends no statement on records. -/
def Request.SparesRecords {α : Type} (r : Request α) : Prop :=
  r.batch.SparesRecords

namespace Program

variable {α β σ : Type} {exec : {β : Type} → Request β → σ → Except StoreError β × σ} {st : σ}

/-- A run of the program on a store, from a state, sends no statement on records. -/
def SparesRecords (exec : {β : Type} → Request β → σ → Except StoreError β × σ) :
    Program α → σ → Prop
  | .done _, _ | .fail _, _ => True
  | .log _ next, st => next.SparesRecords exec st
  | .call r _ next, st =>
    r.SparesRecords ∧ ∀ answer st', exec r st = (.ok answer, st') →
      (next answer).SparesRecords exec st'

/-- A program that asks for no records spares them in every run. -/
theorem Within.sparesRecords {fails : CatalogError → Prop} {p : Program α}
    (hp : p.Within Request.SparesRecords fails) : p.SparesRecords exec st := by
  induction p generalizing st with
  | done a => trivial
  | fail e => trivial
  | log line next ih => exact ih hp
  | call r explain next ih => exact ⟨hp.1, fun answer _ _ => ih answer (hp.2.2 answer)⟩

/-- What comes second only runs if the first has a result, in the state that it left. -/
theorem SparesRecords.bind {p : Program α} {f : α → Program β} (hp : p.SparesRecords exec st)
    (hf : ∀ a, (p.run exec st).result = .ok a → (f a).SparesRecords exec (p.run exec st).state) :
    (p >>= f).SparesRecords exec st := by
  show (p.bind f).SparesRecords exec st
  induction p generalizing st with
  | done a => exact hf a rfl
  | fail e => trivial
  | log line next ih => exact ih hp hf
  | call r explain next ih =>
    refine ⟨hp.1, fun answer st' hanswer => ?_⟩
    have hrun : (call r explain next).run exec st = (next answer).run exec st' := by
      simp only [run, hanswer]
    rw [hrun] at hf
    exact ih answer (hp.2 answer st' hanswer) hf

/-- Once the first part of a program has a result, the program ends as its second part does. -/
theorem run_bind_result {p : Program α} {f : α → Program β} {a : α}
    (h : (p.run exec st).result = .ok a) :
    ((p >>= f).run exec st).result = ((f a).run exec (p.run exec st).state).result := by
  have hrun := congrArg Outcome.result (run_bind exec p f st)
  dsimp only at hrun
  rw [h] at hrun
  exact hrun

/-- A program has a result if its first part has one, and its second part in the state that the
first one left. -/
theorem run_bind_ok_iff {p : Program α} {f : α → Program β} {b : β} :
    ((p >>= f).run exec st).result = .ok b ↔ ∃ a, (p.run exec st).result = .ok a ∧
      ((f a).run exec (p.run exec st).state).result = .ok b := by
  constructor
  · intro h
    obtain ⟨a, -, ha, -⟩ := run_bind_ok h
    exact ⟨a, ha, (run_bind_result ha).symm.trans h⟩
  · rintro ⟨a, ha, h⟩
    exact (run_bind_result ha).trans h

end Program

namespace Catalog

variable {σ : Type} {exec : {β : Type} → Request β → σ → Except StoreError β × σ} {st : σ}
  {env : Surroundings} {table : Uuid} {document : Json} {columns : List Column} {q : Query}

theorem requireTable_within (id : Uuid) :
    (requireTable id).Within Request.SparesRecords fun _ => True := by
  have hentry : ((Stored.getEntry id).mapError (asMissingTable id)).Within
      Request.SparesRecords fun _ => True := by
    refine Program.Within.mapError (Program.Within.bind
      (Program.within_request ⟨rfl, fun row => ?_⟩ fun _ => trivial) fun row => ?_)
    · cases row <;> trivial
    · rw [Stored.asEntry]
      cases row.toEntry <;> trivial
  refine hentry.bind fun entry => ?_
  split <;> trivial

theorem storedColumns_within (id : Uuid) :
    (Stored.listColumns id).Within Request.SparesRecords fun _ => True := by
  refine Program.Within.bind
    (Program.within_request ⟨rfl, fun _ => trivial⟩ fun _ => trivial) fun rows => ?_
  rw [Stored.asColumns]
  cases rows.mapM ColumnRow.toColumn <;> trivial

/-- A query that is not compiled fails with the error of its compilation, once it is read and the
columns of its table are listed. -/
theorem executeQuery_of_compile_error {e : QueryError}
    (hdecode : Query.decode env.limits document = .ok q)
    (hcolumns : ((listColumns table).run exec st).result = .ok columns)
    (hcompile : Query.compile table columns env.now env.fresh q = .error e) :
    ((executeQuery env table document).run exec st).result = .error (CatalogError.ofQuery e) := by
  obtain ⟨entry, hentry, hlisted⟩ := Program.run_bind_ok_iff.mp hcolumns
  rw [executeQuery, hdecode]
  refine (Program.run_bind_result hentry).trans ((Program.run_bind_result hlisted).trans ?_)
  rw [hcompile]
  rfl

/-- **Only a query that is served sends anything to the records.** -/
theorem served_of_not_sparesRecords
    (h : ¬ (executeQuery env table document).SparesRecords exec st) :
    ∃ q columns, Query.decode env.limits document = .ok q ∧
      ((listColumns table).run exec st).result = .ok columns ∧ q.Served columns := by
  by_contra hnone
  refine h ?_
  rw [executeQuery]
  cases hdecode : Query.decode env.limits document with
  | error e => trivial
  | ok q =>
    refine (requireTable_within table).sparesRecords.bind fun entry hentry => ?_
    refine (storedColumns_within table).sparesRecords.bind fun columns hlisted => ?_
    have hcolumns : ((listColumns table).run exec st).result = .ok columns :=
      Program.run_bind_ok_iff.mpr ⟨entry, hentry, hlisted⟩
    cases hcompile : Query.compile table columns env.now env.fresh q with
    | error e => trivial
    | ok plan =>
      have hserved : q.Served columns := Query.faults_eq_nil.mp
        ((Query.compile_reportsFirst q).ok_iff.mp ⟨plan, hcompile⟩)
      exact absurd ⟨q, columns, hdecode, hcolumns, hserved⟩ hnone

end Catalog

/-- **Nothing that is not served is compiled, and it is refused before any record is touched.** A
query is compiled if and only if it is served, else refused for the first of its faults. On any
store, in any state: a run that sends a statement on records has a query that is served, by the
columns that its table has; and where a query is not served by them, the run fails for the first of
its faults. -/
theorem Query.served_or_refused_for_first_fault (table : Uuid) (columns : List Column)
    (now : Timestamp) (fresh : Nat → Uuid) (q : Query) :
    ((∃ plan, compile table columns now fresh q = .ok plan) ↔ q.Served columns) ∧
      (∀ e, compile table columns now fresh q = .error e ↔ (q.faults columns).head? = some e) ∧
      ∀ {σ : Type} (exec : {β : Type} → Request β → σ → Except StoreError β × σ) (st : σ)
        (env : Surroundings) (document : Json),
        (¬ (Catalog.executeQuery env table document).SparesRecords exec st →
          ∃ q columns, decode env.limits document = .ok q ∧
            ((Catalog.listColumns table).run exec st).result = .ok columns ∧ q.Served columns) ∧
        (decode env.limits document = .ok q →
          ((Catalog.listColumns table).run exec st).result = .ok columns →
          ∀ e, (q.faults columns).head? = some e →
            ((Catalog.executeQuery env table document).run exec st).result =
                .error (CatalogError.ofQuery e) ∧
              (Catalog.executeQuery env table document).SparesRecords exec st) := by
  refine ⟨exists_plan_iff, fun e => (compile_reportsFirst q).error_iff e, ?_⟩
  intro σ exec st env document
  refine ⟨Catalog.served_of_not_sparesRecords, fun hdecode hcolumns e he => ?_⟩
  have hcompile : compile table columns env.now env.fresh q = .error e :=
    ((compile_reportsFirst q).error_iff e).mpr he
  refine ⟨Catalog.executeQuery_of_compile_error hdecode hcolumns hcompile, ?_⟩
  by_contra hnot
  obtain ⟨q', columns', hdecode', hcolumns', hserved⟩ := Catalog.served_of_not_sparesRecords hnot
  obtain rfl := Except.ok.inj (hdecode.symm.trans hdecode')
  obtain rfl := Except.ok.inj (hcolumns.symm.trans hcolumns')
  rw [faults_eq_nil.mpr hserved] at he
  cases he

/-- A select with three faults is refused for the column that its table does not have, which stands
before a function and an operator to sort by. -/
theorem Query.select_with_three_faults :
    let history : List Call :=
      [⟨.numbered 1, .createOrganization "org"⟩,
        ⟨.numbered 2, .createEntry ⟨1⟩ .table none [] [⟨"a", "string", []⟩]⟩]
    let q : Query.Select := ⟨[.column ⟨3⟩, .column ⟨9⟩, .func "f" [.column ⟨8⟩]], none,
      [⟨.unary .neg (.value .null), .asc⟩], 0, 10⟩
    let program := Catalog.executeQuery (.numbered 4) ⟨2⟩ (encode (.select q))
    (program.run Database.serve (Database.fresh.after history)).result =
        .error (.invalidQuery (.unknownColumn ⟨9⟩)) ∧
      program.SparesRecords Database.serve (Database.fresh.after history) := by
  intro history q program
  let column : Column := ⟨⟨3⟩, ⟨2⟩, 0, "a", .string, .empty, ⟨0⟩, ⟨0⟩⟩
  have hdecode : decode (Surroundings.numbered 4).limits (encode (.select q)) = .ok (.select q) :=
    decode_eq_ok.mpr (queryForm_encode ⟨nofun, by decide, by decide⟩)
  have hcolumns : ((Catalog.listColumns ⟨2⟩).run Database.serve
      (Database.fresh.after history)).result = .ok [column] := by decide +kernel
  obtain ⟨-, -, hruns⟩ :=
    served_or_refused_for_first_fault ⟨2⟩ [column] ⟨0⟩ (fun _ => ⟨0⟩) (.select q)
  exact (hruns Database.serve (Database.fresh.after history) (.numbered 4) _).2 hdecode hcolumns
    (.unknownColumn ⟨9⟩) (by decide +kernel)

end TableStore
