import TableStore.Proofs.StorageErrors

/-!
# What programs ask of a store

What a program can ask of a store, and how it can fail, is read off the program
(`Program.Within`), and so it is the same for every store and every state of it. Programs that read
entries and columns put all they ask to the store and blame no limit (`Program.IsModest`).
-/

namespace TableStore

/-! ### Programs on any store -/

namespace Program

variable {α β σ : Type} {asks : {β : Type} → Request β → Prop} {fails : CatalogError → Prop}
variable {exec : {β : Type} → Request β → σ → Except StoreError β × σ}

/-- What a program asks of a store and how it fails, whatever it is answered. -/
def Within (asks : {β : Type} → Request β → Prop) (fails : CatalogError → Prop) {α : Type} :
    Program α → Prop
  | .done _ => True
  | .fail e => fails e
  | .log _ next => next.Within asks fails
  | .call r explain next =>
    asks r ∧ (∀ e, fails (explain e)) ∧ ∀ answer, (next answer).Within asks fails

theorem Within.bind {p : Program α} {f : α → Program β} (hp : p.Within asks fails)
    (hf : ∀ a, (f a).Within asks fails) : (p >>= f).Within asks fails := by
  show (p.bind f).Within asks fails
  induction p with
  | done a => exact hf a
  | fail e => exact hp
  | log line next ih => exact ih hp
  | call r explain next ih =>
    obtain ⟨hr, hexplain, hnext⟩ := hp
    exact ⟨hr, hexplain, fun answer => ih answer (hnext answer)⟩

theorem Within.mapError {p : Program α} {f : CatalogError → CatalogError}
    (hp : p.Within asks fun e => fails (f e)) : (p.mapError f).Within asks fails := by
  induction p with
  | done a => trivial
  | fail e => exact hp
  | log line next ih => exact ih hp
  | call r explain next ih =>
    obtain ⟨hr, hexplain, hnext⟩ := hp
    exact ⟨hr, hexplain, fun answer => ih answer (hnext answer)⟩

theorem Within.mono {fails' : CatalogError → Prop} {p : Program α} (hp : p.Within asks fails)
    (h : ∀ e, fails e → fails' e) : p.Within asks fails' := by
  induction p with
  | done a => trivial
  | fail e => exact h e hp
  | log line next ih => exact ih hp
  | call r explain next ih =>
    obtain ⟨hr, hexplain, hnext⟩ := hp
    exact ⟨hr, fun e => h _ (hexplain e), fun answer => ih answer (hnext answer)⟩

theorem within_request {r : Request α} {explain : StoreError → CatalogError} (hr : asks r)
    (hexplain : ∀ e, fails (explain e)) : (request r explain).Within asks fails :=
  ⟨hr, hexplain, fun _ => trivial⟩

/-- What follows a check has only to do with what passes the check. -/
theorem within_ofExcept_bind {ε : Type} {explain : ε → CatalogError} {r : Except ε α}
    {f : α → Program β} (herror : ∀ e, r = .error e → fails (explain e))
    (hok : ∀ a, r = .ok a → (f a).Within asks fails) :
    (ofExcept explain r >>= f).Within asks fails := by
  cases r with
  | ok a => exact hok a rfl
  | error e => exact herror e rfl

/-- A run fails in no other way. -/
theorem Within.fails_of_run {p : Program α} (hp : p.Within asks fails) {st : σ} {e : CatalogError}
    (h : (p.run exec st).result = .error e) : fails e := by
  induction p generalizing st with
  | done a => cases h
  | fail e' => exact Except.error.inj h ▸ hp
  | log line next ih => exact ih hp h
  | call r explain next ih =>
    obtain ⟨-, hexplain, hnext⟩ := hp
    rw [run] at h
    split at h
    · exact ih _ (hnext _) h
    · exact Except.error.inj h ▸ hexplain _

/-- A program with a result has one at each of its steps. -/
theorem run_bind_ok {p : Program α} {f : α → Program β} {st : σ} {b : β}
    (h : ((p >>= f).run exec st).result = .ok b) :
    ∃ a st', (p.run exec st).result = .ok a ∧ ((f a).run exec st').result = .ok b := by
  have hrun : ((p.bind f).run exec st).result = .ok b := h
  rw [run_bind] at hrun
  dsimp only at hrun
  cases hp : (p.run exec st).result with
  | ok a =>
    rw [hp] at hrun
    exact ⟨a, _, rfl, hrun⟩
  | error e =>
    rw [hp] at hrun
    cases hrun

theorem run_request_ok {r : Request α} {explain : StoreError → CatalogError} {st : σ} {a : α}
    (h : ((request r explain).run exec st).result = .ok a) : ∃ st', exec r st = (.ok a, st') := by
  rw [request, run] at h
  split at h
  · next answer st' hr => exact ⟨st', Except.ok.inj h ▸ hr⟩
  · cases h

theorem run_ofExcept_ok {ε : Type} {explain : ε → CatalogError} {r : Except ε α} {st : σ} {a : α}
    (h : ((ofExcept explain r).run exec st).result = .ok a) : r = .ok a := by
  cases r with
  | ok b => exact congrArg Except.ok (Except.ok.inj h)
  | error e => cases h

end Program

/-- Rows are answered for a select only: they are what the store has for its statement. -/
theorem Operation.select_of_rows {σ : Type}
    {exec : {β : Type} → Request β → σ → Except StoreError β × σ} {st : σ} {env : Surroundings}
    {table : Uuid} {document : Json} {rows : List (List Json)}
    (h : (((Operation.query table document).program env).run exec st).result = .ok (.rows rows)) :
    ∃ q columns plan, Query.decode env.limits document = .ok (.select q) ∧
      Query.compileSelect table columns q = .ok plan ∧
      ∃ before after, exec (Request.selectRecords plan) before = (.ok rows, after) := by
  rw [Operation.program] at h
  obtain ⟨result, st', hquery, hreply⟩ := Program.run_bind_ok h
  obtain rfl : result = .rows rows := by
    cases result with
    | inserted ids => cases hreply
    | rows answer => exact congrArg _ (Reply.rows.inj (Except.ok.inj hreply))
  rw [Catalog.executeQuery] at hquery
  obtain ⟨q, _, hdecode, hread⟩ := Program.run_bind_ok hquery
  obtain ⟨_, _, -, hfound⟩ := Program.run_bind_ok hread
  obtain ⟨columns, _, -, hlisted⟩ := Program.run_bind_ok hfound
  obtain ⟨plan, _, hplan, hcompiled⟩ := Program.run_bind_ok hlisted
  obtain ⟨_, before, -, hnoted⟩ := Program.run_bind_ok hcompiled
  have hcompile := Program.run_ofExcept_ok hplan
  cases plan with
  | insert plan =>
    obtain ⟨_, _, -, hinserted⟩ := Program.run_bind_ok hnoted
    obtain ⟨_, _, -, hdone⟩ := Program.run_bind_ok hinserted
    cases hdone
  | select plan =>
    obtain ⟨q, rfl, hselect⟩ := Query.compile_select_ok hcompile
    obtain ⟨rows', _, hrows, hdone⟩ := Program.run_bind_ok hnoted
    cases hdone
    obtain ⟨after, hserved⟩ := Program.run_request_ok hrows
    exact ⟨q, columns, plan, Program.run_ofExcept_ok hdecode, hselect, before, after, hserved⟩

/-! ### What is asked and what is blamed -/

/-- A request that comes to its first statement: it is not refused for what it asks. -/
def Request.IsPut {α : Type} (r : Request α) : Prop :=
  ∀ e, r.batch ≠ .fail e

/-- Whether the error says that a limit is too large. -/
def CatalogError.blamesLimit : CatalogError → Bool
  | .invalidLimit _ _ | .invalidQuery (.limitTooLarge _ _) => true
  | _ => false

/-- All requests of the program are put to the store, and it does not fail for a limit. -/
def Program.IsModest {α : Type} (p : Program α) : Prop :=
  p.Within Request.IsPut fun e => e.blamesLimit = false

section Modest

theorem CatalogError.blamesLimit_ofStore (e : StoreError) : (ofStore e).blamesLimit = false := by
  cases e with
  | invalidMove entry destination reason => cases reason <;> rfl
  | _ => rfl

theorem CatalogError.blamesLimit_organizationMissing (id : Uuid) (e : StoreError) :
    (organizationMissing id e).blamesLimit = false := by
  cases e with
  | invalidMove => exact blamesLimit_ofStore _
  | _ => rfl

theorem CatalogError.blamesLimit_entryMissing (id : Uuid) (e : StoreError) :
    (entryMissing id e).blamesLimit = false := by
  cases e with
  | invalidMove => exact blamesLimit_ofStore _
  | _ => rfl

theorem EntryRow.toEntry_failsOnly (row : EntryRow) :
    FailsOnly (fun e => e.blamesLimit = false) row.toEntry := by
  rw [toEntry]
  cases EntryType.read? row.type with
  | some type => exact .ok _
  | none => exact .error rfl

theorem ColumnRow.toColumn_failsOnly (row : ColumnRow) :
    FailsOnly (fun e => e.blamesLimit = false) row.toColumn := by
  rw [toColumn]
  cases ColumnType.read? row.type with
  | some type => exact .ok _
  | none => exact .error rfl

/-- Results are modest that do not blame a limit. -/
theorem isModest_ofExcept {α : Type} {r : Except CatalogError α}
    (h : FailsOnly (fun e => e.blamesLimit = false) r) : (Program.ofExcept id r).IsModest := by
  cases r with
  | ok a => trivial
  | error e => exact h e rfl

namespace Stored

theorem isModest_getOrganization (id : Uuid) : (getOrganization id).IsModest :=
  Program.within_request nofun (CatalogError.blamesLimit_organizationMissing id)

theorem isModest_getEntry (id : Uuid) : (getEntry id).IsModest :=
  Program.Within.bind (Program.within_request nofun (CatalogError.blamesLimit_entryMissing id))
    fun row => isModest_ofExcept row.toEntry_failsOnly

theorem isModest_listColumns (table : Uuid) : (listColumns table).IsModest :=
  Program.Within.bind (Program.within_request nofun CatalogError.blamesLimit_ofStore)
    fun rows => isModest_ofExcept (FailsOnly.mapM rows fun row _ => row.toColumn_failsOnly)

/-- A window that 64 bits describe is put to the store. -/
theorem isModest_listChildren {organization : Uuid} {folder : Option Uuid} {keys : List SortKey}
    {offset limit : Nat} (hlimit : limit ≤ Json.maxSigned) (hoffset : offset ≤ Json.maxSigned) :
    (listChildren organization folder keys offset limit).IsModest := by
  have hput : (Request.listChildren organization folder keys limit offset).IsPut := by
    have hfits : ¬ (Json.maxSigned < limit ∨ Json.maxSigned < offset) := by omega
    intro e he
    rw [Request.listChildren, Request.plain, if_neg hfits] at he
    cases he
  refine Program.Within.bind (Program.within_request hput CatalogError.blamesLimit_ofStore)
    fun page => ?_
  exact Program.Within.bind
    (isModest_ofExcept (FailsOnly.mapM page.1 fun row _ => row.toEntry_failsOnly)) fun _ => trivial

end Stored

namespace Catalog

theorem isModest_getFolder (id : Uuid) : (getFolder id).IsModest := by
  refine Program.Within.bind (Stored.isModest_getEntry id) fun folder => ?_
  cases folder.isFolder with
  | true => trivial
  | false => exact rfl

theorem isModest_climb (start : Uuid) (steps : Nat) (visited : List Uuid) (next : Option Uuid)
    (path : List PathElement) : (climb start steps visited next path).IsModest := by
  induction steps generalizing visited next path with
  | zero => cases next <;> trivial
  | succ steps ih =>
    cases next with
    | none => trivial
    | some parent =>
      rw [climb]
      split
      · trivial
      · exact Program.Within.bind (Stored.isModest_getEntry parent) fun folder => ih _ _ _

end Catalog

end Modest

end TableStore
