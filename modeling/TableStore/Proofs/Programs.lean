import TableStore.Catalog.Stored
import TableStore.Proofs.Requests

/-!
# Programs as functions

A program of the catalog is run for its result and the database it leaves (`Program.Ends`); what it
logs on the way does not matter here. `Program.Reads` is about programs that only read: they end
with the value of an expression, which is put together like the program. `Program.Meets` is about
programs that may write: they end as a function of the tables says, an answer with the tables that
are left or a failure, and where a guarded column refuses an index they fail and change nothing.
-/

namespace TableStore

variable {α β ε : Type} {db mid after : Database} {e : CatalogError}

/-- A result as a function of the tables gives it, without the tables. -/
def answerOf (m : Except ε (α × Tables)) : Except ε α :=
  m.map Prod.fst

/-- The database that such a result leaves. -/
def Database.left (db : Database) (m : Except ε (α × Tables)) : Database :=
  match m with
  | .ok (_, t) => { db with tables := t }
  | .error _ => db

/-- Reads something of the tables that are left. -/
def andRead (m : Except ε (α × Tables)) (g : α → Tables → Except ε β) : Except ε (β × Tables) :=
  m >>= fun x => (g x.1 x.2).map fun b => (b, x.2)

/-- A result as part of another one. -/
def asPart (f : α → β) (m : Except ε (α × Tables)) : Except ε (β × Tables) :=
  m.map fun x => (f x.1, x.2)

/-! ### Results -/

section Results

variable {m : Except ε (α × Tables)} {t : Tables}

theorem bind_ok {r : Except ε α} {f : α → Except ε β} {b : β} (h : (r >>= f) = .ok b) :
    ∃ a, r = .ok a ∧ f a = .ok b := by
  cases r with
  | error e => cases h
  | ok a => exact ⟨a, rfl, h⟩

/-- What follows a result that is there. -/
theorem bind_of_ok {r : Except ε α} {f : α → Except ε β} {a : α} {x : Except ε β} (h : r = .ok a)
    (hf : f a = x) : (r >>= f) = x := by
  subst h
  exact hf

/-- Nothing follows a failure. -/
theorem bind_of_error {r : Except ε α} {f : α → Except ε β} {e : ε} (h : r = .error e) :
    (r >>= f) = .error e := by
  subst h
  rfl

/-- What follows equal results is equal where it is for each of them. -/
theorem bind_congr_ok {r : Except ε α} {f g : α → Except ε β} (h : ∀ a, r = .ok a → f a = g a) :
    (r >>= f) = (r >>= g) := by
  cases r with
  | error e => rfl
  | ok a => exact h a rfl

theorem answerOf_bind_congr {r : Except ε α} {f g : α → Except ε (β × Tables)}
    (h : ∀ a, r = .ok a → answerOf (f a) = answerOf (g a)) :
    answerOf (r >>= f) = answerOf (r >>= g) := by
  cases r with
  | error e => rfl
  | ok a => exact h a rfl

theorem answerOf_asPart (f : α → β) : answerOf (asPart f m) = (answerOf m).map f := by
  cases m <;> rfl

theorem mapError_of_ok {δ : Type} {r : Except ε α} {f : ε → δ} {a : α} (h : r = .ok a) :
    r.mapError f = .ok a := by
  subst h
  rfl

theorem bind_error {r : Except ε α} {f : α → Except ε β} {e : ε} (h : (r >>= f) = .error e) :
    r = .error e ∨ ∃ a, r = .ok a ∧ f a = .error e := by
  cases r with
  | error e' => exact .inl (congrArg _ (Except.error.inj h))
  | ok a => exact .inr ⟨a, rfl, h⟩

theorem map_ok {f : α → β} {r : Except ε α} {b : β} (h : r.map f = .ok b) :
    ∃ a, r = .ok a ∧ f a = b := by
  cases r with
  | error e => cases h
  | ok a => exact ⟨a, rfl, Except.ok.inj h⟩

theorem map_error {f : α → β} {r : Except ε α} {e : ε} (h : r.map f = .error e) :
    r = .error e := by
  cases r with
  | error e' => exact congrArg _ (Except.error.inj h)
  | ok a => cases h

theorem mapError_ok {δ : Type} {r : Except ε α} {f : ε → δ} {a : α} (h : r.mapError f = .ok a) :
    r = .ok a := by
  cases r with
  | error e => cases h
  | ok b => exact congrArg _ (Except.ok.inj h)

theorem mapError_error {δ : Type} {r : Except ε α} {f : ε → δ} {e : δ}
    (h : r.mapError f = .error e) : ∃ e', r = .error e' ∧ f e' = e := by
  cases r with
  | error e' => exact ⟨e', rfl, Except.error.inj h⟩
  | ok b => cases h

theorem andRead_ok {g : α → Tables → Except ε β} {b : β} (h : andRead m g = .ok (b, t)) :
    ∃ a, m = .ok (a, t) ∧ g a t = .ok b := by
  obtain ⟨⟨a, t'⟩, rfl, h⟩ := bind_ok h
  replace h : (g a t').map (fun b => (b, t')) = .ok (b, t) := h
  cases hg : g a t' with
  | error e =>
    rw [hg] at h
    cases h
  | ok b' =>
    rw [hg] at h
    obtain ⟨rfl, rfl⟩ := Prod.mk.inj (Except.ok.inj h)
    exact ⟨a, rfl, hg⟩

theorem andRead_error {g : α → Tables → Except ε β} {e : ε} (h : andRead m g = .error e) :
    m = .error e ∨ ∃ a t, m = .ok (a, t) ∧ g a t = .error e := by
  rcases bind_error h with h | ⟨⟨a, t'⟩, rfl, h⟩
  · exact .inl h
  · replace h : (g a t').map (fun b => (b, t')) = .error e := h
    cases hg : g a t' with
    | ok b =>
      rw [hg] at h
      cases h
    | error e' =>
      rw [hg] at h
      exact .inr ⟨a, t', rfl, hg.trans (congrArg _ (Except.error.inj h))⟩

theorem asPart_ok {f : α → β} {b : β} (h : asPart f m = .ok (b, t)) :
    ∃ a, m = .ok (a, t) ∧ f a = b := by
  cases m with
  | error e => cases h
  | ok x =>
    obtain ⟨rfl, rfl⟩ := Prod.mk.inj (Except.ok.inj h)
    exact ⟨x.1, rfl, rfl⟩

theorem asPart_error {f : α → β} {e : ε} (h : asPart f m = .error e) : m = .error e := by
  cases m with
  | error e' => exact congrArg _ (Except.error.inj h)
  | ok x => cases h

end Results

/-! ### The first of several faults -/

section First

variable {r : Except ε α}

/-- A result that is a failure with the first of the faults, if there are any. -/
def ReportsFirst (r : Except ε α) : List ε → Prop
  | [] => ∃ a, r = .ok a
  | e :: _ => r = .error e

theorem ReportsFirst.bind {f : α → Except ε β} {faults later : List ε}
    (hr : ReportsFirst r faults) (hf : ∀ a, r = .ok a → ReportsFirst (f a) later) :
    ReportsFirst (r >>= f) (faults ++ later) := by
  cases faults with
  | nil =>
    obtain ⟨a, rfl⟩ := hr
    exact hf a rfl
  | cons e rest => exact bind_of_error hr

theorem ReportsFirst.map {f : α → β} {faults : List ε} (hr : ReportsFirst r faults) :
    ReportsFirst (r.map f) faults := by
  cases faults with
  | nil =>
    obtain ⟨a, rfl⟩ := hr
    exact ⟨f a, rfl⟩
  | cons e rest =>
    obtain rfl : r = .error e := hr
    rfl

theorem ReportsFirst.ok_iff {faults : List ε} (hr : ReportsFirst r faults) :
    (∃ a, r = .ok a) ↔ faults = [] := by
  cases faults with
  | nil => exact ⟨fun _ => rfl, fun _ => hr⟩
  | cons e rest =>
    obtain rfl : r = .error e := hr
    refine ⟨?_, nofun⟩
    rintro ⟨a, h⟩
    cases h

theorem ReportsFirst.error_iff {faults : List ε} (hr : ReportsFirst r faults) (e : ε) :
    r = .error e ↔ faults.head? = some e := by
  cases faults with
  | nil =>
    obtain ⟨a, rfl⟩ := hr
    exact ⟨nofun, nofun⟩
  | cons first rest =>
    obtain rfl : r = .error first := hr
    rw [List.head?_cons, Option.some_inj]
    exact ⟨Except.error.inj, congrArg Except.error⟩

end First

namespace Program

/-- How a program ends: with a result, and leaving a database. -/
structure Ends (p : Program α) (db : Database) (r : Except CatalogError α) (after : Database) :
    Prop where
  result : (p.run Database.serve db).result = r
  state : (p.run Database.serve db).state = after

/-- The program only reads, and ends with a result. -/
def Reads (p : Program α) (db : Database) (r : Except CatalogError α) : Prop :=
  p.Ends db r db

/-- The program ends as a function of the tables says, or is refused by a guarded column. -/
def Meets (p : Program α) (db : Database) (m : Except CatalogError (α × Tables)) : Prop :=
  p.Ends db (answerOf m) (db.left m) ∨ db.locked ≠ none ∧ p.Ends db (.error .storage) db

variable {p : Program α} {f : α → Program β} {a : α}

/-! ### How programs end -/

theorem Ends.bind {r : Except CatalogError β} (h : p.Ends db (.ok a) mid)
    (hf : (f a).Ends mid r after) : (p >>= f).Ends db r after := by
  have hrun := run_bind Database.serve p f db
  simp only [h.result, h.state] at hrun
  exact ⟨(congrArg Outcome.result hrun).trans hf.result,
    (congrArg Outcome.state hrun).trans hf.state⟩

theorem Ends.bind_error (h : p.Ends db (.error e) after) : (p >>= f).Ends db (.error e) after := by
  have hrun := run_bind Database.serve p f db
  simp only [h.result, h.state] at hrun
  exact ⟨congrArg Outcome.result hrun, congrArg Outcome.state hrun⟩

theorem ends_pure (a : α) : (pure a : Program α).Ends db (.ok a) db :=
  ⟨rfl, rfl⟩

theorem ends_fail (e : CatalogError) : (fail e : Program α).Ends db (.error e) db :=
  ⟨rfl, rfl⟩

theorem Ends.log {r : Except CatalogError α} (line : LogLine) (h : p.Ends db r after) :
    (log line p).Ends db r after :=
  ⟨h.result, h.state⟩

theorem ends_note (level : LogLevel) (message : String) :
    (note level message).Ends db (.ok ()) db :=
  ⟨rfl, rfl⟩

theorem ends_request {r : Request α} {explain : StoreError → CatalogError}
    {x : Except StoreError α} (h : db.serve r = (x, after)) :
    (request r explain).Ends db (x.mapError explain) after := by
  cases x with
  | ok a => exact ⟨by simp only [request, run, h]; rfl, by simp only [request, run, h]⟩
  | error e => exact ⟨by simp only [request, run, h]; rfl, by simp only [request, run, h]⟩

theorem Ends.mapError {r : Except CatalogError α} {g : CatalogError → CatalogError}
    (h : p.Ends db r after) : (p.mapError g).Ends db (r.mapError g) after := by
  induction p generalizing db with
  | done a =>
    obtain ⟨rfl, rfl⟩ := h
    exact ⟨rfl, rfl⟩
  | fail e =>
    obtain ⟨rfl, rfl⟩ := h
    exact ⟨rfl, rfl⟩
  | log line next ih => exact (ih ⟨h.result, h.state⟩).log line
  | call q explain next ih =>
    cases hq : db.serve q with
    | mk x mid =>
      obtain ⟨hresult, hstate⟩ := h
      cases x with
      | ok b =>
        simp only [run, hq] at hresult hstate
        have hnext := ih b ⟨hresult, hstate⟩
        exact ⟨by simpa only [Program.mapError, run, hq] using hnext.result,
          by simpa only [Program.mapError, run, hq] using hnext.state⟩
      | error e =>
        -- a request that fails ends the program, so the error is changed right here
        simp only [run, hq] at hresult hstate
        subst hresult hstate
        exact ⟨by simp only [Program.mapError, run, hq]; rfl,
          by simp only [Program.mapError, run, hq]⟩

/-! ### Programs that read -/

namespace Reads

/-- Reading one thing after another. -/
theorem bind {r : Except CatalogError α} {g : α → Except CatalogError β} (hp : p.Reads db r)
    (hf : ∀ a, r = .ok a → (f a).Reads db (g a)) : (p >>= f).Reads db (r >>= g) := by
  cases r with
  | ok a => exact Ends.bind hp (hf a rfl)
  | error e => exact Ends.bind_error hp

theorem pure (a : α) : (Pure.pure a : Program α).Reads db (.ok a) :=
  ends_pure a

theorem fail (e : CatalogError) : (Program.fail e : Program α).Reads db (.error e) :=
  ends_fail e

theorem ofExcept {explain : ε → CatalogError} (r : Except ε α) :
    (Program.ofExcept explain r).Reads db (r.mapError explain) := by
  cases r with
  | ok a => exact ends_pure a
  | error e => exact ends_fail _

/-- A check, or what has been read already. -/
theorem ofExcept_id (r : Except CatalogError α) : (Program.ofExcept id r).Reads db r := by
  cases r with
  | ok a => exact ends_pure a
  | error e => exact ends_fail e

theorem request {r : Request α} {explain : StoreError → CatalogError} {x : Except StoreError α}
    (h : db.serve r = (x, db)) : (Program.request r explain).Reads db (x.mapError explain) :=
  ends_request h

theorem mapError {r : Except CatalogError α} {g : CatalogError → CatalogError} (h : p.Reads db r) :
    (p.mapError g).Reads db (r.mapError g) :=
  Ends.mapError h

theorem ite {c : Prop} [Decidable c] {q : Program α} {r s : Except CatalogError α}
    (hp : c → p.Reads db r) (hq : ¬ c → q.Reads db s) :
    (if c then p else q).Reads db (if c then r else s) := by
  split
  case isTrue h => exact hp h
  case isFalse h => exact hq h

end Reads

/-! ### Programs that write -/

namespace Meets

/-- What only reads leaves the tables. -/
theorem of_reads {r : Except CatalogError α} (h : p.Reads db r) :
    p.Meets db (r.map fun a => (a, db.tables)) := by
  cases r with
  | ok a => exact .inl h
  | error e => exact .inl h

theorem request {r : Request α} {explain : StoreError → CatalogError}
    {m : Except StoreError (α × Tables)} (h : db.Serves r m)
    (hfailed : explain .failed = .storage) :
    (Program.request r explain).Meets db (m.mapError explain) := by
  rcases h with h | ⟨hlocked, h⟩
  · cases m with
    | ok x => exact .inl (ends_request h)
    | error e => exact .inl (ends_request h)
  · exact .inr ⟨hlocked, hfailed ▸ ends_request h⟩

/-- Reading before something else. -/
theorem bind_reads {r : Except CatalogError α} {m : α → Except CatalogError (β × Tables)}
    (hp : p.Reads db r) (hf : ∀ a, r = .ok a → (f a).Meets db (m a)) :
    (p >>= f).Meets db (r >>= m) := by
  cases r with
  | ok a =>
    rcases hf a rfl with h | ⟨hlocked, h⟩
    · exact .inl (Ends.bind hp h)
    · exact .inr ⟨hlocked, Ends.bind hp h⟩
  | error e => exact .inl (Ends.bind_error hp)

/-- Going on with what has been written, unless it could not be written. -/
theorem bind {m : Except CatalogError (α × Tables)} {m' : Except CatalogError (β × Tables)}
    (hp : p.Meets db m) (herror : ∀ e, m = .error e → m' = .error e)
    (hok : ∀ a t, m = .ok (a, t) →
      (f a).Ends { db with tables := t } (answerOf m') (db.left m')) : (p >>= f).Meets db m' := by
  rcases hp with hp | ⟨hlocked, hp⟩
  · cases m with
    | ok x => exact .inl (Ends.bind hp (hok x.1 x.2 rfl))
    | error e =>
      rw [herror e rfl]
      exact .inl (Ends.bind_error hp)
  · exact .inr ⟨hlocked, Ends.bind_error hp⟩

/-- Reading what can be read once something has been written. -/
theorem and_reads {m : Except CatalogError (α × Tables)}
    {g : α → Tables → Except CatalogError β} (hp : p.Meets db m)
    (hf : ∀ a t, m = .ok (a, t) →
      (f a).Reads { db with tables := t } (g a t) ∧ ∃ b, g a t = .ok b) :
    (p >>= f).Meets db (andRead m g) := by
  refine hp.bind (fun e he => ?_) fun a t hm => ?_
  · rw [he]
    rfl
  · obtain ⟨hreads, b, hb⟩ := hf a t hm
    rw [hb] at hreads
    simp only [andRead, hm, Bind.bind, Except.bind, hb]
    exact hreads

/-- Saying something about it once something has been written. -/
theorem and_then {f : α → Program α} {m : Except CatalogError (α × Tables)} (hp : p.Meets db m)
    (hf : ∀ a mid, (f a).Ends mid (.ok a) mid) : (p >>= f).Meets db m := by
  refine hp.bind (fun _ he => he) fun a t hm => ?_
  rw [hm]
  exact hf a _

/-- Replying with something made of what has been read or written. -/
theorem as_part {m : Except CatalogError (α × Tables)} {g : α → β} (hp : p.Meets db m)
    (hf : ∀ a mid, (f a).Ends mid (.ok (g a)) mid) : (p >>= f).Meets db (asPart g m) := by
  refine hp.bind (fun e he => ?_) fun a t hm => ?_
  · rw [he]
    rfl
  · rw [hm]
    exact hf a _

/-- Saying something first. -/
theorem after_note {level : LogLevel} {message : String} {k : Unit → Program α}
    {m : Except CatalogError (α × Tables)} (h : (k ()).Meets db m) :
    (note level message >>= k).Meets db m :=
  h.imp (Ends.bind (ends_note _ _)) fun ⟨hlocked, h⟩ => ⟨hlocked, Ends.bind (ends_note _ _) h⟩

end Meets
end Program
end TableStore
