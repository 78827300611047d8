import TableStore.Proofs.Replacement
import TableStore.Proofs.VisitOrder
import TableStore.Proofs.WellFormed

/-!
# Where the decoder stops

Reading a document fails at the first complaint. `Query.Stops` says where that is: at which part, in
which role the decoder reads the part, and which parts it has read by then. What it has read is
well-formed (`Query.Stops.passed_wellFormed`), and nothing that comes later matters
(`Query.Stops.put`). Beside the way to the stop, what comes before it has been read, and what comes
after it has not (`Query.Stops.passed_or_later`).
-/

namespace TableStore.Query

open Json (Address Step)

variable {limits : Limits} {role : Role} {j : Json}

/-! ### Where the decoder stops -/

/-- Where the decoder stops: the address of the part that it complains about, the role that it
reads the part in, the complaint, and the parts that it has read by then with their roles. -/
structure Stop where
  address : Address
  role : Role
  complaint : Complaint
  passed : List (Address × Role)

/-- The parts that are gone to, with their addresses. -/
def visited (visits : List Visit) : List (Address × Role) :=
  (parts visits).map fun x => ([x.1], x.2)

/-- The decoder stops at a part itself, after some visits. -/
def Stop.here (role : Role) (c : Complaint) (earlier : List Visit) : Stop :=
  ⟨[], role, c, visited earlier⟩

/-- The decoder stops inside of a part that it visits after others. -/
def Stop.inside (s : Step) (earlier : List Visit) (stop : Stop) : Stop :=
  { stop with
    address := s :: stop.address
    passed := visited earlier ++ stop.passed.map fun x => (s :: x.1, x.2) }

/-- `Stops limits role j stop`: reading `j` in the role, the decoder stops there. What it visits
before is without complaints. -/
inductive Stops (limits : Limits) : Role → Json → Stop → Prop where
  | here {role : Role} {j : Json} {earlier later : List Visit} {c : Complaint}
    (hvisits : role.visits limits j = earlier ++ .complain c :: later)
    (hearlier : ∀ v ∈ earlier, v.complaints limits j = []) :
    Stops limits role j (.here role c earlier)
  | inside {role r : Role} {j part : Json} {earlier later : List Visit} {s : Step} {stop : Stop}
    (hvisits : role.visits limits j = earlier ++ .part s r :: later)
    (hearlier : ∀ v ∈ earlier, v.complaints limits j = [])
    (hpart : j.step? s = some part) (h : Stops limits r part stop) :
    Stops limits role j (stop.inside s earlier)

variable {stop : Stop}

theorem mem_visited {visits : List Visit} {p : Address × Role} :
    p ∈ visited visits ↔ ∃ s r, .part s r ∈ visits ∧ p = ([s], r) := by
  rw [visited, List.mem_map]
  constructor
  · rintro ⟨⟨s, r⟩, h, rfl⟩
    exact ⟨s, r, mem_parts.mp h, rfl⟩
  · rintro ⟨s, r, h, rfl⟩
    exact ⟨(s, r), mem_parts.mpr h, rfl⟩

/-- The decoder stops at the first complaint. -/
theorem Stops.head? (h : Stops limits role j stop) :
    (role.complaints limits j).head? = some (stop.address, stop.complaint) := by
  induction h with
  | here hvisits hearlier =>
    rw [Role.complaints_eq, hvisits, List.flatMap_append, List.flatMap_eq_nil_iff.mpr hearlier]
    rfl
  | inside hvisits hearlier hpart h ih =>
    rw [Role.complaints_eq, hvisits, List.flatMap_append, List.flatMap_eq_nil_iff.mpr hearlier,
      List.nil_append, List.flatMap_cons, Visit.complaints, hpart, Option.map_some,
      Option.getD_some, List.head?_append, List.head?_map, ih]
    rfl

/-- It stops, if there are complaints. -/
theorem exists_stops (h : role.complaints limits j ≠ []) : ∃ stop, Stops limits role j stop := by
  induction hsize : sizeOf j using Nat.strongRecOn generalizing j role with
  | ind n ih =>
    subst hsize
    -- the first visit that leads to complaints
    have hfirst : ∃ v earlier later, role.visits limits j = earlier ++ v :: later ∧
        v.complaints limits j ≠ [] ∧ ∀ u ∈ earlier, u.complaints limits j = [] := by
      rw [Role.complaints_eq, ne_eq, List.flatMap_eq_nil_iff] at h
      push Not at h
      obtain ⟨v, hv, hne⟩ := h
      cases hfind : (role.visits limits j).find? fun v => !(v.complaints limits j).isEmpty with
      | none => exact absurd (by simpa using List.find?_eq_none.mp hfind v hv) hne
      | some v =>
        obtain ⟨hv, earlier, later, heq, hearlier⟩ := List.find?_eq_some_iff_append.mp hfind
        exact ⟨v, earlier, later, heq, by simpa using hv, by simpa using hearlier⟩
    obtain ⟨v, earlier, later, hvisits, hne, hearlier⟩ := hfirst
    cases v with
    | complain c => exact ⟨_, .here hvisits hearlier⟩
    | part s r =>
      rw [Visit.complaints] at hne
      cases hpart : j.step? s with
      | none => exact absurd (by rw [hpart]; rfl) hne
      | some part =>
        have hcomplaints : r.complaints limits part ≠ [] := fun hnil =>
          hne (by rw [hpart]; simp [hnil])
        obtain ⟨stop, hstop⟩ := ih _ (Json.sizeOf_lt_of_step? hpart) hcomplaints rfl
        exact ⟨_, .inside hvisits hearlier hpart hstop⟩

/-- Reading a document fails with what the decoder stops at. -/
theorem decode_eq_error_iff {document : Json} {e : QueryError} :
    decode limits document = .error e ↔
      ∃ stop, Stops limits .document document stop ∧
        stop.complaint.error stop.address.tail = e := by
  rw [(decode_reportsFirst limits document).error_iff e, List.head?_map]
  constructor
  · intro h
    have hne : Role.document.complaints limits document ≠ [] := by
      rintro hnil
      rw [hnil] at h
      cases h
    obtain ⟨stop, hstop⟩ := exists_stops hne
    rw [hstop.head?] at h
    exact ⟨stop, hstop, Option.some.inj h⟩
  · rintro ⟨stop, hstop, rfl⟩
    rw [hstop.head?]
    rfl

/-! ### Nothing that comes later matters -/

/-- The address leads to something that the decoder has not read when it stops: not to the part
where it stops or to one that holds it, and not into a part that it has read. -/
def Stop.Later (stop : Stop) (address : Address) : Prop :=
  ¬ address <+: stop.address ∧ ∀ p ∈ stop.passed, ¬ p.1 <+: address

/-- Visits are not touched by what is replaced in a part that they do not go to. -/
theorem complaints_put {visits : List Visit} {s : Step} {rest : Address} (part : Json)
    (hvisited : ∀ p ∈ visited visits, ¬ p.1 <+: s :: rest)
    (h : ∀ v ∈ visits, v.complaints limits j = []) :
    ∀ v ∈ visits, v.complaints limits (j.put (s :: rest) part) = [] := by
  intro v hv
  rw [← h v hv]
  cases v with
  | complain c => rfl
  | part t r =>
    have hne : t ≠ s := by
      rintro rfl
      exact hvisited ([t], r) (mem_visited.mpr ⟨t, r, hv, rfl⟩) (List.prefix_append [t] rest)
    rw [Visit.complaints, Visit.complaints, Json.step?_put, if_neg hne]

/-- **Replacing something that comes later changes nothing about where the decoder stops.** -/
theorem Stops.put (h : Stops limits role j stop) {address : Address} (hlater : stop.Later address)
    (part : Json) : Stops limits role (j.put address part) stop := by
  induction h generalizing address with
  | here hvisits hearlier =>
    obtain ⟨habove, hpassed⟩ := hlater
    cases address with
    | nil => exact absurd List.nil_prefix habove
    | cons s rest =>
      exact .here ((Role.visits_congr Json.sameOutline_put).trans hvisits)
        (complaints_put part hpassed hearlier)
  | @inside role r j inner earlier later s stop hvisits hearlier hpart h ih =>
    obtain ⟨habove, hpassed⟩ := hlater
    cases address with
    | nil => exact absurd List.nil_prefix habove
    | cons t rest =>
      have hvisits' : role.visits limits (j.put (t :: rest) part) =
          earlier ++ .part s r :: later :=
        (Role.visits_congr Json.sameOutline_put).trans hvisits
      have hearlier' := complaints_put part
        (fun p hp => hpassed p (List.mem_append_left _ hp)) hearlier
      by_cases hstep : s = t
      · subst hstep
        have hlater : stop.Later rest := by
          refine ⟨fun hrest => habove ((List.prefix_cons_inj s).mpr hrest), fun p hp hrest => ?_⟩
          refine hpassed (s :: p.1, p.2) ?_ ((List.prefix_cons_inj s).mpr hrest)
          exact List.mem_append_right _ (List.mem_map.mpr ⟨p, hp, rfl⟩)
        refine .inside hvisits' hearlier' ?_ (ih hlater)
        rw [Json.step?_put, if_pos rfl, hpart]
        rfl
      · refine .inside hvisits' hearlier' ?_ h
        rw [Json.step?_put, if_neg hstep, hpart]

theorem Stops.putAll (h : Stops limits role j stop) {edits : List (Address × Json)}
    (hlater : ∀ edit ∈ edits, stop.Later edit.1) : Stops limits role (j.putAll edits) stop := by
  induction edits generalizing j with
  | nil => exact h
  | cons edit rest ih =>
    obtain ⟨hedit, hrest⟩ := List.forall_mem_cons.mp hlater
    exact ih (h.put hedit edit.2) hrest

/-! ### What has been read is well-formed -/

/-- The part where the decoder stops. -/
theorem Stops.exists_node (h : Stops limits role j stop) : ∃ node,
    j.at? stop.address = some node ∧ .complain stop.complaint ∈ stop.role.visits limits node := by
  induction h with
  | here hvisits _ => exact ⟨_, rfl, hvisits ▸ List.mem_append_right _ List.mem_cons_self⟩
  | inside _ _ hpart _ ih =>
    obtain ⟨node, hnode, hmem⟩ := ih
    exact ⟨node, Option.bind_eq_some_iff.mpr ⟨_, hpart, hnode⟩, hmem⟩

/-- **What the decoder has read when it stops is well-formed.** -/
theorem Stops.passed_wellFormed (h : Stops limits role j stop) :
    ∀ p ∈ stop.passed, ∃ part, j.at? p.1 = some part ∧ p.2.WellFormed limits part := by
  have hvisited {role : Role} {j : Json} {earlier later : List Visit}
      (hvisits : role.visits limits j = earlier ++ later)
      (hearlier : ∀ v ∈ earlier, v.complaints limits j = []) :
      ∀ p ∈ visited earlier, ∃ part, j.at? p.1 = some part ∧ p.2.WellFormed limits part := by
    intro p hp
    obtain ⟨s, r, hvisit, rfl⟩ := mem_visited.mp hp
    obtain ⟨part, hpart⟩ := (role.tours limits j).exists_part s r
      (hvisits ▸ List.mem_append_left _ hvisit)
    have hnil := hearlier _ hvisit
    rw [Visit.complaints, hpart, Option.map_some, Option.getD_some, List.map_eq_nil_iff,
      Role.complaints_eq_nil] at hnil
    exact ⟨part, Option.bind_eq_some_iff.mpr ⟨part, hpart, rfl⟩, hnil⟩
  induction h with
  | here hvisits hearlier => exact hvisited hvisits hearlier
  | inside hvisits hearlier hpart _ ih =>
    intro p hp
    rcases List.mem_append.mp hp with hp | hp
    · exact hvisited hvisits hearlier p hp
    · obtain ⟨q, hq, rfl⟩ := List.mem_map.mp hp
      obtain ⟨part, hinner, hform⟩ := ih q hq
      exact ⟨part, Option.bind_eq_some_iff.mpr ⟨_, hpart, hinner⟩, hform⟩

/-- Beside the way to the stop, parts that come before it have been read, and parts that come after
it have not. -/
theorem Stops.passed_or_later (h : Stops limits role j stop) {front rest : Address} {s t : Step}
    (haddress : stop.address = front ++ s :: rest) :
    (Before t s → ∀ part, j.at? (front ++ [t]) = some part →
      ∃ r, (front ++ [t], r) ∈ stop.passed) ∧
    (Before s t → ∀ more, stop.Later (front ++ t :: more)) := by
  induction h generalizing front with
  | here _ _ => simp [Stop.here] at haddress
  | @inside role r j inner earlier later s' stop hvisits hearlier hpart _ ih =>
    have htours : Tours j (earlier ++ .part s' r :: later) := hvisits ▸ role.tours limits j
    have hearlier_mem {p : Address × Role} (hp : p ∈ visited earlier) :
        ∃ u, p.1 = [u] ∧ Before u s' := by
      obtain ⟨u, r', hmem, rfl⟩ := mem_visited.mp hp
      exact ⟨u, rfl, htours.split.1 u r' hmem⟩
    cases front with
    | nil =>
      obtain ⟨rfl, -⟩ := List.cons.inj haddress
      refine ⟨fun hbefore part hat => ?_, fun hbefore more => ⟨fun habove => ?_, fun p hp => ?_⟩⟩
      · obtain ⟨part', ht, -⟩ := Option.bind_eq_some_iff.mp hat
        obtain ⟨r', hmem⟩ := htours.mem_earlier hearlier hbefore ht
        exact ⟨r', List.mem_append_left _ (mem_visited.mpr ⟨t, r', hmem, rfl⟩)⟩
      · exact hbefore.ne (List.cons_prefix_cons.mp habove).1.symm
      · rcases List.mem_append.mp hp with hp | hp
        · obtain ⟨u, hu, hus⟩ := hearlier_mem hp
          rw [hu]
          intro habove
          obtain rfl := (List.cons_prefix_cons.mp habove).1
          exact hus.asymm hbefore
        · obtain ⟨x, -, rfl⟩ := List.mem_map.mp hp
          exact fun habove => hbefore.ne (List.cons_prefix_cons.mp habove).1
    | cons u front =>
      obtain ⟨rfl, hrest⟩ := List.cons.inj haddress
      obtain ⟨hpassed, hlater⟩ := ih hrest
      refine ⟨fun hbefore part hat => ?_, fun hbefore more => ⟨fun habove => ?_, fun p hp => ?_⟩⟩
      · obtain ⟨inner', hinner, hat⟩ := Option.bind_eq_some_iff.mp hat
        obtain rfl := Option.some.inj (hpart.symm.trans hinner)
        obtain ⟨r', hmem⟩ := hpassed hbefore part hat
        exact ⟨r', List.mem_append_right _ (List.mem_map.mpr ⟨_, hmem, rfl⟩)⟩
      · exact (hlater hbefore more).1 (List.cons_prefix_cons.mp habove).2
      · rcases List.mem_append.mp hp with hp | hp
        · obtain ⟨u, hu, hus⟩ := hearlier_mem hp
          rw [hu]
          exact fun habove => hus.ne (List.cons_prefix_cons.mp habove).1
        · obtain ⟨x, hx, rfl⟩ := List.mem_map.mp hp
          exact fun habove => (hlater hbefore more).2 x hx (List.cons_prefix_cons.mp habove).2

end TableStore.Query
