import TableStore.Proofs.Decoding

/-!
# What the decoder visits

A query document is read part by part. What a part is read as is its role (`Query.Role`); in a role
the decoder checks the part and goes on to smaller parts, all in a fixed order
(`Query.Role.visits`). What it visits depends on the outline of the part only: the keys of an
object, the number of items in an array, and scalars.

All complaints about a document, each with the address of the part that it is about, are collected
along this order (`Query.Role.complaints`). The decoder stops at the first of them
(`Query.decode_reportsFirst`), so a document is read if there are none.
-/

namespace TableStore

namespace Json

/-- The keys, if the document is an object. -/
def keys? (j : Json) : Option (List String) :=
  j.members?.map Members.keys

/-- The number of items, if the document is an array. -/
def count? (j : Json) : Option Nat :=
  j.items?.map List.length

def isNull : Json → Bool
  | .null => true
  | _ => false

variable {j : Json}

theorem keys?_eq_none : j.keys? = none ↔ ∀ members, j ≠ .obj members := by
  cases j <;> simp [keys?, members?]

theorem keys?_eq_some {keys : List String} :
    j.keys? = some keys ↔ ∃ members, j = .obj members ∧ Members.keys members = keys := by
  cases j <;> simp [keys?, members?]

theorem count?_eq_none : j.count? = none ↔ ∀ items, j ≠ .arr items := by
  cases j <;> simp [count?, items?]

theorem count?_eq_some {n : Nat} :
    j.count? = some n ↔ ∃ items, j = .arr items ∧ items.length = n := by
  cases j <;> simp [count?, items?]

/-- A part that is one step away is smaller. -/
theorem sizeOf_lt_of_step? {part : Json} {s : Step} (h : j.step? s = some part) :
    sizeOf part < sizeOf j := by
  cases s with
  | key k =>
    obtain ⟨members, hmembers, hget⟩ := Option.bind_eq_some_iff.mp h
    cases j with
    | obj members' =>
      obtain rfl := Option.some.inj hmembers
      have hmem : (k, part) ∈ members' := by
        clear h hmembers
        induction members' with
        | nil => cases hget
        | cons m rest ih =>
          obtain ⟨k', v⟩ := m
          rw [Members.get?] at hget
          split at hget
          · next heq =>
            obtain rfl := heq
            obtain rfl := Option.some.inj hget
            exact List.mem_cons_self
          · exact List.mem_cons_of_mem _ (ih hget)
      have hlt := List.sizeOf_lt_of_mem hmem
      simp only [Prod.mk.sizeOf_spec] at hlt
      rw [Json.obj.sizeOf_spec]
      omega
    | _ => cases hmembers
  | index i =>
    obtain ⟨items, hitems, hget⟩ := Option.bind_eq_some_iff.mp h
    cases j with
    | arr items' =>
      obtain rfl := Option.some.inj hitems
      have hlt := List.sizeOf_lt_of_mem (List.mem_of_getElem? hget)
      rw [Json.arr.sizeOf_spec]
      omega
    | _ => cases hitems

end Json

namespace Query

open Json (Address Step)

/-! ### Roles -/

/-- What a part of a query document is read as. -/
inductive Role where
  | document
  | insert
  | select
  | bare
  | columnRefs
  | columnRef
  | rows
  | row
  | cell
  | outputs
  | filter
  | sorts
  | sort
  | direction
  | offset
  | limit
  | expr
  | metadata
  | column
  | literal
  | func
  | name
  | args
  | operands
  | unknown (key : String)
deriving DecidableEq

/-- The two numbers of a window. -/
inductive Window where
  | offset
  | limit
deriving DecidableEq

def Window.tooLarge : Window → Nat → Nat → QueryError
  | .offset => .offsetTooLarge
  | .limit => .limitTooLarge

/-- What a document is refused for: a fault of one of its parts, or a window that is too large, of
which no address is told. -/
inductive Complaint where
  | fault (f : Fault)
  | tooLarge (window : Window) (n max : Nat)
deriving DecidableEq

/-- The error that a complaint about the part at an address is reported as. -/
def Complaint.error (address : Address) : Complaint → QueryError
  | .fault f => .malformed address f
  | .tooLarge window n max => window.tooLarge n max

/-- One thing that the decoder does with a part: it complains, or goes on to a smaller part. -/
inductive Visit where
  | complain (c : Complaint)
  | part (step : Step) (role : Role)
deriving DecidableEq

/-! ### Visits -/

/-- The role of the body of a query. -/
def Role.ofKind : Kind → Role
  | .insert => .insert
  | .select => .select
  | .update | .delete => .bare

/-- The role of the payload of an expression, by its key. The operand of an operator with one
operand is an expression itself. -/
def Role.ofKey (key : String) : Role :=
  if key = "metadata" then .metadata
  else if key = "column" then .column
  else if key = "value" then .literal
  else if key = "func" then .func
  else
    match BinaryOp.read? key, UnaryOp.read? key with
    | some _, _ => .operands
    | none, some _ => .expr
    | none, none => .unknown key

/-- Complains of a fault unless a check is passed. -/
def check (passed : Bool) (f : Fault) : List Visit :=
  if passed then [] else [.complain (.fault f)]

/-- A field of an object: its value has a role, and it may be that something is to be said where it
is absent. -/
structure Slot where
  key : String
  role : Role
  absent : List Visit

/-- A field that has to be there. -/
def Slot.required (key : String) (role : Role) : Slot :=
  ⟨key, role, [.complain (.fault (.missingField key))]⟩

/-- A field that may be absent. -/
def Slot.optional (key : String) (role : Role) : Slot :=
  ⟨key, role, []⟩

def Slot.visits (keys : List String) (s : Slot) : List Visit :=
  if s.key ∈ keys then [.part (.key s.key) s.role] else s.absent

/-- Complains of the first key that is not an allowed one. -/
def unknownField (allowed keys : List String) : List Visit :=
  ((keys.find? fun key => !allowed.contains key).map fun key =>
    .complain (.fault (.unknownField key))).toList

/-- An object with the given fields, which are visited in their order. -/
def objectVisits (slots : List Slot) (j : Json) : List Visit :=
  match j.keys? with
  | none => [.complain (.fault .notAnObject)]
  | some keys => unknownField (slots.map Slot.key) keys ++ slots.flatMap (Slot.visits keys)

/-- An array, whose items are visited from the first to the last. -/
def itemVisits (role : Role) (j : Json) : List Visit :=
  match j.count? with
  | none => [.complain (.fault .notAnArray)]
  | some n => (List.range n).map fun i => .part (.index i) role

/-- An object with one key, whose payload has a role by its key. -/
def payloadVisits (visit : String → Visit) (j : Json) : List Visit :=
  match j.keys? with
  | none => [.complain (.fault .notAnObject)]
  | some [key] => [visit key]
  | some _ => [.complain (.fault .notOneKey)]

/-- A query by its kind. -/
def kindVisit (key : String) : Visit :=
  match Kind.read? key with
  | some kind => .part (.key key) (.ofKind kind)
  | none => .complain (.fault (.unknownKind key))

/-- An expression. -/
def exprVisits (j : Json) : List Visit :=
  payloadVisits (fun key => .part (.key key) (.ofKey key)) j

/-- A natural number that may be `null` and has a greatest value. -/
def windowVisits (window : Window) (default max : Nat) (j : Json) : List Visit :=
  match if j.isNull then some default else j.natural? with
  | none => [.complain (.fault .notNatural)]
  | some n => if max < n then [.complain (.tooLarge window n max)] else []

def offsetVisits (j : Json) : List Visit :=
  windowVisits .offset 0 maxOffset j

def limitVisits (limits : Limits) (j : Json) : List Visit :=
  windowVisits .limit limits.default limits.max j

/-- The fields of an object in a role. A limit that is absent is the default, which may be too
large. -/
def Role.slots (limits : Limits) : Role → List Slot
  | .insert => [.required "columns" .columnRefs, .required "values" .rows]
  | .select =>
    [.required "columns" .outputs, .optional "where" .filter, .optional "order_by" .sorts,
      ⟨"offset", .offset, offsetVisits .null⟩, ⟨"limit", .limit, limitVisits limits .null⟩]
  | .sort => [.required "expr" .expr, .optional "direction" .direction]
  | .func => [.required "name" .name, .optional "args" .args]
  | _ => []

/-- What the decoder does with a part in a role, in its order. -/
def Role.visits (limits : Limits) (role : Role) (j : Json) : List Visit :=
  match role with
  | .document => payloadVisits kindVisit j
  | .insert | .select | .sort | .func => objectVisits (role.slots limits) j
  | .bare => check j.keys?.isSome .notAnObject
  | .columnRefs => itemVisits .columnRef j
  | .columnRef => exprVisits j ++ check (j.keys? == some ["column"]) .notColumn
  | .rows => if j.count? = some 0 then [.complain (.fault .noRows)] else itemVisits .row j
  | .row => itemVisits .cell j
  | .cell => exprVisits j ++ check (j.keys? == some ["value"]) .notValue
  | .outputs => if j.count? = some 0 then [.complain (.fault .noColumns)] else itemVisits .expr j
  | .filter => if j.isNull then [] else exprVisits j
  | .sorts => if j.isNull then [] else itemVisits .sort j
  | .direction => check (j.isNull || (j.text?.bind Direction.read?).isSome) .notDirection
  | .offset => offsetVisits j
  | .limit => limitVisits limits j
  | .expr => exprVisits j
  | .metadata => check (j.text?.bind Metadata.read?).isSome .notMetadata
  | .column => check (j.text?.bind Uuid.read?).isSome .notColumnId
  | .literal => []
  | .name => check j.text?.isSome .notText
  | .args => itemVisits .expr j
  | .operands =>
    match j.count? with
    | some 2 => itemVisits .expr j
    | some n => [.complain (.fault (.operandCount n))]
    | none => [.complain (.fault .notAnArray)]
  | .unknown key => [.complain (.fault (.unknownExpression key))]

/-! ### Complaints -/

/-- All complaints about a part in a role, in the order in which the decoder comes to them, each
with the address of what it is about. -/
def Role.complaints (limits : Limits) (role : Role) (j : Json) : List (Address × Complaint) :=
  (role.visits limits j).flatMap fun
    | .complain c => [([], c)]
    | .part s r =>
      match _h : j.step? s with
      | some part => (r.complaints limits part).map fun (a, c) => (s :: a, c)
      | none => []
termination_by sizeOf j
decreasing_by exact Json.sizeOf_lt_of_step? _h

variable {limits : Limits} {address : Address} {role : Role} {j : Json}

/-- The complaints that a visit leads to. -/
def Visit.complaints (limits : Limits) (j : Json) : Visit → List (Address × Complaint)
  | .complain c => [([], c)]
  | .part s r =>
    ((j.step? s).map fun part => (r.complaints limits part).map fun (a, c) => (s :: a, c)).getD []

theorem Role.complaints_eq : role.complaints limits j =
    (role.visits limits j).flatMap (Visit.complaints limits j) := by
  rw [Role.complaints]
  refine List.flatMap_congr fun v _ => ?_
  cases v with
  | complain c => rfl
  | part s r =>
    dsimp only [Visit.complaints]
    split
    · next part h => rw [h]; rfl
    · next h => rw [h]; rfl

/-- The complaints about a part at an address, as they are reported. -/
def Role.errors (limits : Limits) (address : Address) (role : Role) (j : Json) : List QueryError :=
  (role.complaints limits j).map fun (a, c) => c.error (address ++ a)

/-- The errors that a visit leads to. -/
def Visit.errors (limits : Limits) (address : Address) (j : Json) : Visit → List QueryError
  | .complain c => [c.error address]
  | .part s r => ((j.step? s).map fun part => r.errors limits (address ++ [s]) part).getD []

theorem Role.errors_eq : role.errors limits address j =
    (role.visits limits j).flatMap (Visit.errors limits address j) := by
  rw [errors, complaints_eq, List.map_flatMap]
  refine List.flatMap_congr fun v _ => ?_
  cases v with
  | complain c => simp [Visit.complaints, Visit.errors]
  | part s r =>
    dsimp only [Visit.complaints, Visit.errors]
    cases j.step? s with
    | none => rfl
    | some part => simp [errors, Function.comp_def]

end Query
end TableStore
