import TableStore.Http.Origin
import TableStore.Http.Route

/-!
# The service

A request is first judged by its origin, then led to the operation it asks for, and the outcome of
that becomes the response. What is logged last is the request itself with the status of its
response.
-/

namespace TableStore.Http

/-- The status of a failure. -/
def statusOf : ErrorKind → Nat
  | .notFound => 404
  | .invalidInput | .conflict => 400
  | .unimplemented => 501
  | .storage => 500

/-- Whether an operation makes something new. -/
def creates : Operation → Bool
  | .createOrganization _ | .createEntry _ _ _ _ _ | .createColumn _ _ _ => true
  | _ => false

/-- The program of an operation that was asked for by a request. -/
def program (env : Surroundings) (operation : Operation) : Program Reply := do
  let reply ← operation.program env
  match operation, reply with
  | .createOrganization _, .organization o =>
    Program.note .info ("Created organization " ++ o.id.text)
  | .deleteOrganization id, _ => Program.note .info ("Deleted organization " ++ id.text)
  | _, _ => pure ()
  return reply

/-- The response to an operation that succeeded. -/
def success (operation : Operation) : Reply → Response
  | .nothing => ⟨204, none, none⟩
  | reply => ⟨if creates operation then 201 else 200, some reply.toJson, none⟩

/-- The document of a failure. -/
def failureBody (e : CatalogError) : Json :=
  .obj [("error", .str e.message)]

/-- The response to an operation that failed, and what is logged about it. -/
def failure (e : CatalogError) : Response × List LogLine :=
  (⟨statusOf e.kind, some (failureBody e), none⟩,
    if e.kind = .storage then [⟨.warn, "Catalog storage error"⟩] else [])

/-- The response to a request that is turned away. -/
def rejected (r : Rejection) : Response :=
  ⟨r.status, none, none⟩

/-- What the log says about a request in the end. -/
def requestLine (r : Request) (status : Nat) : LogLine :=
  ⟨.debug, r.method ++ " " ++ r.path ++ " " ++ toString status ++ " " ++ reason status⟩

/-- The response to a request, what it does to a store, and what is logged. -/
structure Answered (σ : Type) where
  response : Response
  state : σ
  log : List LogLine

/-- Carries out the operation that a request asks for. -/
def perform {σ : Type} (exec : {β : Type} → TableStore.Request β → σ → Except StoreError β × σ)
    (env : Surroundings) (r : Request) (st : σ) : Answered σ :=
  match Endpoint.operationOf r with
  | .error rejection => ⟨rejected rejection, st, []⟩
  | .ok operation =>
    let o := (program env operation).run exec st
    match o.result with
    | .ok reply => ⟨success operation reply, o.state, o.log⟩
    | .error e =>
      let (response, log) := failure e
      ⟨response, o.state, o.log ++ log⟩

/-- Answers a request. -/
def answer {σ : Type} (exec : {β : Type} → TableStore.Request β → σ → Except StoreError β × σ)
    (policy : OriginPolicy) (env : Surroundings) (r : Request) (st : σ) : Answered σ :=
  let answered : Answered σ :=
    match policy.judge r with
    | .forbidden => ⟨rejected .forbidden, st, []⟩
    | .preflight origin => ⟨⟨200, none, some origin⟩, st, []⟩
    | .plain => perform exec env r st
    | .allowed origin =>
      let a := perform exec env r st
      match Endpoint.operationOf r with
      | .ok _ => { a with response := { a.response with allowedOrigin := some origin } }
      | .error _ => a
  { answered with log := answered.log ++ [requestLine r answered.response.status] }

end TableStore.Http
