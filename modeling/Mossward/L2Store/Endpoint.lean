import Mossward.Core.Table
import Mossward.Core.Bytes
import Mossward.Core.Run
import Mossward.L2Store.Schema

/-!
# Endpoint identities

An agent becomes an endpoint with an enrolment token, which works once and until
it expires; an endpoint stays in its table when it is revoked. Mirrors
`internal/store/endpoint.go` and `endpoint_schema.go`. Nothing deletes an
endpoint, so the `ON DELETE CASCADE` of the tables that refer to it never fires.

Tokens and endpoints keep the columns that the operations below read. Whether an
audit event can be written is an input, as the audit table is not modelled.

Results: `identityTx_cases`, `active_step_iff`.
-/
namespace Mossward.L2.Endpoint

open Table Run L1.Rfc3339 L2.Schema

inductive EndpointStatus
  | active | revoked
deriving DecidableEq, Repr

/-- A row of `agent_enrollment_tokens`. -/
structure TokenRow where
  tokenHash : Bytes
  expiresAt : Time
  usedAt : Option Time
deriving DecidableEq

/-- A row of `endpoints`. -/
structure EndpointRow where
  id : String
  name : String
  status : EndpointStatus
  certificateSerial : String
  revokedAt : Option Time
  revocationReason : String
deriving DecidableEq

structure Identities where
  tokens : List TokenRow
  endpoints : List EndpointRow
deriving DecidableEq

/-- The errors of the endpoint, integrity and relay operations. -/
inductive EndpointError
  | notFound
  | invalidEnrollmentToken
  | endpointIntegrityReplay
  | endpointRelayUnavailable
  | endpointRelayAlreadyActive
  | relayDownstreamSelfAssignment
  | relayDownstreamUnavailable
  | relayDownstreamAlreadyActive
  | constraint (kind : Constraint)
  | auditEvent
  | context (text : String) (cause : EndpointError)
deriving DecidableEq, Repr

/-- `SELECT status FROM endpoints WHERE id=?`. -/
def statusOf (endpoints : List EndpointRow) (id : String) : Option EndpointStatus :=
  (endpoints.find? fun e => e.id = id).map EndpointRow.status

/-- The endpoint is there and active. -/
def Active (endpoints : List EndpointRow) (id : String) : Prop := statusOf endpoints id = some .active

instance (endpoints : List EndpointRow) (id : String) : Decidable (Active endpoints id) :=
  inferInstanceAs (Decidable (statusOf endpoints id = some .active))

/-- The token that an enrolment may use. -/
def usable (hash : Bytes) (now : Time) (token : TokenRow) : Bool :=
  token.tokenHash = hash && token.usedAt.isNone && !textLe token.expiresAt now

/-- `INSERT INTO endpoints`: the primary key and the unique serial. -/
def insertEndpoint (endpoints : List EndpointRow) (endpoint : EndpointRow) :
    Except EndpointError (List EndpointRow) := do
  require (endpoints.all fun e => e.id ≠ endpoint.id)
    (.context "create endpoint identity" (.constraint .primaryKey))
  require (endpoints.all fun e => e.certificateSerial ≠ endpoint.certificateSerial)
    (.context "create endpoint identity" (.constraint .unique))
  return endpoints ++ [endpoint]

/-- The transaction of `ConsumeAgentEnrollmentToken`,
`internal/store/endpoint.go:62-88`. -/
def enrolTx (hash : Bytes) (endpoint : EndpointRow) (now : Time) (recorded : Bool) (s : Identities) :
    Except EndpointError Identities := do
  require (s.tokens.countP (usable hash now) = 1) .invalidEnrollmentToken
  let endpoints ← insertEndpoint s.endpoints endpoint
  require recorded .auditEvent
  return { tokens := updateWhere (usable hash now) (fun t => { t with usedAt := some now }) s.tokens, endpoints }

/-- The endpoint that `RevokeEndpoint` changes. -/
def revocable (id : String) (e : EndpointRow) : Bool := e.id = id && e.status = .active

def EndpointRow.revoke (reason : String) (revokedAt : Time) (e : EndpointRow) : EndpointRow :=
  { e with status := .revoked, revokedAt := some revokedAt, revocationReason := reason }

/-- The transaction of `RevokeEndpoint`, `internal/store/endpoint.go:139-161`.
It writes to no other table. -/
def revokeTx (id reason : String) (revokedAt : Time) (recorded : Bool) (s : Identities) :
    Except EndpointError Identities := do
  require (s.endpoints.countP (revocable id) = 1) .notFound
  require recorded .auditEvent
  return { s with endpoints := updateWhere (revocable id) (EndpointRow.revoke reason revokedAt) s.endpoints }

/-- The calls that change endpoint identities; `addToken` stands for
`CreateAgentEnrollmentToken`. -/
inductive IdentityCall
  | addToken (token : TokenRow)
  | consumeAgentEnrollmentToken (hash : Bytes) (endpoint : EndpointRow) (now : Time) (recorded : Bool)
  | revokeEndpoint (id reason : String) (revokedAt : Time) (recorded : Bool)

def identityTx : IdentityCall → Identities → Except EndpointError Identities
  | .addToken token, s => do
    require (s.tokens.all fun t => t.tokenHash ≠ token.tokenHash)
      (.context "create endpoint enrollment token" (.constraint .unique))
    return { s with tokens := s.tokens ++ [token] }
  | .consumeAgentEnrollmentToken hash endpoint now recorded, s => enrolTx hash endpoint now recorded s
  | .revokeEndpoint id reason revokedAt recorded, s => revokeTx id reason revokedAt recorded s

/-- The endpoint that the call revokes. -/
def IdentityCall.revokes : IdentityCall → Option String
  | .revokeEndpoint id _ _ _ => some id
  | _ => none

/-! ## What a call leaves behind -/

section
variable {s s' : Identities} {call : IdentityCall}

/-- **What a call does to the endpoints**: nothing, one more under a new
identifier and serial, or one active endpoint revoked. -/
theorem identityTx_cases (h : identityTx call s = .ok s') : call.revokes = none ∧ s'.endpoints = s.endpoints ∨
    call.revokes = none ∧ (∃ ep, s'.endpoints = s.endpoints ++ [ep] ∧ (∀ e ∈ s.endpoints, e.id ≠ ep.id) ∧
      ∀ e ∈ s.endpoints, e.certificateSerial ≠ ep.certificateSerial) ∨
    ∃ id why at1, call.revokes = some id ∧ s.endpoints.countP (revocable id) = 1 ∧
      s'.endpoints = updateWhere (revocable id) (EndpointRow.revoke why at1) s.endpoints := by
  cases call with
  | addToken token =>
    obtain ⟨-, -, hs'⟩ := bind_eq_ok.mp h
    cases hs'
    exact .inl ⟨rfl, rfl⟩
  | consumeAgentEnrollmentToken ha ep now rec =>
    obtain ⟨-, -, h⟩ := bind_eq_ok.mp h
    obtain ⟨endpoints, hi, h⟩ := bind_eq_ok.mp h
    obtain ⟨-, -, hs'⟩ := bind_eq_ok.mp h
    obtain ⟨_, hid, hi⟩ := bind_eq_ok.mp hi
    obtain ⟨_, hs, hen⟩ := bind_eq_ok.mp hi
    cases hen
    cases hs'
    rw [require_eq_ok, List.all_eq_true] at hid hs
    refine .inr (.inl ⟨rfl, ep, rfl, ?_, ?_⟩)
    · intro e he
      simpa using hid e he
    · intro e he
      simpa using hs e he
  | revokeEndpoint id why at1 rec =>
    obtain ⟨_, hc, h⟩ := bind_eq_ok.mp h
    obtain ⟨-, -, hs'⟩ := bind_eq_ok.mp h
    cases hs'
    rw [require_eq_ok, decide_eq_true_eq] at hc
    exact .inr (.inr ⟨id, why, at1, rfl, hc, rfl⟩)

/-- **A call keeps an endpoint active** unless it revokes it. -/
theorem active_step_iff (h : identityTx call s = .ok s') {id : String} (ha : Active s.endpoints id) :
    Active s'.endpoints id ↔ call.revokes ≠ some id := by
  unfold Active statusOf at ha ⊢
  rw [Option.map_eq_some_iff] at ha
  obtain ⟨e, hf, hs⟩ := ha
  have hei : e.id = id := by simpa using List.find?_some hf
  rcases identityTx_cases h with ⟨hc, he⟩ | ⟨hc, ep, he, -, -⟩ | ⟨id', why, at1, hc, hco, he⟩
  · rw [he, hf, hc]
    simp [hs]
  · rw [he, List.find?_append, hf, hc]
    simp [hs]
  · have hk : ∀ r, revocable id' r → (EndpointRow.revoke why at1 r).id = r.id := fun _ _ => rfl
    rw [he, find?_updateWhere EndpointRow.id hk, hf, hc]
    by_cases hi : id' = id
    · simp [revocable, EndpointRow.revoke, hi, hei, hs]
    · have hn : ¬ id = id' := Ne.symm hi
      simp [revocable, hei, hn, hs, hi]

end

end Mossward.L2.Endpoint
