import Mossward.L2Store.Endpoint

/-!
# Relay authorisations

An active endpoint can be promoted to a relay, and a relay can be authorised to
carry the traffic of other endpoints, its downstreams:
`internal/store/endpoint_relay.go:11-75` and `relay_downstream.go:10-73`.
Revoking the relay authorisation revokes those of its downstreams too. Revoking
the endpoint itself (`endpoint.go:139-161`) touches neither table.

Results:
* `oneActive_run`: an endpoint never has two active relays.
* `consistent_throughout_iff`.
-/
namespace Mossward.L2.RelayAuthorizations

open Table Run L1.Rfc3339 L2.Schema L2.Endpoint List

inductive AuthorizationStatus
  | active | revoked
deriving DecidableEq, Repr

/-- The columns that a revocation sets, empty before. -/
structure Revocation where
  reason : String
  revokedBy : String
  revokedAt : Time
deriving DecidableEq

/-- A row of `endpoint_relay_authorizations`. -/
structure EndpointRelayAuthorization where
  id : String
  endpointID : String
  status : AuthorizationStatus
  promotionReason : String
  promotedBy : String
  promotedAt : Time
  revocation : Option Revocation
deriving DecidableEq

/-- A row of `relay_downstream_authorizations`. -/
structure RelayDownstreamAuthorization where
  id : String
  relayEndpointID : String
  downstreamEndpointID : String
  status : AuthorizationStatus
  authorizationReason : String
  authorizedBy : String
  authorizedAt : Time
  revocation : Option Revocation
deriving DecidableEq

structure State where
  identities : Identities
  relays : List EndpointRelayAuthorization
  downstreams : List RelayDownstreamAuthorization
deriving DecidableEq

def State.empty : State := ⟨⟨[], []⟩, [], []⟩

def EndpointRelayAuthorization.activeFor (endpointID : String) (r : EndpointRelayAuthorization) : Bool :=
  r.endpointID = endpointID && r.status = .active

def EndpointRelayAuthorization.revoke (revocation : Revocation) (r : EndpointRelayAuthorization) :
    EndpointRelayAuthorization :=
  { r with status := .revoked, revocation := some revocation }

def RelayDownstreamAuthorization.revoke (revocation : Revocation) (d : RelayDownstreamAuthorization) :
    RelayDownstreamAuthorization :=
  { d with status := .revoked, revocation := some revocation }

/-- The row that is active for a downstream endpoint. -/
def RelayDownstreamAuthorization.activeFor (downstreamEndpointID : String) (d : RelayDownstreamAuthorization) : Bool :=
  d.downstreamEndpointID = downstreamEndpointID && d.status = .active

/-- The transaction of `PromoteEndpointRelay`. -/
def promoteTx (authorization : EndpointRelayAuthorization) (recorded : Bool) (s : State) :
    Except EndpointError State := do
  match statusOf s.identities.endpoints authorization.endpointID with
  | none => .error .notFound
  | some .revoked => .error .endpointRelayUnavailable
  | some .active =>
    require (!s.relays.any (·.activeFor authorization.endpointID)) .endpointRelayAlreadyActive
    require (s.relays.all fun r => r.id ≠ authorization.id) (.constraint .primaryKey)
    require recorded .auditEvent
    return { s with relays := s.relays ++ [{ authorization with status := .active, revocation := none }] }

/-- The downstreams that go with their relay. -/
def carriedBy (relayEndpointID : String) (d : RelayDownstreamAuthorization) : Bool :=
  d.relayEndpointID = relayEndpointID && d.status = .active

/-- The transaction of `RevokeEndpointRelay`: a second audit event counts the
downstreams, if there are any. -/
def revokeRelayTx (endpointID reason actorID : String) (now : Time) (recordedDownstreams recorded : Bool) (s : State) :
    Except EndpointError State := do
  require (s.relays.countP (·.activeFor endpointID) = 1) .notFound
  require (s.downstreams.countP (carriedBy endpointID) = 0 || recordedDownstreams) .auditEvent
  require recorded .auditEvent
  return { s with
    relays := updateWhere (·.activeFor endpointID) (·.revoke ⟨reason, actorID, now⟩) s.relays
    downstreams := updateWhere (carriedBy endpointID) (·.revoke ⟨"relay authorization revoked", actorID, now⟩)
      s.downstreams }

/-- The transaction of `AuthorizeRelayDownstream`. -/
def authorizeTx (authorization : RelayDownstreamAuthorization) (recorded : Bool) (s : State) :
    Except EndpointError State := do
  require (authorization.relayEndpointID ≠ authorization.downstreamEndpointID) .relayDownstreamSelfAssignment
  -- `endpoint_relay_authorizations r JOIN endpoints e`, both active
  require (s.relays.any (·.activeFor authorization.relayEndpointID) &&
    statusOf s.identities.endpoints authorization.relayEndpointID = some .active) .endpointRelayUnavailable
  match statusOf s.identities.endpoints authorization.downstreamEndpointID with
  | none => .error .notFound
  | some .revoked => .error .relayDownstreamUnavailable
  | some .active =>
    require (!s.downstreams.any (·.activeFor authorization.downstreamEndpointID)) .relayDownstreamAlreadyActive
    require (s.downstreams.all fun d => d.id ≠ authorization.id) (.constraint .primaryKey)
    require recorded .auditEvent
    return { s with downstreams := s.downstreams ++ [{ authorization with status := .active, revocation := none }] }

/-- The row that `RevokeRelayDownstream` changes. -/
def between (relayEndpointID downstreamEndpointID : String) (d : RelayDownstreamAuthorization) : Bool :=
  d.relayEndpointID = relayEndpointID && d.downstreamEndpointID = downstreamEndpointID && d.status = .active

/-- The transaction of `RevokeRelayDownstream`. -/
def revokeDownstreamTx (relayEndpointID downstreamEndpointID reason actorID : String) (now : Time) (recorded : Bool)
    (s : State) : Except EndpointError State := do
  require (s.downstreams.countP (between relayEndpointID downstreamEndpointID) = 1) .notFound
  require recorded .auditEvent
  return { s with
    downstreams := updateWhere (between relayEndpointID downstreamEndpointID) (·.revoke ⟨reason, actorID, now⟩)
      s.downstreams }

inductive Call
  | identity (call : IdentityCall)
  | promoteEndpointRelay (authorization : EndpointRelayAuthorization) (recorded : Bool)
  | revokeEndpointRelay (endpointID reason actorID : String) (now : Time) (recordedDownstreams recorded : Bool)
  | authorizeRelayDownstream (authorization : RelayDownstreamAuthorization) (recorded : Bool)
  | revokeRelayDownstream (relayEndpointID downstreamEndpointID reason actorID : String) (now : Time) (recorded : Bool)

def callTx : Call → State → Except EndpointError State
  | .identity call, s => (identityTx call s.identities).map fun identities => { s with identities }
  | .promoteEndpointRelay authorization recorded, s => promoteTx authorization recorded s
  | .revokeEndpointRelay endpointID reason actorID now recordedDownstreams recorded, s =>
    revokeRelayTx endpointID reason actorID now recordedDownstreams recorded s
  | .authorizeRelayDownstream authorization recorded, s => authorizeTx authorization recorded s
  | .revokeRelayDownstream relayEndpointID downstreamEndpointID reason actorID now recorded, s =>
    revokeDownstreamTx relayEndpointID downstreamEndpointID reason actorID now recorded s

def step (s : State) (call : Call) : State := (transact (callTx call) s).2

/-! ## Consistent authorisations -/

/-- Every active relay authorisation belongs to an active endpoint; every active
downstream authorisation joins two active endpoints, of which the first is a
relay and the second another endpoint. -/
def Consistent (s : State) : Prop :=
  (∀ r ∈ s.relays, r.status = .active → Active s.identities.endpoints r.endpointID) ∧
  ∀ d ∈ s.downstreams, d.status = .active →
    Active s.identities.endpoints d.relayEndpointID ∧
    (∃ r ∈ s.relays, r.endpointID = d.relayEndpointID ∧ r.status = .active) ∧
    Active s.identities.endpoints d.downstreamEndpointID ∧
    d.downstreamEndpointID ≠ d.relayEndpointID

instance : DecidablePred Consistent := fun _ => inferInstanceAs (Decidable (_ ∧ _))

/-- Each endpoint has at most one active relay. -/
def OneActive (s : State) : Prop :=
  ∀ downstreamEndpointID, s.downstreams.countP (·.activeFor downstreamEndpointID) ≤ 1

/-- No active authorisation names the endpoint. -/
def Unused (s : State) (id : String) : Prop :=
  (∀ r ∈ s.relays, r.status = .active → r.endpointID ≠ id) ∧
  ∀ d ∈ s.downstreams, d.status = .active → d.relayEndpointID ≠ id ∧ d.downstreamEndpointID ≠ id

/-- The call revokes no endpoint that an active authorisation names. -/
def Detached (s : State) : Call → Prop
  | .identity call => ∀ identities id, identityTx call s.identities = .ok identities →
    call.revokes = some id → Unused s id
  | _ => True

/-! ## What a call leaves behind -/

section
variable {s s' : State}

variable {recorded : Bool}

theorem promoteTx_ok {auth : EndpointRelayAuthorization} (h : promoteTx auth recorded s = .ok s') :
    Active s.identities.endpoints auth.endpointID ∧
    s' = { s with relays := s.relays ++ [{ auth with status := .active, revocation := none }] } := by
  unfold promoteTx at h
  split at h
  · cases h
  · cases h
  · rename_i hs
    obtain ⟨_, -, h⟩ := bind_eq_ok.mp h
    obtain ⟨_, -, h⟩ := bind_eq_ok.mp h
    obtain ⟨_, -, h⟩ := bind_eq_ok.mp h
    cases h
    exact ⟨hs, rfl⟩

variable {reason actorID : String} {now : Time}

theorem revokeRelayTx_ok {eid : String} {downs : Bool}
    (h : revokeRelayTx eid reason actorID now downs recorded s = .ok s') :
    s' = { s with
      relays := updateWhere (·.activeFor eid) (·.revoke ⟨reason, actorID, now⟩) s.relays
      downstreams := updateWhere (carriedBy eid) (·.revoke ⟨"relay authorization revoked", actorID, now⟩)
        s.downstreams } := by
  obtain ⟨_, -, h⟩ := bind_eq_ok.mp h
  obtain ⟨_, -, h⟩ := bind_eq_ok.mp h
  obtain ⟨_, -, h⟩ := bind_eq_ok.mp h
  cases h
  rfl

theorem authorizeTx_ok {auth : RelayDownstreamAuthorization} (h : authorizeTx auth recorded s = .ok s') :
    (auth.downstreamEndpointID ≠ auth.relayEndpointID ∧
      (∃ r ∈ s.relays, r.endpointID = auth.relayEndpointID ∧ r.status = .active) ∧
      Active s.identities.endpoints auth.relayEndpointID ∧
      Active s.identities.endpoints auth.downstreamEndpointID ∧
      s.downstreams.countP (·.activeFor auth.downstreamEndpointID) = 0) ∧
    s' = { s with downstreams := s.downstreams ++ [{ auth with status := .active, revocation := none }] } := by
  obtain ⟨_, hs, h⟩ := bind_eq_ok.mp h
  obtain ⟨_, hre, h⟩ := bind_eq_ok.mp h
  rw [require_eq_ok, decide_eq_true_eq] at hs
  rw [require_eq_ok, Bool.and_eq_true, any_eq_true, decide_eq_true_eq] at hre
  split at h
  · cases h
  · cases h
  · rename_i hst
    obtain ⟨_, hn, h⟩ := bind_eq_ok.mp h
    obtain ⟨_, -, h⟩ := bind_eq_ok.mp h
    obtain ⟨_, -, h⟩ := bind_eq_ok.mp h
    cases h
    rw [require_eq_ok, Bool.not_eq_true', any_eq_false] at hn
    obtain ⟨⟨r, hr, ha⟩, he⟩ := hre
    refine ⟨⟨hs.symm, ⟨r, hr, by simpa [EndpointRelayAuthorization.activeFor] using ha⟩, he, hst, ?_⟩,
      rfl⟩
    rw [countP_eq_zero]
    exact hn

theorem revokeDownstreamTx_ok {rid down : String}
    (h : revokeDownstreamTx rid down reason actorID now recorded s = .ok s') :
    s' = { s with
      downstreams := updateWhere (between rid down) (·.revoke ⟨reason, actorID, now⟩) s.downstreams } := by
  obtain ⟨_, -, h⟩ := bind_eq_ok.mp h
  obtain ⟨_, -, h⟩ := bind_eq_ok.mp h
  cases h
  rfl

theorem identityCall_ok {call : IdentityCall} (h : callTx (.identity call) s = .ok s') :
    ∃ identities, identityTx call s.identities = .ok identities ∧ s' = { s with identities } := by
  obtain ⟨identities, hi, rfl⟩ := map_eq_ok.mp h
  exact ⟨identities, hi, rfl⟩

/-! ## At most one active relay -/

theorem activeFor_revoke (rev : Revocation) (down : String) (d : RelayDownstreamAuthorization) :
    (d.revoke rev).activeFor down = false := by
  simp [RelayDownstreamAuthorization.revoke, RelayDownstreamAuthorization.activeFor]

theorem OneActive.update (h : OneActive s) (p : RelayDownstreamAuthorization → Bool) (rev : Revocation)
    (hs' : s'.downstreams = updateWhere p (·.revoke rev) s.downstreams) : OneActive s' := by
  intro down
  rw [hs']
  refine le_trans (countP_updateWhere_le (fun d hd => ?_) _) (h down)
  rw [activeFor_revoke] at hd
  cases hd

theorem oneActive_step (h : OneActive s) (call : Call) : OneActive (step s call) := by
  apply transact_invariant h
  intro s' hs'
  cases call with
  | identity call =>
    obtain ⟨ids, -, rfl⟩ := identityCall_ok hs'
    exact h
  | promoteEndpointRelay auth rec =>
    obtain ⟨-, rfl⟩ := promoteTx_ok hs'
    exact h
  | revokeEndpointRelay eid why actorID now downs rec =>
    rw [revokeRelayTx_ok hs']
    exact h.update _ _ rfl
  | authorizeRelayDownstream auth rec =>
    obtain ⟨⟨-, -, -, -, hn⟩, rfl⟩ := authorizeTx_ok hs'
    intro down
    rw [countP_append]
    by_cases hd : auth.downstreamEndpointID = down
    · subst hd
      rw [hn, Nat.zero_add]
      exact countP_le_length
    · have ho := h down
      simpa [RelayDownstreamAuthorization.activeFor, hd] using ho
  | revokeRelayDownstream rid down why actorID now rec =>
    rw [revokeDownstreamTx_ok hs']
    exact h.update _ _ rfl

theorem oneActive_empty : OneActive .empty := fun _ => Nat.zero_le 1

theorem oneActive_run (cs : List Call) : OneActive (run step .empty cs) :=
  run_invariant (I := OneActive) (fun _ call h => oneActive_step h call) oneActive_empty cs

/-! ## Consistency, call by call -/

section
variable (h : Consistent s)
include h

theorem consistent_identity_iff {call : IdentityCall} {identities : Identities}
    (ho : identityTx call s.identities = .ok identities) :
    Consistent { s with identities } ↔ ∀ id, call.revokes = some id → Unused s id := by
  have hk := fun {id} ha => @active_step_iff _ _ _ ho id ha
  constructor
  · intro h' id hi
    refine ⟨fun r hr hac he => ?_, fun d hd hac => ⟨fun he => ?_, fun he => ?_⟩⟩
    · exact (hk (h.1 r hr hac)).mp (h'.1 r hr hac) (he ▸ hi)
    · obtain ⟨hre, -, -, -⟩ := h.2 d hd hac
      exact (hk hre).mp (h'.2 d hd hac).1 (he ▸ hi)
    · obtain ⟨-, -, hdo, -⟩ := h.2 d hd hac
      exact (hk hdo).mp (h'.2 d hd hac).2.2.1 (he ▸ hi)
  · intro hu
    constructor
    · intro r hr hac
      apply (hk (h.1 r hr hac)).mpr
      intro hi
      exact (hu _ hi).1 r hr hac rfl
    · intro d hd hac
      obtain ⟨hre, hro, hdo, hn⟩ := h.2 d hd hac
      refine ⟨(hk hre).mpr fun hi => ?_, hro, (hk hdo).mpr fun hi => ?_, hn⟩
      · exact ((hu _ hi).2 d hd hac).1 rfl
      · exact ((hu _ hi).2 d hd hac).2 rfl

theorem consistent_promote {auth : EndpointRelayAuthorization}
    (ho : promoteTx auth recorded s = .ok s') : Consistent s' := by
  obtain ⟨ha, rfl⟩ := promoteTx_ok ho
  constructor
  · intro r hr hr'
    rcases mem_append.mp hr with hr | hr
    · exact h.1 r hr hr'
    · rw [mem_singleton.mp hr]
      exact ha
  · intro d hd hd'
    obtain ⟨hre, ⟨r, hr, hro⟩, hres⟩ := h.2 d hd hd'
    exact ⟨hre, ⟨r, mem_append_left _ hr, hro⟩, hres⟩

/-- The relay goes together with its downstreams, so no downstream is left
without one. -/
theorem consistent_revokeRelay {eid : String}
    {downs : Bool}
    (hok : revokeRelayTx eid reason actorID now downs recorded s = .ok s') : Consistent s' := by
  rw [revokeRelayTx_ok hok]
  constructor
  · intro r hr ha
    have hol := mem_updateWhere_of_not (q := fun r => r.status = .active) (fun _ => rfl) hr (decide_eq_true ha)
    exact h.1 r hol.1 ha
  · intro d hd ha
    obtain ⟨hm, ho⟩ :=
      mem_updateWhere_of_not (q := fun d => d.status = .active) (fun _ => rfl) hd (decide_eq_true ha)
    obtain ⟨hre, ⟨r, hr, hro, hr'⟩, hres⟩ := h.2 d hm ha
    refine ⟨hre, ⟨r, ?_, hro, hr'⟩, hres⟩
    have hn : d.relayEndpointID ≠ eid := by
      intro he
      simp [carriedBy, he, ha] at ho
    rw [mem_updateWhere]
    refine ⟨r, hr, ?_⟩
    simp [EndpointRelayAuthorization.activeFor, hro, hn]

theorem consistent_authorize {auth : RelayDownstreamAuthorization}
    (ho : authorizeTx auth recorded s = .ok s') : Consistent s' := by
  obtain ⟨⟨hn, hro, hr, hdo, -⟩, rfl⟩ := authorizeTx_ok ho
  refine ⟨h.1, fun d hd ha => ?_⟩
  rcases mem_append.mp hd with hd | hd
  · exact h.2 d hd ha
  · rw [mem_singleton.mp hd]
    exact ⟨hr, hro, hdo, hn⟩

theorem consistent_revokeDownstream {rid down : String}
    (hok : revokeDownstreamTx rid down reason actorID now recorded s = .ok s') :
    Consistent s' := by
  rw [revokeDownstreamTx_ok hok]
  refine ⟨h.1, fun d hd ha => ?_⟩
  have ho := mem_updateWhere_of_not (q := fun d => d.status = .active) (fun _ => rfl) hd (decide_eq_true ha)
  exact h.2 d ho.1 ha

/-- **One call** keeps the authorisations consistent exactly when it revokes no
endpoint that they name. -/
theorem consistent_step_iff (call : Call) : Consistent (step s call) ↔ Detached s call := by
  unfold step
  cases ho : callTx call s with
  | error e =>
    rw [transact_of_error ho]
    refine iff_of_true h ?_
    cases call with
    | identity call =>
      intro ids id hi
      simp [callTx, hi, Except.map] at ho
    | _ => trivial
  | ok s' =>
    rw [transact_of_ok ho]
    cases call with
    | identity call =>
      obtain ⟨ids, hi, rfl⟩ := identityCall_ok ho
      rw [consistent_identity_iff h hi]
      constructor
      · exact fun hu _ id _ hid => hu id hid
      · exact fun hd id hid => hd ids id hi hid
    | promoteEndpointRelay auth rec => exact iff_of_true (consistent_promote h ho) trivial
    | revokeEndpointRelay eid why actorID now downs rec =>
      exact iff_of_true (consistent_revokeRelay h ho) trivial
    | authorizeRelayDownstream auth rec => exact iff_of_true (consistent_authorize h ho) trivial
    | revokeRelayDownstream rid down why actorID now rec =>
      exact iff_of_true (consistent_revokeDownstream h ho) trivial

end

end

/-- **Relay authorisations.** An endpoint never has two active relays, and the
authorisations are consistent throughout a run exactly when no call of it
revokes an endpoint that an active authorisation names. -/
theorem consistent_throughout_iff (calls : List Call) : (∀ n, OneActive (run step .empty (calls.take n))) ∧
    ((∀ n, Consistent (run step .empty (calls.take n))) ↔ Along step Detached .empty calls) := by
  refine ⟨fun n => oneActive_run _, ?_⟩
  apply run_invariant_iff (P := fun _ => True) (J := fun _ => True)
  · exact fun _ _ _ _ => trivial
  · exact fun s call _ _ h => consistent_step_iff h call
  · trivial
  · decide
  · exact fun _ _ => trivial

namespace Small

def token (hash : UInt8) : TokenRow := ⟨[hash], Schema.Small.clock 60, none⟩

def endpoint (id : String) : EndpointRow := ⟨id, id, .active, id, none, ""⟩

def enrol (hash : UInt8) (id : String) : List Call :=
  [.identity (.addToken (token hash)),
    .identity (.consumeAgentEnrollmentToken [hash] (endpoint id) (Schema.Small.clock 1) true)]

/-- Two endpoints, of which the first relays for the second. -/
def relayed : List Call :=
  enrol 1 "relay" ++ enrol 2 "agent" ++
    [.promoteEndpointRelay ⟨"p", "relay", .active, "", "admin", Schema.Small.clock 2, none⟩ true,
      .authorizeRelayDownstream ⟨"d", "relay", "agent", .active, "", "admin", Schema.Small.clock 3, none⟩ true]

end Small

/-- Revoking the relay's endpoint leaves its authorisations active. -/
theorem revoked_relay_keeps_downstream : Consistent (run step .empty Small.relayed) ∧
    ¬ Consistent (run step .empty
      (Small.relayed ++ [.identity (.revokeEndpoint "relay" "lost" (Schema.Small.clock 4) true)])) := by
  decide +kernel

end Mossward.L2.RelayAuthorizations
