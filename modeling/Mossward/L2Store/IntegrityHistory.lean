import Mossward.Core.Register
import Mossward.L2Store.Endpoint

/-!
# The integrity history of endpoints

An agent reports the hashes of its executable, its configuration and its
identity. The server keeps the latest report of each endpoint and a log of the
hashes that changed: `internal/store/endpoint_integrity.go:11-58`. Events stand
in the order of their `AUTOINCREMENT` numbers. A sequence number with the high
bit set is refused by the driver.

Results: `recordTx_ok`, `historyInv_step`, `integrity_history_chain`.
-/
namespace Mossward.L2.IntegrityHistory

open Table Run Register L1.Rfc3339 L2.Schema L2.Endpoint List

inductive Component
  | executable | configuration | identity
deriving DecidableEq, Repr

/-- The order in which the source compares the components. -/
def components : List Component := [.executable, .configuration, .identity]

structure AgentIntegritySnapshot where
  executableSHA256 : String
  configurationSHA256 : String
  identitySHA256 : String
  observedAt : Time
deriving DecidableEq

def AgentIntegritySnapshot.sha256 (snapshot : AgentIntegritySnapshot) : Component → String
  | .executable => snapshot.executableSHA256
  | .configuration => snapshot.configurationSHA256
  | .identity => snapshot.identitySHA256

structure SignedAgentIntegritySnapshot where
  snapshot : AgentIntegritySnapshot
  sequence : Nat
  signature : String
deriving DecidableEq

/-- A row of `endpoint_integrity_snapshots`. -/
structure SnapshotRow where
  endpointID : String
  snapshot : AgentIntegritySnapshot
  receivedAt : Time
  sequence : Nat
  signature : String
deriving DecidableEq

/-- A row of `endpoint_integrity_events`. -/
structure EventRow where
  endpointID : String
  component : Component
  previousSHA256 : String
  currentSHA256 : String
  observedAt : Time
  receivedAt : Time
  sequence : Nat
  signature : String
deriving DecidableEq

structure State where
  identities : Identities
  snapshots : List SnapshotRow
  events : List EventRow
deriving DecidableEq

def snapshotOf (snapshots : List SnapshotRow) (endpointID : String) : Option SnapshotRow :=
  snapshots.find? fun r => r.endpointID = endpointID

/-- What the driver and the column take of a `uint64`. -/
def storable (sequence : Nat) : Bool := sequence < 2 ^ 63

section
variable (endpointID : String) (envelope : SignedAgentIntegritySnapshot) (receivedAt : Time)

def eventOf (previous : AgentIntegritySnapshot) (component : Component) : EventRow where
  endpointID := endpointID
  component := component
  previousSHA256 := previous.sha256 component
  currentSHA256 := envelope.snapshot.sha256 component
  observedAt := envelope.snapshot.observedAt
  receivedAt := receivedAt
  sequence := envelope.sequence
  signature := envelope.signature

/-- One turn of the loop over the components: equal hashes are passed over. -/
def recordChange (endpoints : List EndpointRow) (previous : AgentIntegritySnapshot) (events : List EventRow)
    (component : Component) : Except EndpointError (List EventRow) := do
  if previous.sha256 component = envelope.snapshot.sha256 component then
    return events
  else
    require (storable envelope.sequence) (.constraint .range)
    require (endpoints.any fun e => e.id = endpointID) (.constraint .foreignKey)
    return events ++ [eventOf endpointID envelope receivedAt previous component]

def rowOf : SnapshotRow where
  endpointID := endpointID
  snapshot := envelope.snapshot
  receivedAt := receivedAt
  sequence := envelope.sequence
  signature := envelope.signature

/-- The events of the report: none where the endpoint has no snapshot yet, and
an error where its sequence number is not above the stored one. -/
def recordChanges (s : State) : Except EndpointError (List EventRow) :=
  match snapshotOf s.snapshots endpointID with
  | none => .ok s.events
  | some previous => do
    require (previous.sequence < envelope.sequence) .endpointIntegrityReplay
    components.foldlM (recordChange endpointID envelope receivedAt s.identities.endpoints previous.snapshot) s.events

/-- The transaction of `RecordEndpointIntegritySnapshot`. The snapshot is written
by `INSERT … SELECT … FROM endpoints WHERE id=? AND status='active'`, which
changes no row when the endpoint is not active. -/
def recordTx (s : State) : Except EndpointError State := do
  let events ← recordChanges endpointID envelope receivedAt s
  require (storable envelope.sequence) (.constraint .range)
  require (s.identities.endpoints.countP (fun e => e.id = endpointID && e.status = .active) = 1) .notFound
  let row := rowOf endpointID envelope receivedAt
  return { s with snapshots := upsert SnapshotRow.endpointID (fun _ => row) s.snapshots row, events }

end

inductive Call
  | identity (call : IdentityCall)
  | recordEndpointIntegritySnapshot (endpointID : String) (envelope : SignedAgentIntegritySnapshot) (receivedAt : Time)

def callTx : Call → State → Except EndpointError State
  | .identity call, s => (identityTx call s.identities).map fun identities => { s with identities }
  | .recordEndpointIntegritySnapshot endpointID envelope receivedAt, s => recordTx endpointID envelope receivedAt s

/-- The answer of a call and the state it leaves. -/
def perform (call : Call) (s : State) : Except EndpointError Unit × State := transact (callTx call) s

/-- A run together with the reports it accepted, by endpoint. -/
structure History where
  state : State
  accepted : List (String × SignedAgentIntegritySnapshot)

def Call.report : Call → List (String × SignedAgentIntegritySnapshot)
  | .identity _ => []
  | .recordEndpointIntegritySnapshot endpointID envelope _ => [(endpointID, envelope)]

def History.step (h : History) (call : Call) : History where
  state := (perform call h.state).2
  accepted := h.accepted ++ if (perform call h.state).1.isOk then call.report else []

/-- Any endpoints and tokens, no reports. -/
def History.start (identities : Identities) : History where
  state := { identities, snapshots := [], events := [] }
  accepted := []

/-- The reports of an endpoint that were accepted, in order. -/
def History.acceptedOf (h : History) (endpointID : String) : List SignedAgentIntegritySnapshot :=
  (h.accepted.filter fun r => r.1 = endpointID).map Prod.snd

/-- The log of a component, as pairs of the hashes before and after. -/
def State.log (s : State) (endpointID : String) (component : Component) : List (String × String) :=
  (s.events.filter fun e => e.endpointID = endpointID && e.component = component).map
    fun e => (e.previousSHA256, e.currentSHA256)

/-! ## One report -/

section
variable {endpointID : String} {envelope : SignedAgentIntegritySnapshot} {receivedAt : Time}

/-- The events that a report adds. -/
def newEvents (endpointID : String) (envelope : SignedAgentIntegritySnapshot) (receivedAt : Time)
    (previous : AgentIntegritySnapshot) : List EventRow :=
  (components.filter fun c => previous.sha256 c ≠ envelope.snapshot.sha256 c).map
    (eventOf endpointID envelope receivedAt previous)

theorem foldlM_recordChange {endpoints : List EndpointRow} {prev : AgentIntegritySnapshot} {cs : List Component}
    {evs evs' : List EventRow}
    (h : cs.foldlM (recordChange endpointID envelope receivedAt endpoints prev) evs = .ok evs') :
    evs' = evs ++ (cs.filter fun c => prev.sha256 c ≠ envelope.snapshot.sha256 c).map
      (eventOf endpointID envelope receivedAt prev) := by
  induction cs generalizing evs with
  | nil =>
    cases h
    simp
  | cons c cs ih =>
    obtain ⟨next, ht, hr⟩ := bind_eq_ok.mp h
    rw [ih hr]
    unfold recordChange at ht
    by_cases hc : prev.sha256 c = envelope.snapshot.sha256 c
    · rw [if_pos hc] at ht
      cases ht
      simp [hc]
    rw [if_neg hc] at ht
    obtain ⟨_, -, ht⟩ := bind_eq_ok.mp ht
    obtain ⟨_, -, ht⟩ := bind_eq_ok.mp ht
    cases ht
    simp [hc]

/-- **What an accepted report writes.** -/
theorem recordTx_ok {s s' : State} (h : recordTx endpointID envelope receivedAt s = .ok s') :
    (∀ prev, snapshotOf s.snapshots endpointID = some prev → prev.sequence < envelope.sequence) ∧
    s' = { s with
      snapshots := upsert SnapshotRow.endpointID (fun _ => rowOf endpointID envelope receivedAt) s.snapshots
        (rowOf endpointID envelope receivedAt)
      events := s.events ++ ((snapshotOf s.snapshots endpointID).map fun prev =>
        newEvents endpointID envelope receivedAt prev.snapshot).getD [] } := by
  obtain ⟨events, he, h⟩ := bind_eq_ok.mp h
  obtain ⟨_, -, h⟩ := bind_eq_ok.mp h
  obtain ⟨_, -, h⟩ := bind_eq_ok.mp h
  cases h
  unfold recordChanges at he
  cases hpr : snapshotOf s.snapshots endpointID with
  | none =>
    rw [hpr] at he
    cases he
    simp
  | some prev =>
    rw [hpr] at he
    obtain ⟨_, hs, he⟩ := bind_eq_ok.mp he
    rw [require_eq_ok, decide_eq_true_eq] at hs
    constructor
    · intro p hp
      rw [Option.some.injEq] at hp
      rw [← hp]
      exact hs
    · rw [foldlM_recordChange he]
      rfl

theorem log_newEvents (prev : AgentIntegritySnapshot) (comp : Component) :
    ((newEvents endpointID envelope receivedAt prev).filter
        fun e => e.endpointID = endpointID && e.component = comp).map
        (fun e => (e.previousSHA256, e.currentSHA256)) =
      if prev.sha256 comp = envelope.snapshot.sha256 comp then []
      else [(prev.sha256 comp, envelope.snapshot.sha256 comp)] := by
  unfold newEvents components
  rw [filter_map, map_map]
  have hse : (fun e : EventRow => decide (e.endpointID = endpointID) && decide (e.component = comp)) ∘
      eventOf endpointID envelope receivedAt prev = fun c => decide (c = comp) := by
    funext c
    show (decide (endpointID = endpointID) && decide (c = comp)) = _
    rw [decide_eq_true rfl, Bool.true_and]
  rw [hse, filter_filter]
  by_cases hs : prev.sha256 comp = envelope.snapshot.sha256 comp
  · rw [if_pos hs, map_eq_nil_iff, filter_eq_nil_iff]
    intro c _ hc
    simp only [Bool.and_eq_true, decide_eq_true_eq] at hc
    rw [hc.1] at hc
    exact hc.2 hs
  rw [if_neg hs]
  have hk : ([.executable, .configuration, .identity] : List Component).filter (fun c => decide (c = comp) &&
      decide (prev.sha256 c ≠ envelope.snapshot.sha256 c)) = [comp] := by
    cases comp with
    | _ => simp [hs]
  rw [hk]
  rfl

theorem log_newEvents_other (prev : AgentIntegritySnapshot) {other : String} (ho : other ≠ endpointID)
    (comp : Component) :
    (newEvents endpointID envelope receivedAt prev).filter
      (fun e => e.endpointID = other && e.component = comp) = [] := by
  rw [filter_eq_nil_iff]
  intro e he
  obtain ⟨c, -, rfl⟩ := mem_map.mp he
  simp [eventOf, ho.symm]

end

/-! ## Every run -/

/-- What the tables say of the accepted reports of an endpoint. -/
structure HistoryInv (h : History) (endpointID : String) : Prop where
  increasing : ((h.acceptedOf endpointID).map SignedAgentIntegritySnapshot.sequence).Pairwise (· < ·)
  stored : (snapshotOf h.state.snapshots endpointID).map (fun r => (r.snapshot, r.sequence)) =
    (h.acceptedOf endpointID).getLast?.map fun e => (e.snapshot, e.sequence)
  logged : ∀ component, h.state.log endpointID component =
    changesOf ((h.acceptedOf endpointID).map fun e => e.snapshot.sha256 component)

theorem historyInv_start (ids : Identities) (eid : String) : HistoryInv (.start ids) eid where
  increasing := .nil
  stored := rfl
  logged _ := rfl

section
variable {h h' : History} {endpointID : String}

theorem HistoryInv.congr (hi : HistoryInv h endpointID) (ha : h'.acceptedOf endpointID = h.acceptedOf endpointID)
    (hs : snapshotOf h'.state.snapshots endpointID = snapshotOf h.state.snapshots endpointID)
    (hl : ∀ comp, h'.state.log endpointID comp = h.state.log endpointID comp) :
    HistoryInv h' endpointID where
  increasing := by rw [ha]; exact hi.increasing
  stored := by rw [ha, hs]; exact hi.stored
  logged comp := by rw [ha, hl]; exact hi.logged comp

theorem HistoryInv.stored_eq (hi : HistoryInv h endpointID) {prev : SnapshotRow}
    (hp : snapshotOf h.state.snapshots endpointID = some prev) :
    ∃ front last, h.acceptedOf endpointID = front ++ [last] ∧ last.snapshot = prev.snapshot ∧
      last.sequence = prev.sequence := by
  have hs := hi.stored
  rw [hp, Option.map_some, eq_comm, Option.map_eq_some_iff] at hs
  obtain ⟨last, hl, he⟩ := hs
  obtain ⟨front, hf⟩ := getLast?_eq_some_iff.mp hl
  exact ⟨front, last, hf, congrArg Prod.fst he, congrArg Prod.snd he⟩

theorem HistoryInv.none_accepted (hi : HistoryInv h endpointID)
    (hn : snapshotOf h.state.snapshots endpointID = none) : h.acceptedOf endpointID = [] := by
  have hs := hi.stored
  rw [hn, Option.map_none, eq_comm, Option.map_eq_none_iff] at hs
  exact getLast?_eq_none_iff.mp hs

end

section
variable {h : History} {reported : String} {envelope : SignedAgentIntegritySnapshot} {receivedAt : Time} {s' : State}

theorem historyInv_record (hin : HistoryInv h reported) (ho : recordTx reported envelope receivedAt h.state = .ok s') :
    HistoryInv ⟨s', h.accepted ++ [(reported, envelope)]⟩ reported := by
  obtain ⟨hs, rfl⟩ := recordTx_ok ho
  have ha : History.acceptedOf ⟨h.state, h.accepted ++ [(reported, envelope)]⟩ reported =
      h.acceptedOf reported ++ [envelope] := by
    simp [History.acceptedOf]
  constructor
  · show ((History.acceptedOf ⟨h.state, _⟩ reported).map _).Pairwise _
    rw [ha, map_append, pairwise_append]
    refine ⟨hin.increasing, pairwise_singleton _ _, ?_⟩
    intro n hn m hm
    rw [map_singleton, mem_singleton] at hm
    -- all accepted numbers are at most the last one, which is the stored one
    cases hp : snapshotOf h.state.snapshots reported with
    | none =>
      rw [hin.none_accepted hp] at hn
      cases hn
    | some prev =>
      obtain ⟨front, last, hf, -, hla⟩ := hin.stored_eq hp
      have hne := hs prev hp
      have hi := hin.increasing
      rw [hf, map_append, pairwise_append] at hi
      rw [hf, map_append, mem_append] at hn
      rcases hn with hn | hn
      · have hlt := hi.2.2 n hn last.sequence (by simp)
        omega
      · rw [map_singleton, mem_singleton] at hn
        omega
  · show (snapshotOf (upsert _ _ _ _) reported).map _ = (History.acceptedOf ⟨h.state, _⟩ reported).getLast?.map _
    rw [ha, getLast?_concat]
    unfold snapshotOf
    rw [find?_upsert (fun _ _ => rfl),
      if_pos (show reported = (rowOf reported envelope receivedAt).endpointID from rfl)]
    cases h.state.snapshots.find? fun r => r.endpointID = reported with
    | none => rfl
    | some r => rfl
  · intro comp
    show ((h.state.events ++ _).filter _).map _ = changesOf ((History.acceptedOf ⟨h.state, _⟩ reported).map _)
    rw [ha, filter_append, map_append, map_append, map_singleton]
    have hl := hin.logged comp
    unfold State.log at hl
    rw [hl]
    cases hp : snapshotOf h.state.snapshots reported with
    | none =>
      rw [hin.none_accepted hp]
      rfl
    | some prev =>
      obtain ⟨front, last, hf, hla, -⟩ := hin.stored_eq hp
      rw [Option.map_some, Option.getD_some, log_newEvents, ← hla, hf, map_append, map_singleton,
        changesOf_concat]

theorem historyInv_record_other {eid : String} (hn : eid ≠ reported) (hi : HistoryInv h eid)
    (ho : recordTx reported envelope receivedAt h.state = .ok s') :
    HistoryInv ⟨s', h.accepted ++ [(reported, envelope)]⟩ eid := by
  obtain ⟨-, rfl⟩ := recordTx_ok ho
  apply hi.congr
  · simp [History.acceptedOf, hn.symm]
  · unfold snapshotOf
    rw [find?_upsert (fun _ _ => rfl), if_neg (show ¬ eid = (rowOf reported envelope receivedAt).endpointID from hn)]
  · intro comp
    show ((h.state.events ++ _).filter _).map _ = _
    rw [filter_append]
    cases snapshotOf h.state.snapshots reported with
    | none =>
      rw [Option.map_none, Option.getD_none, filter_nil, append_nil]
      rfl
    | some prev =>
      rw [Option.map_some, Option.getD_some, log_newEvents_other _ hn, append_nil]
      rfl

end

/-- **One call.** -/
theorem historyInv_step {h : History} {eid : String} (hi : HistoryInv h eid) (call : Call) :
    HistoryInv (h.step call) eid := by
  unfold History.step perform
  cases ht : callTx call h.state with
  | error e =>
    rw [transact_of_error ht]
    apply hi.congr
    · simp [Except.toBool]
    · rfl
    · exact fun _ => rfl
  | ok s' =>
    rw [transact_of_ok ht]
    cases call with
    | identity call =>
      obtain ⟨ids, -, rfl⟩ := map_eq_ok.mp ht
      apply hi.congr
      · simp [History.acceptedOf, Call.report]
      · rfl
      · exact fun _ => rfl
    | recordEndpointIntegritySnapshot rep ev receivedAt =>
      by_cases hn : eid = rep
      · subst hn
        exact historyInv_record hi ht
      · exact historyInv_record_other hn hi ht

theorem historyInv_run (ids : Identities) (cs : List Call) (eid : String) :
    HistoryInv (run History.step (.start ids) cs) eid :=
  run_invariant (I := fun h => HistoryInv h eid) (fun _ call hi => historyInv_step hi call)
    (historyInv_start ids eid) cs

theorem HistoryInv.chain {h : History} {eid : String} (hi : HistoryInv h eid)
    {first : SignedAgentIntegritySnapshot} (hf : (h.acceptedOf eid).head? = some first) :
    ∃ row, snapshotOf h.state.snapshots eid = some row ∧
      ∀ comp, Chain (first.snapshot.sha256 comp) (row.snapshot.sha256 comp) (h.state.log eid comp) := by
  cases hr : snapshotOf h.state.snapshots eid with
  | none =>
    rw [hi.none_accepted hr] at hf
    cases hf
  | some row =>
    refine ⟨row, rfl, fun comp => ?_⟩
    obtain ⟨front, last, hfr, hl, -⟩ := hi.stored_eq hr
    rw [hi.logged comp, ← hl]
    apply chain_changesOf
    · rw [head?_map, hf]
      rfl
    · rw [hfr, map_append, map_singleton]

/-- **The integrity history is a chain.** -/
theorem integrity_history_chain (identities : Identities) (calls : List Call) :
    let h := run History.step (.start identities) calls
    (∀ endpointID, ((h.acceptedOf endpointID).map SignedAgentIntegritySnapshot.sequence).Pairwise (· < ·)) ∧
    (∀ endpointID first, (h.acceptedOf endpointID).head? = some first →
      ∃ row, snapshotOf h.state.snapshots endpointID = some row ∧
        ∀ component, Chain (first.snapshot.sha256 component) (row.snapshot.sha256 component)
          (h.state.log endpointID component)) ∧
    (∀ endpointID, h.acceptedOf endpointID = [] → snapshotOf h.state.snapshots endpointID = none ∧
      ∀ component, h.state.log endpointID component = []) ∧
    ∀ call e, (perform call h.state).1 = .error e → (perform call h.state).2 = h.state := by
  have hi := historyInv_run identities calls
  refine ⟨fun endpointID => (hi endpointID).increasing, fun endpointID first hf => (hi endpointID).chain hf,
    ?_, fun call e he => transact_error he⟩
  intro endpointID hn
  constructor
  · have hs := (hi endpointID).stored
    rw [hn, getLast?_nil, Option.map_none, Option.map_eq_none_iff] at hs
    exact hs
  · intro component
    have hl := (hi endpointID).logged component
    rw [hn] at hl
    exact hl

end Mossward.L2.IntegrityHistory
