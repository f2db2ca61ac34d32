import Mathlib.Data.List.DropRight
import Mossward.L2Store.Endpoint

/-!
# Threat indicators and their matches

The server keeps the last network inventory of every endpoint, the threat
indicators, and a table of which connection matches which indicator. The matches
of an endpoint are computed anew when its inventory is recorded, and those of all
endpoints when an indicator is saved: `internal/store/threat_indicator.go`,
`endpoint_network.go` and their schemas. A join compares the stored texts.

Results: `refreshEndpoint_ok`, `matched_upsertTx`, `matched_recordTx`.
-/
namespace Mossward.L2.ThreatIndicator

open Table L1.Rfc3339 L2.Schema L2.Endpoint List

/-! ## Tables -/

inductive IndicatorType
  | ip | hostname
  | other (text : String)
deriving DecidableEq, Repr

/-- `model.ThreatIndicator`, and a row of `threat_indicators`. -/
structure Indicator where
  id : String
  type : IndicatorType
  value : String
  source : String
  confidence : String
  observedAt : Time
  expiresAt : Time
  enabled : Bool
  createdBy : String
  createdAt : Time
  updatedAt : Time
deriving DecidableEq

/-- `model.NetworkConnection`. -/
structure NetworkConnection where
  protocol : String
  localAddress : String
  localPort : Int
  remoteAddress : String
  remotePort : Int
  processID : Int
  processName : String
  direction : String
  executable : String
  remoteHostname : String
  hostnameSource : String
  tlsServerName : String
deriving DecidableEq

/-- `model.EndpointNetworkInventory`, as an agent sends it. -/
structure NetworkInventory where
  connections : List NetworkConnection
  collectedAt : Time
deriving DecidableEq

/-- A row of `endpoint_network_inventory`. -/
structure InventoryRow where
  endpointID : String
  collectedAt : Time
  receivedAt : Time
deriving DecidableEq

/-- A row of `endpoint_network_connections`. -/
structure ConnectionRow where
  endpointID : String
  ordinal : Nat
  connection : NetworkConnection
deriving DecidableEq

/-- A row of `endpoint_indicator_matches`. -/
structure MatchRow where
  endpointID : String
  indicatorID : String
  connectionOrdinal : Nat
  matchedAt : Time
deriving DecidableEq

structure Telemetry where
  identities : Identities
  inventories : List InventoryRow
  connections : List ConnectionRow
  indicators : List Indicator
  matchRows : List MatchRow
deriving DecidableEq

/-! ## Refreshing matches -/

/-- SQLite's `lower`, which knows ASCII only. -/
def sqlLower (s : List Char) : List Char := s.map Char.toLower

/-- `rtrim(s,'.')`, which removes every dot at the end. -/
def rtrimDots (s : List Char) : List Char := s.rdropWhile (· = '.')

/-- The condition of the join. -/
def joins (c : NetworkConnection) (i : Indicator) : Bool :=
  (i.type = .ip && i.value = c.remoteAddress) ||
    (i.type = .hostname && i.value.toList = sqlLower (rtrimDots c.remoteHostname.toList))

/-- `enabled=1 AND observed_at<=? AND expires_at>?`. -/
def active (now : Time) (i : Indicator) : Bool := i.enabled && textLe i.observedAt now && !textLe i.expiresAt now

/-- The rows of the join for an endpoint. -/
def joined (s : Telemetry) (endpointID : String) (now : Time) : List MatchRow :=
  (s.connections.filter fun c => c.endpointID = endpointID).flatMap fun c =>
    (s.indicators.filter fun i => joins c.connection i && active now i).map fun i =>
      ⟨endpointID, i.id, c.ordinal, now⟩

def matchKey (m : MatchRow) : String × String × Nat := (m.endpointID, m.indicatorID, m.connectionOrdinal)

def refuseMatch (t : List MatchRow) (m : MatchRow) : Option EndpointError :=
  if matchKey m ∈ t.map matchKey then some (.constraint .primaryKey) else none

/-- Mirrors `refreshEndpointIndicatorMatches`,
`internal/store/threat_indicator.go:100-109`. -/
def refreshEndpoint (endpointID : String) (now : Time) (s : Telemetry) : Except EndpointError Telemetry := do
  let kept := s.matchRows.filter fun m => m.endpointID ≠ endpointID
  let matchRows ← insertAll refuseMatch kept (joined s endpointID now)
  return { s with matchRows }

/-- The loop of `refreshAllIndicatorMatches`,
`internal/store/threat_indicator.go:75-98`. -/
def refreshEach (now : Time) : List String → Telemetry → Except EndpointError Telemetry
  | [], s => .ok s
  | id :: ids, s => do
    let s ← refreshEndpoint id now s
    refreshEach now ids s

/-! ## Transactions -/

def confidences : List String := ["low", "medium", "high"]

/-- What `ON CONFLICT(id) DO UPDATE` sets; the creator and the time of creation
stay. -/
def Indicator.update (new old : Indicator) : Indicator :=
  { new with createdBy := old.createdBy, createdAt := old.createdAt, id := old.id }

/-- The transaction of `UpsertThreatIndicator`,
`internal/store/threat_indicator.go:10-29`. -/
def upsertTx (indicator : Indicator) (now : Time) (recorded : Bool) (s : Telemetry) :
    Except EndpointError Telemetry := do
  require (indicator.type = .ip || indicator.type = .hostname) (.constraint .check)
  require (indicator.confidence ∈ confidences) (.constraint .check)
  require
    (s.indicators.all fun i =>
      i.id = indicator.id || (i.type, i.value, i.source) ≠ (indicator.type, indicator.value, indicator.source))
    (.constraint .unique)
  let indicators := upsert Indicator.id indicator.update s.indicators indicator
  let s ← refreshEach now (s.inventories.map InventoryRow.endpointID) { s with indicators }
  require recorded .auditEvent
  return s

/-- The rows of an inventory. -/
def connectionRows (endpointID : String) (inventory : NetworkInventory) : List ConnectionRow :=
  inventory.connections.mapIdx fun ordinal connection => ⟨endpointID, ordinal, connection⟩

/-- What `ON CONFLICT(endpoint_id) DO UPDATE` sets. -/
def InventoryRow.update (collectedAt receivedAt : Time) (row : InventoryRow) : InventoryRow :=
  { row with collectedAt, receivedAt }

/-- The transaction of `RecordEndpointNetworkInventory`,
`internal/store/endpoint_network.go:11-39`. -/
def recordTx (endpointID : String) (inventory : NetworkInventory) (receivedAt : Time) (s : Telemetry) :
    Except EndpointError Telemetry := do
  require (Active s.identities.endpoints endpointID) .notFound
  let inventories :=
    upsert InventoryRow.endpointID (InventoryRow.update inventory.collectedAt receivedAt) s.inventories
      ⟨endpointID, inventory.collectedAt, receivedAt⟩
  let connections := (s.connections.filter fun c => c.endpointID ≠ endpointID) ++ connectionRows endpointID inventory
  refreshEndpoint endpointID receivedAt { s with inventories, connections }

/-! ## What a refresh writes -/

section
variable {s s' : Telemetry} {id : String} {now : Time}

/-- The rows for an endpoint are the join of its connections with the indicators
that are active at a time. -/
def Matched (s : Telemetry) (endpointID : String) (now : Time) : Prop :=
  (s.matchRows.filter fun m => m.endpointID = endpointID) = joined s endpointID now

theorem endpointID_of_mem_joined {m : MatchRow} (h : m ∈ joined s id now) : m.endpointID = id := by
  obtain ⟨c, -, hm⟩ := mem_flatMap.mp h
  obtain ⟨i, -, rfl⟩ := mem_map.mp hm
  rfl

theorem refuseMatch_none_iff (t : List MatchRow) (m : MatchRow) :
    refuseMatch t m = none ↔ True ∧ ∀ x ∈ t, matchKey x ≠ matchKey m := by
  unfold refuseMatch
  constructor
  · intro h
    split at h
    · cases h
    · next hf => exact ⟨trivial, fun x hx he => hf (mem_map.mpr ⟨x, hx, he⟩)⟩
  · intro ⟨_, hf⟩
    rw [if_neg]
    intro hm
    obtain ⟨x, hx, he⟩ := mem_map.mp hm
    exact hf x hx he

theorem refreshEndpoint_ok (h : refreshEndpoint id now s = .ok s') :
    s' = { s with matchRows := (s.matchRows.filter fun m => m.endpointID ≠ id) ++ joined s id now } := by
  obtain ⟨rows, hr, h⟩ := bind_eq_ok.mp h
  cases h
  obtain ⟨-, rfl⟩ := (insertAll_ok_iff refuseMatch_none_iff).mp hr
  rfl

theorem matched_refreshEndpoint (h : refreshEndpoint id now s = .ok s') : Matched s' id now := by
  rw [refreshEndpoint_ok h]
  show ((s.matchRows.filter fun m => m.endpointID ≠ id) ++ joined s id now).filter (fun m => m.endpointID = id) =
    joined s id now
  have hk : (s.matchRows.filter fun m => m.endpointID ≠ id).filter (fun m => m.endpointID = id) = [] := by
    simp
  have hn : (joined s id now).filter (fun m => m.endpointID = id) = joined s id now := by
    rw [filter_eq_self]
    intro m hm
    simpa using endpointID_of_mem_joined hm
  rw [filter_append, hk, hn, nil_append]

theorem matched_other {other : String} {t : Time} (hn : other ≠ id) (hma : Matched s other t)
    (h : refreshEndpoint id now s = .ok s') : Matched s' other t := by
  rw [refreshEndpoint_ok h]
  show ((s.matchRows.filter fun m => m.endpointID ≠ id) ++ joined s id now).filter (fun m => m.endpointID = other) =
    joined s other t
  have hk : (s.matchRows.filter fun m => m.endpointID ≠ id).filter (fun m => m.endpointID = other) =
      s.matchRows.filter fun m => m.endpointID = other := by
    rw [filter_filter]
    apply filter_congr
    intro m _
    by_cases hm : m.endpointID = other
    · simp [hm, hn]
    · simp [hm]
  have hn1 : (joined s id now).filter (fun m => m.endpointID = other) = [] := by
    rw [filter_eq_nil_iff]
    intro m hm
    rw [endpointID_of_mem_joined hm]
    simpa using fun he => hn he.symm
  rw [filter_append, hk, hn1, append_nil]
  exact hma

theorem refreshEach_ok {ids : List String} (h : refreshEach now ids s = .ok s') :
    (∃ matchRows, s' = { s with matchRows }) ∧ ∀ id, id ∈ ids ∨ Matched s id now → Matched s' id now := by
  induction ids generalizing s with
  | nil =>
    cases h
    exact ⟨⟨_, rfl⟩, fun id hi => hi.resolve_left not_mem_nil⟩
  | cons first ids ih =>
    obtain ⟨middle, hf, hre⟩ := bind_eq_ok.mp h
    obtain ⟨⟨rows, hr⟩, hm⟩ := ih hre
    refine ⟨⟨rows, ?_⟩, ?_⟩
    · rw [hr, refreshEndpoint_ok hf]
    · intro id hi
      apply hm
      by_cases he : id = first
      · subst he
        exact Or.inr (matched_refreshEndpoint hf)
      · rcases hi with hi | hi
        · exact Or.inl ((mem_cons.mp hi).resolve_left he)
        · exact Or.inr (matched_other he hi hf)

/-! ## What a call writes -/

/-- **Saving an indicator.** The indicator is in its table, inventories and
connections stay, and every endpoint with an inventory is matched at that time. -/
theorem matched_upsertTx {ind : Indicator} {rec : Bool} (h : upsertTx ind now rec s = .ok s') :
    s'.identities = s.identities ∧ s'.inventories = s.inventories ∧ s'.connections = s.connections ∧
      s'.indicators = upsert Indicator.id ind.update s.indicators ind ∧
      ∀ row ∈ s.inventories, Matched s' row.endpointID now := by
  obtain ⟨-, -, h⟩ := bind_eq_ok.mp h
  obtain ⟨-, -, h⟩ := bind_eq_ok.mp h
  obtain ⟨-, -, h⟩ := bind_eq_ok.mp h
  obtain ⟨refreshed, hre, h⟩ := bind_eq_ok.mp h
  obtain ⟨-, -, h⟩ := bind_eq_ok.mp h
  cases h
  obtain ⟨⟨rows, hr⟩, hm⟩ := refreshEach_ok hre
  refine ⟨?_, ?_, ?_, ?_, ?_⟩
  · rw [hr]
  · rw [hr]
  · rw [hr]
  · rw [hr]
  · intro row hro
    exact hm row.endpointID (Or.inl (mem_map.mpr ⟨row, hro, rfl⟩))

/-- **Recording an inventory.** The endpoint has an inventory, its connections are
those of the inventory, indicators stay, and the endpoint is matched at that time. -/
theorem matched_recordTx {inv : NetworkInventory} (h : recordTx id inv now s = .ok s') :
    s'.identities = s.identities ∧ s'.indicators = s.indicators ∧ (∃ row ∈ s'.inventories, row.endpointID = id) ∧
      (s'.connections.filter fun c => c.endpointID = id) = connectionRows id inv ∧ Matched s' id now := by
  obtain ⟨-, -, h⟩ := bind_eq_ok.mp h
  have hm := matched_refreshEndpoint h
  have hs' := refreshEndpoint_ok h
  refine ⟨?_, ?_, ?_, ?_, hm⟩
  · rw [hs']
  · rw [hs']
  · rw [hs']
    exact @exists_key_upsert _ _ InventoryRow.endpointID _ _ (InventoryRow.update inv.collectedAt now)
      (fun _ => rfl) _
  · rw [hs']
    have ho : (s.connections.filter fun c => c.endpointID ≠ id).filter (fun c => c.endpointID = id) = [] := by
      simp
    have hn : (connectionRows id inv).filter (fun c => c.endpointID = id) = connectionRows id inv := by
      rw [filter_eq_self]
      intro c hc
      obtain ⟨i, hi, rfl⟩ := mem_mapIdx.mp hc
      simp
    rw [filter_append, ho, hn, nil_append]

end

end Mossward.L2.ThreatIndicator
