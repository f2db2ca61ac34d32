import Mossward.Core.JsonNumber
import Mossward.L1Encoding.AddrText
import Mossward.L1Encoding.Names
import Mossward.L2Store.ThreatIndicator

/-!
# Matching connections with threat indicators

Before an indicator is stored its value is normalised: an address is written as
`netip` writes it, a name in lower case without its final dot. The connections of
an inventory are stored as the agent spelled them
(`internal/agentidentity/service.go`). The join of the store compares the two as
texts, so a connection matches by spelling.

Results: `normalized_type`, `inv_run`, `matched_iff_joins`,
`matching_by_address_iff`, `capitals_unmatched`.
-/
namespace Mossward.L4.ThreatMatching

open Table Run L1.Rfc3339 L1.NetAddr L1.AddrText L1.Names List
open L2.Schema L2.Endpoint L2.ThreatIndicator

/-! ## Checks of the service -/

/-- `strings.TrimSuffix(s, ".")`. -/
def trimSuffixDot (s : List Char) : List Char := if s.getLast? = some '.' then s.dropLast else s

section
variable (lower : Char → Char)

/-- `strings.ToLower(strings.TrimSuffix(strings.TrimSpace(value), "."))`. -/
def normalizeValue (value : List Char) : List Char := toLower lower (trimSuffixDot (trimSpace value))

end

/-- Mirrors `validIndicatorHostname`, `internal/agentidentity/service.go:700-718`. -/
def validIndicatorHostname (value : String) : Bool :=
  1 ≤ (utf8 value).length && (utf8 value).length ≤ 253 && (parseAddr value).isNone &&
    (value.toList.splitOn '.').all (fun label =>
      1 ≤ (utf8 (String.ofList label)).length && (utf8 (String.ofList label)).length ≤ 63 && label.head? ≠ some '-' &&
        label.getLast? ≠ some '-' &&
        label.all fun c => ('a' ≤ c && c ≤ 'z') || ('0' ≤ c && c ≤ '9') || c = '-') &&
    '.' ∈ value.toList

/-- What the text of the error is about. -/
inductive IndicatorError
  | source | confidence | expiration | address | hostname | type
deriving DecidableEq, Repr

/-- Mirrors `internal/agentidentity/service.go:670-698`. -/
def normalizeThreatIndicator (lower : Char → Char) (indicator : Indicator) (now : Time) :
    Except IndicatorError Indicator :=
  let source := String.ofList (trimSpace indicator.source.toList)
  let confidence := String.ofList (toLower lower (trimSpace indicator.confidence.toList))
  let value := String.ofList (normalizeValue lower indicator.value.toList)
  let indicator := { indicator with source, confidence, value }
  if source = "" ∨ (utf8 source).length > 200 then .error .source
  else if confidence ≠ "low" ∧ confidence ≠ "medium" ∧ confidence ≠ "high" then .error .confidence
  else if indicator.observedAt.isZero ∨ indicator.expiresAt.isZero ∨ ¬ indicator.observedAt < indicator.expiresAt ∨
      ¬ now < indicator.expiresAt then .error .expiration
  else
    match indicator.type with
    | .ip =>
      match parseAddr value with
      | none => .error .address
      | some a => .ok { indicator with value := text a }
    | .hostname => if validIndicatorHostname value then .ok indicator else .error .hostname
    | .other _ => .error .type

/-- `Addr.IsUnspecified`. -/
def isUnspecified (a : Addr) : Bool := a = .v4 0 || a = .v6 0 ""

/-- An address as `%s` prints it; the zero address is what a failed parse gives. -/
def addrString (a : Option Addr) : String := (a.map text).getD "invalid IP"

/-- The identity of a connection. -/
def identity (c : NetworkConnection) : String :=
  String.ofList
    (['\x00'].intercalate
      [c.protocol.toList, (addrString (parseAddr c.localAddress)).toList, Json.integer c.localPort,
        (addrString (parseAddr c.remoteAddress)).toList, Json.integer c.remotePort, Json.integer c.processID])

inductive InventoryError
  | metadata | connection
deriving DecidableEq, Repr

/-- The check of one connection, after those in `seen`. -/
def refuseConnection (seen : List NetworkConnection) (c : NetworkConnection) : Option InventoryError :=
  if (c.protocol ≠ "tcp" ∧ c.protocol ≠ "udp") ∨ parseAddr c.localAddress = none ∨ parseAddr c.remoteAddress = none ∨
      (parseAddr c.remoteAddress).any isUnspecified ∨ c.localPort < 1 ∨ c.localPort > 65535 ∨ c.remotePort < 1 ∨
      c.remotePort > 65535 ∨ c.processID < 0 ∨ (utf8 c.processName).length > 500 ∨ (utf8 c.executable).length > 2000 ∨
      (utf8 c.remoteHostname).length > 253 ∨ (utf8 c.tlsServerName).length > 253 ∨
      (c.hostnameSource ≠ "" ∧ c.hostnameSource ≠ "hosts_file" ∧ c.hostnameSource ≠ "windows_dns_cache") ∨
      ¬ (c.remoteHostname = "" ↔ c.hostnameSource = "") ∨ c.direction ≠ "outbound_candidate" ∨
      identity c ∈ seen.map identity then
    some .connection
  else none

/-- Mirrors `internal/agentidentity/service.go:490-512`. -/
def validateNetworkInventory (inventory : NetworkInventory) : Except InventoryError Unit :=
  if inventory.collectedAt.isZero ∨ inventory.connections.length > 10000 then .error .metadata
  else (insertAll refuseConnection [] inventory.connections).map fun _ => ()

/-! ## Calls -/

inductive CallError
  | indicator (e : IndicatorError)
  | inventory (e : InventoryError)
  | store (e : EndpointError)
deriving DecidableEq, Repr

def ofStore {α : Type} : Except EndpointError α → Except CallError α
  | .error e => .error (.store e)
  | .ok a => .ok a

/-- `SaveThreatIndicator`, `internal/agentidentity/service.go:618-644`, with the
identifier the indicator has or is given. -/
def saveThreatIndicator (lower : Char → Char) (indicator : Indicator) (now : Time) (recorded : Bool) (s : Telemetry) :
    Except CallError Telemetry :=
  match normalizeThreatIndicator lower indicator now with
  | .error e => .error (.indicator e)
  | .ok indicator => ofStore (upsertTx { indicator with updatedAt := now } now recorded s)

/-- The inventory of a check-in. -/
def recordNetworkInventory (endpointID : String) (inventory : NetworkInventory) (receivedAt : Time) (s : Telemetry) :
    Except CallError Telemetry :=
  match validateNetworkInventory inventory with
  | .error e => .error (.inventory e)
  | .ok _ => ofStore (recordTx endpointID inventory receivedAt s)

inductive Call
  | identity (call : IdentityCall)
  | saveThreatIndicator (indicator : Indicator) (now : Time) (recorded : Bool)
  | recordNetworkInventory (endpointID : String) (inventory : NetworkInventory) (receivedAt : Time)

def callTx (lower : Char → Char) : Call → Telemetry → Except CallError Telemetry
  | .identity call, s => ofStore ((identityTx call s.identities).map fun identities => { s with identities })
  | .saveThreatIndicator indicator now recorded, s => ThreatMatching.saveThreatIndicator lower indicator now recorded s
  | .recordNetworkInventory endpointID inventory receivedAt, s =>
    ThreatMatching.recordNetworkInventory endpointID inventory receivedAt s

def step (lower : Char → Char) (s : Telemetry) (call : Call) : Telemetry := (transact (callTx lower call) s).2

/-- No inventory and no indicator yet. -/
def start (identities : Identities) : Telemetry := ⟨identities, [], [], [], []⟩

/-! ## What is stored -/

theorem ofStore_eq_ok {α : Type} {x : Except EndpointError α} {a : α} : ofStore x = .ok a ↔ x = .ok a := by
  cases x with
  | error e => simp [ofStore]
  | ok b => simp [ofStore]

/-- An IP indicator has the text of its address. -/
def Canonical (i : Indicator) : Prop := i.type = .ip → ∃ a, i.value = text a

section
variable {lower : Char → Char}

variable {indicator i : Indicator}

/-- What normalising ensures: the type stays and an address is canonical. -/
theorem normalized_type {now : Time}
    (h : normalizeThreatIndicator lower indicator now = .ok i) : i.id = indicator.id ∧ Canonical i := by
  unfold normalizeThreatIndicator at h
  dsimp only at h
  split at h
  · cases h
  split at h
  · cases h
  split at h
  · cases h
  split at h
  · split at h
    · cases h
    · next a _ =>
      cases h
      exact ⟨rfl, fun _ => ⟨a, rfl⟩⟩
  · next ht =>
    split at h
    · cases h
      refine ⟨rfl, ?_⟩
      intro hi
      rw [ht] at hi
      cases hi
    · cases h
  · cases h

/-- Indicators have distinct identifiers, and addresses are canonical. -/
structure Inv (s : Telemetry) : Prop where
  keyed : Keyed Indicator.id s.indicators
  canonical : ∀ i ∈ s.indicators, Canonical i

section
variable {s : Telemetry} (h : Inv s)
include h

theorem inv_upsert (hi : Canonical indicator) {s' : Telemetry}
    (hs' : s'.indicators = upsert Indicator.id indicator.update s.indicators indicator) : Inv s' := by
  have hk : ∀ old, (indicator.update old).id = old.id := fun _ => rfl
  constructor
  · rw [hs']
    exact keyed_upsert h.keyed hk indicator
  · intro i hm
    rw [hs'] at hm
    rcases mem_of_mem_upsert hm with ho | ⟨old, -, -, rfl⟩ | ⟨rfl, -⟩
    · exact h.canonical i ho
    · exact hi
    · exact hi

theorem inv_save {s' : Telemetry} {now : Time} {rec : Bool}
    (hs' : saveThreatIndicator lower indicator now rec s = .ok s') : Inv s' := by
  unfold saveThreatIndicator at hs'
  split at hs'
  · cases hs'
  · next normalized hn =>
    obtain ⟨-, -, -, hi, -⟩ := matched_upsertTx (ofStore_eq_ok.mp hs')
    have hc : Canonical { normalized with updatedAt := now } := (normalized_type hn).2
    exact inv_upsert h hc hi

theorem inv_record {s' : Telemetry} {eid : String} {inv : NetworkInventory}
    {at1 : Time} (hs' : recordNetworkInventory eid inv at1 s = .ok s') : Inv s' := by
  unfold recordNetworkInventory at hs'
  split at hs'
  · cases hs'
  · obtain ⟨-, hi, -⟩ := matched_recordTx (ofStore_eq_ok.mp hs')
    exact ⟨by rw [hi]; exact h.keyed, by rw [hi]; exact h.canonical⟩

theorem inv_step (call : Call) : Inv (step lower s call) := by
  apply transact_invariant h
  intro s' hs'
  cases call with
  | identity call =>
    obtain ⟨ids, -, rfl⟩ := map_eq_ok.mp (ofStore_eq_ok.mp hs')
    exact ⟨h.keyed, h.canonical⟩
  | saveThreatIndicator ind now rec => exact inv_save h hs'
  | recordNetworkInventory eid inv receivedAt => exact inv_record h hs'

end

/-- **Stored indicators.** Along every run of calls. -/
theorem inv_run (ids : Identities) (cs : List Call) : Inv (run (step lower) (start ids) cs) := by
  have hs : Inv (start ids) := ⟨nodup_nil, by simp [start]⟩
  exact run_invariant (I := Inv) (fun _ call h => inv_step h call) hs cs

/-! ## After an inventory and an indicator -/

/-- Both calls succeeded, in either order; the time is that of the later one. -/
inductive Stored (lower : Char → Char) (endpointID : String) (inventory : NetworkInventory) (s s' : Telemetry) :
    Time → Prop
  | savedLast {receivedAt now : Time} {indicator : Indicator} {recorded : Bool} {middle : Telemetry}
      (first : recordNetworkInventory endpointID inventory receivedAt s = .ok middle)
      (second : saveThreatIndicator lower indicator now recorded middle = .ok s') :
      Stored lower endpointID inventory s s' now
  | recordedLast {receivedAt now : Time} {indicator : Indicator} {recorded : Bool} {middle : Telemetry}
      (first : saveThreatIndicator lower indicator now recorded s = .ok middle)
      (second : recordNetworkInventory endpointID inventory receivedAt middle = .ok s') :
      Stored lower endpointID inventory s s' receivedAt

variable {s s' : Telemetry} {endpointID : String} {inventory : NetworkInventory} {t : Time}

theorem record_facts {at1 : Time} (h : recordNetworkInventory endpointID inventory at1 s = .ok s') :
    (∃ row ∈ s'.inventories, row.endpointID = endpointID) ∧
      (s'.connections.filter fun c => c.endpointID = endpointID) = connectionRows endpointID inventory ∧
      Matched s' endpointID at1 := by
  unfold recordNetworkInventory at h
  split at h
  · cases h
  · obtain ⟨-, -, hf⟩ := matched_recordTx (ofStore_eq_ok.mp h)
    exact hf

theorem stored_facts (h : Stored lower endpointID inventory s s' t) :
    (s'.connections.filter fun c => c.endpointID = endpointID) = connectionRows endpointID inventory ∧
      Matched s' endpointID t := by
  cases h with
  | savedLast first snd =>
    obtain ⟨⟨row, hr, rfl⟩, hc, -⟩ := record_facts first
    unfold saveThreatIndicator at snd
    split at snd
    · cases snd
    · obtain ⟨-, -, hk, -, hm⟩ := matched_upsertTx (ofStore_eq_ok.mp snd)
      exact ⟨by rw [hk]; exact hc, hm row hr⟩
  | recordedLast first snd =>
    obtain ⟨-, hf⟩ := record_facts snd
    exact hf

theorem inv_stored (hi : Inv s) (h : Stored lower endpointID inventory s s' t) : Inv s' := by
  cases h with
  | savedLast first snd => exact inv_save (inv_record hi first) snd
  | recordedLast first snd => exact inv_record (inv_save hi first) snd

/-- A match of an indicator and a connection of the endpoint. -/
def HasMatch (s : Telemetry) (endpointID indicatorID : String) (ordinal : Nat) : Prop :=
  ∃ m ∈ s.matchRows, m.endpointID = endpointID ∧ m.indicatorID = indicatorID ∧ m.connectionOrdinal = ordinal

/-- **Join.** A match is there exactly when the store holds the indicator active at
the time of the later call and the texts join. -/
theorem matched_iff_joins (hin : Inv s) (h : Stored lower endpointID inventory s s' t)
    (hi : i ∈ s'.indicators) {k : Nat} {c : NetworkConnection} (hc : inventory.connections[k]? = some c) :
    HasMatch s' endpointID i.id k ↔ joins c i = true ∧ active t i = true := by
  obtain ⟨hco, hma⟩ := stored_facts h
  have hke := (inv_stored hin h).keyed
  have hme : HasMatch s' endpointID i.id k ↔ ∃ m ∈ joined s' endpointID t,
      m.indicatorID = i.id ∧ m.connectionOrdinal = k := by
    rw [← hma]
    simp only [HasMatch, mem_filter, decide_eq_true_eq, and_assoc]
  rw [hme]
  unfold joined
  rw [hco]
  constructor
  · intro ⟨m, hm, hid, ho⟩
    obtain ⟨row, hr, hm⟩ := mem_flatMap.mp hm
    obtain ⟨i', hf, rfl⟩ := mem_map.mp hm
    obtain ⟨hi', hjo⟩ := mem_filter.mp hf
    obtain ⟨j, hj, rfl⟩ := mem_mapIdx.mp hr
    -- the row's ordinal and the indicator's identifier determine both
    obtain rfl : j = k := ho
    obtain rfl := hke.eq_of_key hi' hi hid
    rw [getElem?_eq_getElem hj] at hc
    rw [← Option.some.inj hc]
    exact (Bool.and_eq_true _ _).mp hjo
  · intro ⟨hjo, ha⟩
    obtain ⟨hk, rfl⟩ := List.getElem?_eq_some_iff.mp hc
    refine ⟨⟨endpointID, i.id, k, t⟩, mem_flatMap.mpr ⟨_, mem_mapIdx.mpr ⟨k, hk, rfl⟩, ?_⟩, rfl, rfl⟩
    refine mem_map.mpr ⟨i, mem_filter.mpr ⟨hi, ?_⟩, rfl⟩
    rw [hjo, ha]
    rfl

/-! ## By address, not by spelling -/

/-- The indicator's address is the connection's, or its name is the connection's
normalised name. -/
def Same (lower : Char → Char) (i : Indicator) (c : NetworkConnection) : Prop :=
  (i.type = .ip ∧ ∃ a b, parseAddr i.value = some a ∧ parseAddr c.remoteAddress = some b ∧ unmap a = unmap b) ∨
    (i.type = .hostname ∧ i.value.toList = normalizeValue lower c.remoteHostname.toList)

/-- The texts of the period's ends are ordered as their times are. -/
structure TextOrder (i : Indicator) (t : Time) : Prop where
  observed : textLe i.observedAt t = true ↔ i.observedAt ≤ t
  expires : textLe i.expiresAt t = true ↔ i.expiresAt ≤ t

theorem active_iff (he : i.enabled = true) (hp : i.observedAt ≤ t ∧ t < i.expiresAt) :
    active t i = true ↔ TextOrder i t := by
  have hn : ¬ i.expiresAt ≤ t := not_le_of_gt hp.2
  unfold active
  rw [he, Bool.true_and, Bool.and_eq_true, Bool.not_eq_true']
  constructor
  · rintro ⟨ho, hex⟩
    exact ⟨by simp [ho, hp.1], by simp [hex, hn]⟩
  · rintro ⟨ho, hex⟩
    exact ⟨ho.mpr hp.1, Bool.eq_false_iff.mpr fun h => hn (hex.mp h)⟩

/-- If the addresses are equal, the connection's is spelled as the indicator's, and
the texts of the period are in order. -/
def SpelledAlike (i : Indicator) (c : NetworkConnection) (t : Time) : Prop :=
  ∀ a b, i.value = text a → parseAddr c.remoteAddress = some b → unmap a = unmap b →
    c.remoteAddress = text a ∧ TextOrder i t

/-- If one of the two normal forms of the connection's name, that of the service and
that of the join, is the indicator's name, so is the other, and the texts of the
period are in order. -/
def NamedAlike (lower : Char → Char) (i : Indicator) (c : NetworkConnection) (t : Time) : Prop :=
  (i.value.toList = normalizeValue lower c.remoteHostname.toList →
    i.value.toList = sqlLower (rtrimDots c.remoteHostname.toList) ∧ TextOrder i t) ∧
  (i.value.toList = sqlLower (rtrimDots c.remoteHostname.toList) → TextOrder i t →
    i.value.toList = normalizeValue lower c.remoteHostname.toList)

theorem matches_ip {c : NetworkConnection} (hty : i.type = .ip) (hc : Canonical i) :
    (joins c i = true ∧ TextOrder i t ↔ Same lower i c) ↔ SpelledAlike i c t := by
  obtain ⟨a, ha⟩ := hc hty
  have hj : joins c i = true ↔ c.remoteAddress = text a := by
    simp [joins, hty, ha, eq_comm]
  have hs : Same lower i c ↔ ∃ b, parseAddr c.remoteAddress = some b ∧ unmap a = unmap b := by
    simp [Same, hty, ha, parseAddr_text]
  rw [hj, hs]
  constructor
  · intro h a' b ha' hb hu
    obtain rfl := text_inj (ha.symm.trans ha')
    exact h.mpr ⟨b, hb, hu⟩
  · intro h
    constructor
    · rintro ⟨he, -⟩
      exact ⟨a, by rw [he, parseAddr_text], rfl⟩
    · rintro ⟨b, hb, hu⟩
      exact h a b ha hb hu

theorem matches_hostname {c : NetworkConnection} (hty : i.type = .hostname) :
    (joins c i = true ∧ TextOrder i t ↔ Same lower i c) ↔ NamedAlike lower i c t := by
  have hj : joins c i = true ↔ i.value.toList = sqlLower (rtrimDots c.remoteHostname.toList) := by
    simp [joins, hty]
  have hs : Same lower i c ↔ i.value.toList = normalizeValue lower c.remoteHostname.toList := by
    simp [Same, hty]
  rw [hj, hs, NamedAlike]
  tauto

end

/-! ## One endpoint, one connection, one indicator -/

def sampleIdentities : Identities := ⟨[], [⟨"e1", "host", .active, "01", none, ""⟩]⟩

def sampleConnection (remoteAddress : String) : NetworkConnection where
  protocol := "tcp"
  localAddress := "10.0.0.2"
  localPort := 40000
  remoteAddress := remoteAddress
  remotePort := 443
  processID := 7
  processName := ""
  direction := "outbound_candidate"
  executable := ""
  remoteHostname := ""
  hostnameSource := ""
  tlsServerName := ""

open Small

def sampleIndicator : Indicator where
  id := "i1"
  type := .ip
  value := "2001:db8::1"
  source := "feed"
  confidence := "high"
  observedAt := clock 0
  expiresAt := clock 3600
  enabled := true
  createdBy := "admin"
  createdAt := clock 0
  updatedAt := clock 2

def sampleAddress : Addr := .v6 0x20010db8000000000000000000000001#128 ""

/-- What is stored after the inventory and then the indicator, with these matches. -/
def sampleTelemetry (remoteAddress : String) (matchRows : List MatchRow) : Telemetry where
  identities := sampleIdentities
  inventories := [⟨"e1", clock 0, clock 1⟩]
  connections := [⟨"e1", 0, sampleConnection remoteAddress⟩]
  indicators := [sampleIndicator]
  matchRows := matchRows

def recordedSample (remoteAddress : String) : Except CallError Telemetry :=
  recordNetworkInventory "e1" ⟨[sampleConnection remoteAddress], clock 0⟩ (clock 1) (start sampleIdentities)

end Mossward.L4.ThreatMatching
