import Mossward.L2Store.AssetIdentity

/-!
# Merging two assets

An administrator merges two assets: the survivor takes over everything that
refers to the merged asset, which is then deleted, and keeps for each column the
value of the asset chosen for it. `internal/store/asset_merge.go`. The
transaction rewires six tables under primary keys of their own; the invariant
that saves keep (`Identity`) makes every one of those statements succeed.

Results: `ends_mergeTx`, `joined_identity`, `asset_identity`.
-/
namespace Mossward.L2.AssetMerge

open Table Run L1.Rfc3339 Model L2.Schema L2.Intelligence List
open L2.Asset L2.ScanStore L2.AssetIdentity

/-! ## Tables -/

inductive LifecycleStatus
  | active | retired
deriving DecidableEq, Repr

/-- The columns of `assets` that `Save` leaves at their defaults. -/
structure Profile where
  owner : String := ""
  environment : String := ""
  classification : String := ""
  lifecycleStatus : LifecycleStatus := .active
  retiredAt : Option Time := none
  retiredBy : String := ""
  retirementReason : String := ""
deriving DecidableEq

structure GroupMemberRow where
  groupID : String
  assetID : String
  addedAt : Time
  addedBy : String
deriving DecidableEq

/-- `PRIMARY KEY(group_id,asset_id)`. -/
def GroupMemberRow.key (r : GroupMemberRow) : String × String := (r.groupID, r.assetID)

/-- `endpoints.asset_id` has no cascade. -/
structure EndpointRow where
  id : String
  assetID : Option String
deriving DecidableEq

structure Inventory where
  db : DB
  /-- The remaining columns of `assets`, by asset. -/
  profile : String → Profile
  groupMembers : List GroupMemberRow
  endpoints : List EndpointRow

namespace Inventory

def asset (s : Inventory) : AssetTables := s.db.scan.asset

def withAsset (s : Inventory) (a : AssetTables) : Inventory :=
  { s with db := { s.db with scan := { s.db.scan with asset := a } } }

def empty : Inventory where
  db := emptyTables [] true
  profile := fun _ => {}
  groupMembers := []
  endpoints := []

end Inventory

/-! ## The request -/

structure AssetMergeRequest where
  survivorID : String
  mergedID : String
  nameFrom : String
  addressFrom : String
  ownerFrom : String
  environmentFrom : String
  classificationFrom : String
  lifecycleFrom : String
deriving DecidableEq

inductive AssetTable
  | assets | assetAddresses | assetNames | endpoints
deriving DecidableEq, Repr

inductive MergeError
  | message (text : String)
  /-- `ErrAssetNotFound`. -/
  | assetNotFound
  | constraint (context : String) (table : AssetTable) (kind : Constraint)
  /-- What `insertAuditEvent` reports. -/
  | auditEvent
deriving DecidableEq, Repr

/-- Mirrors `internal/store/asset_merge.go:86-90`. -/
def validMergeSources (request : AssetMergeRequest) : Bool :=
  let valid := fun id => id = request.survivorID || id = request.mergedID
  valid request.nameFrom && valid request.addressFrom && valid request.ownerFrom &&
    valid request.environmentFrom && valid request.classificationFrom && valid request.lifecycleFrom

/-- `mergeAssetRecord`. -/
structure MergeAssetRecord where
  row : AssetRow
  profile : Profile

/-- Mirrors `internal/store/asset_merge.go:92-102`. -/
def loadMergeAsset (s : Inventory) (id : String) : Except MergeError MergeAssetRecord :=
  match s.asset.assets.find? (fun r => r.id = id) with
  | none => .error .assetNotFound
  | some row => .ok { row := row, profile := s.profile id }

/-- `byID[id]`; `validMergeSources` leaves no third identifier. -/
def byID (survivor merged : MergeAssetRecord) (id : String) : MergeAssetRecord :=
  if id = merged.row.id then merged else survivor

/-- Mirrors `internal/store/asset_merge.go:119-131`: texts of times are compared. -/
def mergedAssetTimes (survivor merged : AssetRow) : Time × Time × String :=
  let firstSeen := if sqlite.lt merged.firstSeen survivor.firstSeen then merged.firstSeen else survivor.firstSeen
  if sqlite.lt survivor.lastSeen merged.lastSeen then (firstSeen, merged.lastSeen, merged.lastScanID)
  else (firstSeen, survivor.lastSeen, survivor.lastScanID)

/-- The row that `UPDATE assets` leaves, with `mergeSelectedAsset`,
`internal/store/asset_merge.go:104-117`. -/
def mergedRow (request : AssetMergeRequest) (survivor merged : MergeAssetRecord) (old : AssetRow) : AssetRow :=
  { old with
    name := (byID survivor merged request.nameFrom).row.name
    address := (byID survivor merged request.addressFrom).row.address
    firstSeen := (mergedAssetTimes survivor.row merged.row).1
    lastSeen := (mergedAssetTimes survivor.row merged.row).2.1
    lastScanID := (mergedAssetTimes survivor.row merged.row).2.2 }

def mergedProfile (request : AssetMergeRequest) (survivor merged : MergeAssetRecord) : Profile where
  owner := (byID survivor merged request.ownerFrom).profile.owner
  environment := (byID survivor merged request.environmentFrom).profile.environment
  classification := (byID survivor merged request.classificationFrom).profile.classification
  lifecycleStatus := (byID survivor merged request.lifecycleFrom).profile.lifecycleStatus
  retiredAt := (byID survivor merged request.lifecycleFrom).profile.retiredAt
  retiredBy := (byID survivor merged request.lifecycleFrom).profile.retiredBy
  retirementReason := (byID survivor merged request.lifecycleFrom).profile.retirementReason

/-! ## The statements -/

/-- `UPDATE t SET asset_id=survivor WHERE asset_id=merged`, for rows with that
column and a way to set it. -/
def reassign {α : Type} (assetID : α → String) (set : String → α → α) (survivorID mergedID : String)
    (t : List α) : List α :=
  updateWhere (fun r => assetID r = mergedID) (set survivorID) t

def setAddressAsset (id : String) (r : AssetAddressRow) : AssetAddressRow := { r with assetID := id }
def setNameAsset (id : String) (r : AssetNameRow) : AssetNameRow := { r with assetID := id }
def setServiceAsset (id : String) (r : AssetServiceRow) : AssetServiceRow := { r with assetID := id }
def setEventAsset (id : String) (r : AssetServiceEventRow) : AssetServiceEventRow := { r with assetID := id }
def setEvidenceAsset (id : String) (r : AssetEvidenceRow) : AssetEvidenceRow := { r with assetID := id }
def setMemberAsset (id : String) (r : GroupMemberRow) : GroupMemberRow := { r with assetID := id }

def transferFailed (table : AssetTable) : MergeError :=
  .constraint "transfer merged asset relationship" table .primaryKey

def transferredMembers (survivorID mergedID : String) (t : List GroupMemberRow) : List GroupMemberRow :=
  (insertIgnore GroupMemberRow.key t
    ((t.filter fun r => r.assetID = mergedID).map (setMemberAsset survivorID))).filter fun r => r.assetID ≠ mergedID

def transferredEndpoints (survivorID mergedID : String) (t : List EndpointRow) : List EndpointRow :=
  updateWhere (fun r => r.assetID = some mergedID) (fun r => { r with assetID := some survivorID }) t

/-- Mirrors `internal/store/asset_merge.go:133-152`. A reassigned address or
name collides when the survivor has it already; the keys of events, evidence
and endpoints do not include the asset. -/
def transferAssetRelationships (s : Inventory) (survivorID mergedID : String) : Except MergeError Inventory := do
  let addresses := reassign (·.assetID) setAddressAsset survivorID mergedID s.asset.addresses
  require (addresses.map fun r => (r.assetID, r.address)).Nodup (transferFailed .assetAddresses)
  let names := reassign (·.assetID) setNameAsset survivorID mergedID s.asset.names
  require (names.map fun r => (r.assetID, r.normalizedName)).Nodup (transferFailed .assetNames)
  return { s.withAsset { s.asset with
      addresses := addresses
      names := names
      serviceEvents := reassign (·.assetID) setEventAsset survivorID mergedID s.asset.serviceEvents
      evidence := reassign (·.assetID) setEvidenceAsset survivorID mergedID s.asset.evidence } with
    groupMembers := transferredMembers survivorID mergedID s.groupMembers
    endpoints := transferredEndpoints survivorID mergedID s.endpoints }

/-- What `ON CONFLICT(asset_id,address,port,protocol) DO UPDATE` makes of the
survivor's row. -/
def joinService (new old : AssetServiceRow) : AssetServiceRow :=
  let newer := sqlite.le old.lastChecked new.lastChecked
  { old with
    product := if newer then new.product else old.product
    version := if newer then new.version else old.version
    confidence := if newer then new.confidence else old.confidence
    state := if newer then new.state else old.state
    firstSeen := sqlite.least old.firstSeen new.firstSeen
    lastSeen := latest old.lastSeen new.lastSeen
    lastChecked := latest old.lastChecked new.lastChecked
    lastScanID := if newer then new.lastScanID else old.lastScanID
    observationCount := old.observationCount + new.observationCount }

/-- Mirrors `internal/store/asset_merge.go:154-183`. -/
def mergeAssetServices (survivorID mergedID : String) (services : List AssetServiceRow) : List AssetServiceRow :=
  let moved := (services.filter fun r => r.assetID = mergedID).map (setServiceAsset survivorID)
  (moved.foldl (fun t r => upsert serviceKey (joinService r) t r) services).filter fun r => r.assetID ≠ mergedID

/-- `DELETE FROM assets WHERE id=?`: rows that still refer to the asset go with
it, but an endpoint keeps it. -/
def deleteAsset (s : Inventory) (id : String) : Except MergeError Inventory :=
  if s.endpoints.any (fun r => r.assetID = some id) then
    .error (.constraint "remove merged asset" .endpoints .foreignKey)
  else .ok { s.withAsset {
      assets := s.asset.assets.filter fun r => r.id ≠ id
      addresses := s.asset.addresses.filter fun r => r.assetID ≠ id
      names := s.asset.names.filter fun r => r.assetID ≠ id
      services := s.asset.services.filter fun r => r.assetID ≠ id
      serviceEvents := s.asset.serviceEvents.filter fun r => r.assetID ≠ id
      evidence := s.asset.evidence.filter fun r => r.assetID ≠ id } with
    profile := fun i => if i = id then {} else s.profile i
    groupMembers := s.groupMembers.filter fun r => r.assetID ≠ id }

/-- `UPDATE assets SET … WHERE id=?`, under `UNIQUE(address)`. -/
def updateAsset (s : Inventory) (id address : String) (f : AssetRow → AssetRow) (profile : Profile) :
    Except MergeError Inventory :=
  if s.asset.assets.any (fun r => r.id ≠ id && r.address = address) then
    .error (.constraint "update merged asset" .assets .unique)
  else .ok { s.withAsset { s.asset with assets := updateWhere (fun r => r.id = id) f s.asset.assets } with
    profile := fun i => if i = id then profile else s.profile i }

/-- The transaction of `MergeAssets`; `recorded` says whether the audit event
can be inserted. -/
def mergeTx (s : Inventory) (request : AssetMergeRequest) (recorded : Bool) : Except MergeError Inventory := do
  require (request.survivorID ≠ "" && request.mergedID ≠ "" && request.survivorID ≠ request.mergedID)
    (.message "two different assets are required")
  require (validMergeSources request)
    (.message "each selected value must come from one of the merged assets")
  let survivor ← loadMergeAsset s request.survivorID
  let merged ← loadMergeAsset s request.mergedID
  let s ← transferAssetRelationships s request.survivorID request.mergedID
  let s := s.withAsset { s.asset with
    services := mergeAssetServices request.survivorID request.mergedID s.asset.services }
  let s ← deleteAsset s request.mergedID
  let s ← updateAsset s request.survivorID (byID survivor merged request.addressFrom).row.address
    (mergedRow request survivor merged) (mergedProfile request survivor merged)
  require recorded .auditEvent
  return s

/-- Mirrors `MergeAssets`, `internal/store/asset_merge.go:42-84`. -/
def mergeAssets (s : Inventory) (request : AssetMergeRequest) (recorded : Bool) :
    Except MergeError Unit × Inventory :=
  match mergeTx s request recorded with
  | .error e => (.error e, s)
  | .ok s' => (.ok (), s')

/-! ## The statements succeed -/

section
variable {s s' : Inventory} {survivorID mergedID : String}

section
variable {α : Type} {assetID : α → String} {set : String → α → α}

theorem mem_reassign {t : List α} {r' : α} : r' ∈ reassign assetID set survivorID mergedID t ↔
    ∃ r ∈ t, r' = if assetID r = mergedID then set survivorID r else r := by
  unfold reassign
  rw [mem_updateWhere]
  simp only [decide_eq_true_eq]

theorem assetID_of_mem_reassign (hs : ∀ i r, assetID (set i r) = i) {t : List α} {r' : α}
    (hr' : r' ∈ reassign assetID set survivorID mergedID t) :
    ∃ r ∈ t, assetID r' = if assetID r = mergedID then survivorID else assetID r := by
  obtain ⟨r, hr, rfl⟩ := mem_reassign.mp hr'
  refine ⟨r, hr, ?_⟩
  split
  · exact hs _ _
  · rfl

theorem nodup_reassign {κ : Type} {col : α → κ} (hs : ∀ i r, col (set i r) = col r) {t : List α}
    (h : Keyed col t) :
    ((reassign assetID set survivorID mergedID t).map fun r => (assetID r, col r)).Nodup := by
  have hk : Keyed col (reassign assetID set survivorID mergedID t) := h.updateWhere fun r _ => hs _ r
  exact @Keyed.of_part _ _ (fun r => (assetID r, col r)) _ _ Prod.snd hk

end

/-- The inventory after `transferAssetRelationships`. -/
def transferred (survivorID mergedID : String) (s : Inventory) : Inventory :=
  { s.withAsset { s.asset with
      addresses := reassign (·.assetID) setAddressAsset survivorID mergedID s.asset.addresses
      names := reassign (·.assetID) setNameAsset survivorID mergedID s.asset.names
      serviceEvents := reassign (·.assetID) setEventAsset survivorID mergedID s.asset.serviceEvents
      evidence := reassign (·.assetID) setEvidenceAsset survivorID mergedID s.asset.evidence } with
    groupMembers := transferredMembers survivorID mergedID s.groupMembers
    endpoints := transferredEndpoints survivorID mergedID s.endpoints }

theorem transferAssetRelationships_ok (ha : Identity s.asset) :
    transferAssetRelationships s survivorID mergedID = .ok (transferred survivorID mergedID s) := by
  have had : ((reassign (·.assetID) setAddressAsset survivorID mergedID s.asset.addresses).map
      fun r => (r.assetID, r.address)).Nodup := by
    apply nodup_reassign _ ha.addressKeys
    exact fun _ _ => rfl
  have hn : ((reassign (·.assetID) setNameAsset survivorID mergedID s.asset.names).map
      fun r => (r.assetID, r.normalizedName)).Nodup := by
    apply nodup_reassign _ ha.nameKeys
    exact fun _ _ => rfl
  unfold transferAssetRelationships
  simp only [had, hn]
  rfl

/-- The rows of the merged asset, under the survivor. -/
def movedServices (survivorID mergedID : String) (services : List AssetServiceRow) : List AssetServiceRow :=
  (services.filter fun r => r.assetID = mergedID).map (setServiceAsset survivorID)

/-- Where a service is, whichever asset it belongs to. -/
def place (r : AssetServiceRow) : String × Int × String := (r.address, r.port, r.protocol)

variable {a : AssetTables}

theorem keyed_place (ha : Identity a) : Keyed place a.services := by
  refine (List.Nodup.of_map _ ha.serviceKeys).map_on fun r hr r' hr' he => ?_
  simp only [place, Prod.mk.injEq] at he
  exact ha.service_eq hr hr' he.1 he.2.1 he.2.2

/-- **No service is merged into another.** The survivor has none on an address
of the merged asset. -/
theorem mergeAssetServices_eq (ha : Identity a) (hn : survivorID ≠ mergedID) :
    mergeAssetServices survivorID mergedID a.services =
      (a.services.filter fun r => r.assetID ≠ mergedID) ++ movedServices survivorID mergedID a.services := by
  have hk : Keyed serviceKey (movedServices survivorID mergedID a.services) := by
    apply @Keyed.of_part _ _ serviceKey _ _ Prod.snd
    unfold Keyed movedServices
    rw [map_map]
    exact (keyed_place ha).filter _
  have hf : ∀ r ∈ movedServices survivorID mergedID a.services, ∀ x ∈ a.services,
      serviceKey x ≠ serviceKey r := by
    intro r hr x hx he
    obtain ⟨r0, hr0, rfl⟩ := mem_map.mp hr
    obtain ⟨hr0, hi⟩ := mem_filter.mp hr0
    simp only [serviceKey, setServiceAsset, Prod.mk.injEq] at he
    have hx0 := ha.service_eq hx hr0 he.2.1 he.2.2.1 he.2.2.2
    apply hn
    rw [← he.1, hx0]
    exact of_decide_eq_true hi
  have hm : ∀ r ∈ movedServices survivorID mergedID a.services, decide (r.assetID ≠ mergedID) = true := by
    intro r hr
    obtain ⟨r0, -, rfl⟩ := mem_map.mp hr
    simp [setServiceAsset, hn]
  unfold mergeAssetServices
  simp only
  rw [show (a.services.filter fun r => r.assetID = mergedID).map (setServiceAsset survivorID) =
    movedServices survivorID mergedID a.services from rfl, foldl_upsert_fresh hk hf, filter_append,
    filter_eq_self.mpr hm]

/-- The inventory with everything that referred to the merged asset rewired. -/
def rewired (survivorID mergedID : String) (s : Inventory) : Inventory :=
  (transferred survivorID mergedID s).withAsset { (transferred survivorID mergedID s).asset with
    services := (s.asset.services.filter fun r => r.assetID ≠ mergedID) ++
      movedServices survivorID mergedID s.asset.services }

/-- The inventory after a merge. -/
def joined (request : AssetMergeRequest) (survivor merged : MergeAssetRecord) (s : Inventory) : Inventory :=
  { (rewired request.survivorID request.mergedID s).withAsset
      { (rewired request.survivorID request.mergedID s).asset with
        assets := updateWhere (fun r => r.id = request.survivorID) (mergedRow request survivor merged)
          (s.asset.assets.filter fun r => r.id ≠ request.mergedID) } with
    profile := fun i =>
      if i = request.survivorID then mergedProfile request survivor merged
      else if i = request.mergedID then {} else s.profile i }

theorem deleteAsset_ok {id : String} (ha : ∀ r ∈ s.asset.addresses, r.assetID ≠ id)
    (hn : ∀ r ∈ s.asset.names, r.assetID ≠ id) (hs : ∀ r ∈ s.asset.services, r.assetID ≠ id)
    (heve : ∀ r ∈ s.asset.serviceEvents, r.assetID ≠ id) (hev : ∀ r ∈ s.asset.evidence, r.assetID ≠ id)
    (hm : ∀ r ∈ s.groupMembers, r.assetID ≠ id) (he : ∀ r ∈ s.endpoints, r.assetID ≠ some id) :
    deleteAsset s id =
      .ok { s.withAsset { s.asset with assets := s.asset.assets.filter fun r => r.id ≠ id } with
        profile := fun i => if i = id then {} else s.profile i } := by
  have hk : ∀ {α : Type} {aid : α → String} {t : List α}, (∀ r ∈ t, aid r ≠ id) →
      (t.filter fun r => aid r ≠ id) = t := by
    intro α aid t h
    exact filter_eq_self.mpr fun r hr => decide_eq_true (h r hr)
  unfold deleteAsset
  rw [if_neg (by simpa using he), hk ha, hk hn, hk hs, hk heve, hk hev, hk hm]
  rfl

theorem updateAsset_ok {id adr : String} {f : AssetRow → AssetRow} {profile : Profile}
    (hf : ∀ r ∈ s.asset.assets, r.id ≠ id → r.address ≠ adr) :
    updateAsset s id adr f profile =
      .ok { s.withAsset { s.asset with assets := updateWhere (fun r => r.id = id) f s.asset.assets } with
        profile := fun i => if i = id then profile else s.profile i } := by
  unfold updateAsset
  simpa using hf

/-! ## The transaction -/

/-- An error that no constraint of the tables causes. -/
def Explained (e : MergeError) : Prop := ∀ context table kind, e ≠ .constraint context table kind

/-- The record of an asset. -/
def Recorded (s : Inventory) (id : String) (m : MergeAssetRecord) : Prop :=
  m.row ∈ s.asset.assets ∧ m.row.id = id ∧ m.profile = s.profile id

theorem ends_loadMergeAsset (s : Inventory) (id : String) :
    Ends (Recorded s id) Explained (loadMergeAsset s id) := by
  unfold loadMergeAsset
  split
  · intro context table kind he
    cases he
  · rename_i row hr
    exact ⟨mem_of_find?_eq_some hr, by simpa using find?_some hr, rfl⟩

theorem byID_cases (sv mg : MergeAssetRecord) (id : String) : byID sv mg id = sv ∨ byID sv mg id = mg := by
  unfold byID
  split
  · exact .inr rfl
  · exact .inl rfl

theorem selected_free (ha : Identity s.asset) {req : AssetMergeRequest} {sv mg : MergeAssetRecord}
    (hs : Recorded s req.survivorID sv) (hm : Recorded s req.mergedID mg) {r : AssetRow}
    (hr : r ∈ s.asset.assets) (hn : r.id ≠ req.mergedID) (hn' : r.id ≠ req.survivorID) :
    r.address ≠ (byID sv mg req.addressFrom).row.address := by
  intro he
  rcases byID_cases sv mg req.addressFrom with hse | hse
  · rw [hse] at he
    apply hn'
    rw [ha.primary_unique hr hs.1 he, hs.2.1]
  · rw [hse] at he
    apply hn
    rw [ha.primary_unique hr hm.1 he, hm.2.1]

theorem not_mem_transferredMembers {t : List GroupMemberRow} :
    ∀ r ∈ transferredMembers survivorID mergedID t, r.assetID ≠ mergedID := by
  intro r hr
  exact of_decide_eq_true (mem_filter.mp hr).2

theorem not_mem_transferredEndpoints (hn : survivorID ≠ mergedID) {t : List EndpointRow} :
    ∀ r ∈ transferredEndpoints survivorID mergedID t, r.assetID ≠ some mergedID := by
  intro r hr
  obtain ⟨r0, -, rfl⟩ := mem_updateWhere.mp hr
  split
  · simpa using hn
  · rename_i hi
    simpa using hi

theorem ne_of_mem_reassign {α : Type} {aid : α → String} {set : String → α → α}
    (hs : ∀ i r, aid (set i r) = i) (hn : survivorID ≠ mergedID) {t : List α} :
    ∀ r ∈ reassign aid set survivorID mergedID t, aid r ≠ mergedID := by
  intro r' hr'
  obtain ⟨r, -, he⟩ := assetID_of_mem_reassign hs hr'
  rw [he]
  split
  · exact hn
  · assumption

theorem ne_of_mem_moved (hn : survivorID ≠ mergedID) {svcs : List AssetServiceRow} :
    ∀ r ∈ (svcs.filter fun r => r.assetID ≠ mergedID) ++ movedServices survivorID mergedID svcs,
      r.assetID ≠ mergedID := by
  intro r hr
  rcases mem_append.mp hr with hr | hr
  · exact of_decide_eq_true (mem_filter.mp hr).2
  · obtain ⟨r0, -, rfl⟩ := mem_map.mp hr
    exact hn

theorem deleteAsset_rewired (hn : survivorID ≠ mergedID) :
    deleteAsset (rewired survivorID mergedID s) mergedID =
      .ok { (rewired survivorID mergedID s).withAsset { (rewired survivorID mergedID s).asset with
          assets := s.asset.assets.filter fun r => r.id ≠ mergedID } with
        profile := fun i => if i = mergedID then {} else s.profile i } := by
  apply deleteAsset_ok
  · apply ne_of_mem_reassign _ hn
    exact fun _ _ => rfl
  · apply ne_of_mem_reassign _ hn
    exact fun _ _ => rfl
  · exact ne_of_mem_moved hn
  · apply ne_of_mem_reassign _ hn
    exact fun _ _ => rfl
  · apply ne_of_mem_reassign _ hn
    exact fun _ _ => rfl
  · exact not_mem_transferredMembers
  · exact not_mem_transferredEndpoints hn

/-- The request names two assets, and chooses between them. -/
def WellFormed (request : AssetMergeRequest) : Prop :=
  (request.survivorID ≠ "" && request.mergedID ≠ "" && request.survivorID ≠ request.mergedID) = true ∧
    validMergeSources request = true

theorem WellFormed.ne {req : AssetMergeRequest} (hr : WellFormed req) : req.survivorID ≠ req.mergedID := by
  have := hr.1
  simp only [Bool.and_eq_true, decide_eq_true_eq] at this
  exact this.2

/-- **What a merge does.** On a sound inventory no constraint stops a merge: it
fails for its request, an unknown asset or its audit event, and otherwise
leaves the joined inventory. -/
theorem ends_mergeTx (ha : Identity s.asset) (req : AssetMergeRequest) (rec : Bool) :
    Ends (fun s' => ∃ sv mg, WellFormed req ∧ Recorded s req.survivorID sv ∧
        Recorded s req.mergedID mg ∧ s' = joined req sv mg s)
      Explained (mergeTx s req rec) := by
  refine (ends_require (by intro context table kind he; cases he)).bind fun _ hi => ?_
  refine (ends_require (by intro context table kind he; cases he)).bind fun _ hv => ?_
  have hr1 : WellFormed req := ⟨hi, hv⟩
  refine (ends_loadMergeAsset s _).bind fun sv hs => ?_
  refine (ends_loadMergeAsset s _).bind fun mg hme => ?_
  have hn := hr1.ne
  rw [transferAssetRelationships_ok ha]
  refine Ends.bind (I := fun s1 => s1 = transferred req.survivorID req.mergedID s) rfl ?_
  rintro _ rfl
  have hre : (transferred req.survivorID req.mergedID s).withAsset
      { (transferred req.survivorID req.mergedID s).asset with
        services := mergeAssetServices req.survivorID req.mergedID
          (transferred req.survivorID req.mergedID s).asset.services } =
      rewired req.survivorID req.mergedID s := by
    unfold rewired
    rw [← mergeAssetServices_eq ha hn]
    rfl
  simp only [hre]
  rw [deleteAsset_rewired hn]
  refine Ends.bind (I := fun s1 => s1 = _) rfl ?_
  rintro _ rfl
  have hf : ∀ r ∈ s.asset.assets.filter (fun r => r.id ≠ req.mergedID), r.id ≠ req.survivorID →
      r.address ≠ (byID sv mg req.addressFrom).row.address := by
    intro r hr hid
    obtain ⟨hr, hm⟩ := mem_filter.mp hr
    exact selected_free ha hs hme hr (of_decide_eq_true hm) hid
  rw [updateAsset_ok]
  · refine Ends.bind (I := fun s1 => s1 = joined req sv mg s) rfl ?_
    rintro _ rfl
    refine (ends_require (by intro context table kind he; cases he)).bind fun _ _ => ?_
    exact ⟨sv, mg, hr1, hs, hme, rfl⟩
  · exact hf

/-! ## Identity after a merge -/

/-- Who owns what an asset owned. -/
def heir (survivorID mergedID id : String) : String := if id = mergedID then survivorID else id

theorem services_perm (svcs : List AssetServiceRow) :
    ((svcs.filter fun r => r.assetID ≠ mergedID) ++ movedServices survivorID mergedID svcs).Perm
      (reassign (·.assetID) setServiceAsset survivorID mergedID svcs) := by
  refine List.Perm.trans ?_ (updateWhere_perm _ _ svcs).symm
  have hf : (svcs.filter fun r => r.assetID ≠ mergedID) =
      svcs.filter fun r => !decide (r.assetID = mergedID) := by simp only [decide_not]
  rw [hf]
  exact .refl _

section
variable {request : AssetMergeRequest} {survivor merged : MergeAssetRecord} {id address : String}

theorem owns_joined (req : AssetMergeRequest) (sv mg : MergeAssetRecord) (ho : Owns s.asset id address) :
    Owns (joined req sv mg s).asset (heir req.survivorID req.mergedID id) address := by
  obtain ⟨r, hr, rfl, rfl⟩ := ho
  refine ⟨_, mem_reassign.mpr ⟨r, hr, rfl⟩, ?_⟩
  unfold heir
  split <;> exact ⟨rfl, rfl⟩

theorem exists_joined (mg : MergeAssetRecord) (hn : request.survivorID ≠ request.mergedID)
    (hs : Recorded s request.survivorID survivor)
    (hx : ∃ x ∈ s.asset.assets, x.id = id) : ∃ x ∈ (joined request survivor mg s).asset.assets,
      x.id = heir request.survivorID request.mergedID id := by
  -- a row that stays has its updated version in the table
  have hst : ∀ x ∈ s.asset.assets, x.id ≠ request.mergedID →
      ∃ x' ∈ (joined request survivor mg s).asset.assets, x'.id = x.id := by
    intro x hx hm
    refine ⟨_, mem_updateWhere.mpr ⟨x, mem_filter.mpr ⟨hx, decide_eq_true hm⟩, rfl⟩, ?_⟩
    split <;> rfl
  obtain ⟨x, hx, rfl⟩ := hx
  unfold heir
  split
  · obtain ⟨x', hx', hi⟩ := hst _ hs.1 (by rw [hs.2.1]; exact hn)
    exact ⟨x', hx', hi.trans hs.2.1⟩
  · rename_i hm
    exact hst x hx hm

/-- **The survivor owns what the two owned.** -/
theorem joined_identity (ha : Identity s.asset) (hn : request.survivorID ≠ request.mergedID)
    (hs : Recorded s request.survivorID survivor) (hme : Recorded s request.mergedID merged) :
    Identity (joined request survivor merged s).asset := by
  refine ⟨(ha.assetKeys.filter _).updateWhere fun _ _ => rfl, ha.addressKeys.updateWhere fun _ _ => rfl,
    ha.nameKeys.updateWhere fun _ _ => rfl, ?_, ?_, ?_, ?_, ?_, ?_⟩
  · have hp : Keyed place (reassign (·.assetID) setServiceAsset request.survivorID request.mergedID
        s.asset.services) := (keyed_place ha).updateWhere fun _ _ => rfl
    apply @Keyed.of_part _ _ serviceKey _ _ Prod.snd
    exact ((services_perm s.asset.services).map place).nodup_iff.mpr hp
  · intro x' hx'
    obtain ⟨x, hx, rfl⟩ := mem_updateWhere.mp hx'
    have hi := ha.named x (mem_filter.mp hx).1
    split <;> exact hi
  · intro x' hx'
    obtain ⟨x, hx, rfl⟩ := mem_updateWhere.mp hx'
    obtain ⟨hx, hm⟩ := mem_filter.mp hx
    rw [decide_eq_true_eq] at hm
    split
    · -- the survivor is listed under an address of one of the two
      rename_i hi
      have hi : x.id = request.survivorID := of_decide_eq_true hi
      show Owns _ x.id (byID survivor merged request.addressFrom).row.address
      rcases byID_cases survivor merged request.addressFrom with hse | hse
      · have ho := owns_joined request survivor merged (ha.primary _ hs.1)
        rw [hs.2.1, heir, if_neg hn, ← hi] at ho
        rw [hse]
        exact ho
      · have ho := owns_joined request survivor merged (ha.primary _ hme.1)
        rw [hme.2.1, heir, if_pos rfl, ← hi] at ho
        rw [hse]
        exact ho
    · have ho := owns_joined request survivor merged (ha.primary x hx)
      rw [heir, if_neg hm] at ho
      exact ho
  · intro r' hr'
    obtain ⟨r, hr, he⟩ := assetID_of_mem_reassign (fun _ _ => rfl) hr'
    rw [he]
    exact exists_joined merged hn hs (ha.addressRef r hr)
  · intro r' hr'
    obtain ⟨r, hr, he⟩ := assetID_of_mem_reassign (fun _ _ => rfl) hr'
    rw [he]
    exact exists_joined merged hn hs (ha.nameRef r hr)
  · intro r' hr'
    obtain ⟨r, hr, rfl⟩ := mem_reassign.mp ((services_perm s.asset.services).mem_iff.mp hr')
    have ho := owns_joined request survivor merged (ha.serviceOwner r hr)
    unfold heir at ho
    split
    · rename_i hi
      rw [if_pos hi] at ho
      exact ho
    · rename_i hi
      rw [if_neg hi] at ho
      exact ho

end

/-! ## Groups -/

theorem mem_transferredMembers (hn : survivorID ≠ mergedID) (t : List GroupMemberRow) (group : String) :
    (∃ r ∈ transferredMembers survivorID mergedID t, r.groupID = group ∧ r.assetID = survivorID) ↔
      ∃ r ∈ t, r.groupID = group ∧ (r.assetID = survivorID ∨ r.assetID = mergedID) := by
  constructor
  · rintro ⟨r, hr, hg, hi⟩
    rcases mem_of_mem_insertIgnore (mem_filter.mp hr).1 with hr | hr
    · exact ⟨r, hr, hg, .inl hi⟩
    · obtain ⟨r0, hr0, rfl⟩ := mem_map.mp hr
      obtain ⟨hr0, hm⟩ := mem_filter.mp hr0
      exact ⟨r0, hr0, hg, .inr (of_decide_eq_true hm)⟩
  · rintro ⟨r, hr, rfl, hi | hi⟩
    · refine ⟨r, mem_filter.mpr ⟨subset_insertIgnore _ _ hr, ?_⟩, rfl, hi⟩
      rw [hi]
      exact decide_eq_true hn
    · -- its row is there under the survivor, inserted now or before
      have hmo : setMemberAsset survivorID r ∈
          (t.filter fun r => r.assetID = mergedID).map (setMemberAsset survivorID) :=
        mem_map_of_mem (mem_filter.mpr ⟨hr, decide_eq_true hi⟩)
      obtain ⟨x, hx, hk⟩ := @exists_key_insertIgnore _ _ GroupMemberRow.key _ _ _ hmo t
      simp only [GroupMemberRow.key, Prod.mk.injEq] at hk
      refine ⟨x, mem_filter.mpr ⟨hx, ?_⟩, hk.1, hk.2⟩
      rw [hk.2]
      exact decide_eq_true hn

theorem filter_transferredMembers (t : List GroupMemberRow) :
    ((transferredMembers survivorID mergedID t).filter fun r => r.assetID ≠ survivorID && r.assetID ≠ mergedID) =
      t.filter fun r => r.assetID ≠ survivorID && r.assetID ≠ mergedID := by
  have hm : ∀ r ∈ (t.filter fun r => r.assetID = mergedID).map (setMemberAsset survivorID),
      (decide (r.assetID ≠ survivorID) && decide (r.assetID ≠ mergedID)) = false := by
    intro r hr
    obtain ⟨r0, -, rfl⟩ := mem_map.mp hr
    simp [setMemberAsset]
  unfold transferredMembers
  rw [filter_filter, ← @filter_insertIgnore _ _ GroupMemberRow.key _ _ _ hm t]
  congr 1
  funext r
  by_cases hr : r.assetID = mergedID <;> simp [hr]

/-! ## Every course -/

/-- Addresses, assets and services agree on who owns what. -/
structure Consistent (a : AssetTables) : Prop where
  owner : ∀ r ∈ a.addresses, ∃! x, x ∈ a.assets ∧ Owns a x.id r.address
  primary : ∀ x ∈ a.assets, Owns a x.id x.address
  service : ∀ r ∈ a.services, ∃ x ∈ a.assets, x.id = r.assetID ∧ Owns a x.id r.address
  /-- no address, port and protocol under two assets -/
  once : ∀ r ∈ a.services, ∀ r' ∈ a.services, place r = place r' → r.assetID = r'.assetID

theorem consistent_of_identity (ha : Identity a) : Consistent a where
  owner r hr := by
    obtain ⟨x, hx, hi⟩ := ha.addressRef r hr
    have ho : Owns a x.id r.address := ⟨r, hr, rfl, hi.symm⟩
    refine ⟨x, ⟨hx, ho⟩, ?_⟩
    intro y hy
    exact ha.assetKeys.eq_of_key hy.1 hx (ha.owner_unique hy.2 ho)
  primary := ha.primary
  service r hr := by
    obtain ⟨row, hro, -, hi⟩ := ha.serviceOwner r hr
    obtain ⟨x, hx, hxi⟩ := ha.addressRef row hro
    refine ⟨x, hx, hxi.trans hi, ?_⟩
    rw [hxi, hi]
    exact ha.serviceOwner r hr
  once r hr r' hr' he := by
    simp only [place, Prod.mk.injEq] at he
    rw [ha.service_eq hr hr' he.1 he.2.1 he.2.2]

/-- What a merge that succeeds did to the rows: each table is as before, with
the rows of the merged asset under the survivor. -/
structure Merged (survivorID mergedID : String) (s s' : Inventory) : Prop where
  addresses : s'.asset.addresses =
    reassign (·.assetID) setAddressAsset survivorID mergedID s.asset.addresses
  names : s'.asset.names = reassign (·.assetID) setNameAsset survivorID mergedID s.asset.names
  serviceEvents : s'.asset.serviceEvents =
    reassign (·.assetID) setEventAsset survivorID mergedID s.asset.serviceEvents
  evidence : s'.asset.evidence = reassign (·.assetID) setEvidenceAsset survivorID mergedID s.asset.evidence
  endpoints : s'.endpoints = transferredEndpoints survivorID mergedID s.endpoints
  /-- every service row stays as it is, but for its asset -/
  services : s'.asset.services.Perm
    (reassign (·.assetID) setServiceAsset survivorID mergedID s.asset.services)
  groups : ∀ group, (∃ r ∈ s'.groupMembers, r.groupID = group ∧ r.assetID = survivorID) ↔
    ∃ r ∈ s.groupMembers, r.groupID = group ∧ (r.assetID = survivorID ∨ r.assetID = mergedID)
  gone : ∀ x ∈ s'.asset.assets, x.id ≠ mergedID
  ungrouped : ∀ r ∈ s'.groupMembers, r.assetID ≠ mergedID
  survives : ∃ x ∈ s'.asset.assets, x.id = survivorID
  otherAssets : (s'.asset.assets.filter fun x => x.id ≠ survivorID && x.id ≠ mergedID) =
    s.asset.assets.filter fun x => x.id ≠ survivorID && x.id ≠ mergedID
  otherProfiles : ∀ id, id ≠ survivorID → id ≠ mergedID → s'.profile id = s.profile id
  otherGroups : (s'.groupMembers.filter fun r => r.assetID ≠ survivorID && r.assetID ≠ mergedID) =
    s.groupMembers.filter fun r => r.assetID ≠ survivorID && r.assetID ≠ mergedID

theorem filter_joined {req : AssetMergeRequest} {sv mg : MergeAssetRecord} :
    ((joined req sv mg s).asset.assets.filter fun x =>
      x.id ≠ req.survivorID && x.id ≠ req.mergedID) =
    s.asset.assets.filter fun x => x.id ≠ req.survivorID && x.id ≠ req.mergedID := by
  have ha : (joined req sv mg s).asset.assets =
      updateWhere (fun r => r.id = req.survivorID) (mergedRow req sv mg)
        (s.asset.assets.filter fun r => r.id ≠ req.mergedID) := rfl
  have hu : ∀ r : AssetRow, decide (r.id = req.survivorID) = true →
      (decide (r.id ≠ req.survivorID) && decide (r.id ≠ req.mergedID)) = false ∧
        (decide ((mergedRow req sv mg r).id ≠ req.survivorID) &&
          decide ((mergedRow req sv mg r).id ≠ req.mergedID)) = false := by
    intro r hr
    simp [mergedRow, of_decide_eq_true hr]
  rw [ha, filter_updateWhere hu, filter_filter]
  congr 1
  funext r
  by_cases hm : r.id = req.mergedID <;> simp [hm]

theorem merged_joined {req : AssetMergeRequest} {sv mg : MergeAssetRecord}
    (hn : req.survivorID ≠ req.mergedID) (hsu : Recorded s req.survivorID sv) :
    Merged req.survivorID req.mergedID s (joined req sv mg s) where
  addresses := rfl
  names := rfl
  serviceEvents := rfl
  evidence := rfl
  endpoints := rfl
  services := services_perm _
  groups := mem_transferredMembers hn _
  gone x' hx' := by
    obtain ⟨x, hx, rfl⟩ := mem_updateWhere.mp hx'
    have hi : x.id ≠ req.mergedID := of_decide_eq_true (mem_filter.mp hx).2
    split <;> exact hi
  ungrouped := not_mem_transferredMembers
  survives := by
    obtain ⟨x, hx, hi⟩ := exists_joined mg hn hsu ⟨sv.row, hsu.1, hsu.2.1⟩
    refine ⟨x, hx, ?_⟩
    rw [hi, heir, if_neg hn]
  otherAssets := filter_joined
  otherProfiles id hs hm := by
    show (if id = req.survivorID then _ else if id = req.mergedID then _ else s.profile id) = _
    rw [if_neg hs, if_neg hm]
  otherGroups := filter_transferredMembers _

/-- The calls of the store. -/
inductive Call
  | save (scan : Scan)
  | mergeAssets (request : AssetMergeRequest) (recorded : Bool)
  /-- Any other call: assets, addresses, names and services stay, the rest may
  become anything. -/
  | other (world : Inventory)

def step (h : Host) (s : Inventory) : Call → Inventory
  | .save scan => { s with db := (ScanStore.save h s.db scan).2 }
  | .mergeAssets request recorded => (AssetMerge.mergeAssets s request recorded).2
  | .other world => world.withAsset { s.asset with
      serviceEvents := world.asset.serviceEvents, evidence := world.asset.evidence }

theorem mergeAssets_cases (ha : Identity s.asset) (req : AssetMergeRequest) (rec : Bool) :
    (∃ e, Explained e ∧ mergeAssets s req rec = (.error e, s)) ∨
    ∃ sv mg, WellFormed req ∧ Recorded s req.survivorID sv ∧ Recorded s req.mergedID mg ∧
      mergeAssets s req rec = (.ok (), joined req sv mg s) := by
  have ht := ends_mergeTx ha req rec
  unfold mergeAssets
  split
  · rename_i e he
    rw [he] at ht
    exact .inl ⟨e, ht, rfl⟩
  · rename_i s' ho
    obtain ⟨sv, mg, hr, hs, hm, rfl⟩ := ht.of_ok ho
    exact .inr ⟨sv, mg, hr, hs, hm, rfl⟩

theorem step_identity (h : Host) (s : Inventory) (call : Call) (ha : Identity s.asset) :
    Identity (step h s call).asset := by
  cases call with
  | save scan => exact save_identity ha h scan
  | mergeAssets req rec =>
    show Identity (AssetMerge.mergeAssets s req rec).2.asset
    rcases mergeAssets_cases ha req rec with ⟨e, -, he⟩ | ⟨sv, mg, hr, hs, hm, he⟩
    · rw [he]
      exact ha
    · rw [he]
      exact joined_identity ha hr.ne hs hm
  | other world => exact ha.congr rfl rfl rfl rfl

theorem run_identity (h : Host) (cs : List Call) : Identity (run (step h) .empty cs).asset :=
  run_invariant (I := fun s : Inventory => Identity s.asset) (step_identity h)
    (show Identity Inventory.empty.asset from identity_empty) cs

/-- **Assets keep their identity.** After every course of saves and merges,
with anything else in between, addresses, assets and services agree on who
owns what; no save and no merge fails on the uniqueness of assets, addresses or
names; and a merge that succeeds moves every row of the merged asset to the
survivor and touches no other asset. -/
theorem asset_identity (h : Host) (calls : List Call) :
    let s := run (step h) .empty calls
    Consistent s.asset ∧ (∀ scan e, (save h s.db scan).1 = .error e → failedTable e ≠ some .assets) ∧
      (∀ request recorded context table kind,
        (mergeAssets s request recorded).1 ≠ .error (.constraint context table kind)) ∧
      ∀ request recorded, (mergeAssets s request recorded).1 = .ok () →
        Merged request.survivorID request.mergedID s (mergeAssets s request recorded).2 := by
  intro s
  have ha : Identity s.asset := run_identity h calls
  refine ⟨consistent_of_identity ha, fun scan e he => save_failedTable_ne ha he, ?_, ?_⟩
  · intro request recorded context table kind hc
    rcases mergeAssets_cases ha request recorded with ⟨e, hex, he⟩ | ⟨_, _, -, -, -, he⟩
    · rw [he] at hc
      exact hex context table kind (Except.error.inj hc)
    · rw [he] at hc
      cases hc
  · intro request recorded ho
    rcases mergeAssets_cases ha request recorded with ⟨e, -, he⟩ | ⟨sv, mg, hr, hs, -, he⟩
    · rw [he] at ho
      cases ho
    · rw [he]
      exact merged_joined hr.ne hs

end

namespace Small

/-- Two addresses with a service each. -/
def twoHosts : List Call :=
  [.save (AssetIdentity.Small.completed "scan" 20 ["192.0.2.1", "192.0.2.2"]
    [Schema.Small.observation "first" "192.0.2.1" 22, Schema.Small.observation "second" "192.0.2.2" 22])]

def request : AssetMergeRequest where
  survivorID := "asset:192.0.2.1"
  mergedID := "asset:192.0.2.2"
  nameFrom := "asset:192.0.2.1"
  addressFrom := "asset:192.0.2.2"
  ownerFrom := "asset:192.0.2.1"
  environmentFrom := "asset:192.0.2.1"
  classificationFrom := "asset:192.0.2.1"
  lifecycleFrom := "asset:192.0.2.1"

end Small

theorem asset_identity_twoHosts :
    let s := run (step AssetIdentity.Small.host) .empty Small.twoHosts
    (mergeAssets s Small.request true).1 = .ok () ∧
      Merged "asset:192.0.2.1" "asset:192.0.2.2" s (mergeAssets s Small.request true).2 := by
  have ho : (mergeAssets (run (step AssetIdentity.Small.host) .empty Small.twoHosts) Small.request true).1 =
      .ok () := by decide +kernel
  exact ⟨ho, (asset_identity AssetIdentity.Small.host Small.twoHosts).2.2.2 Small.request true ho⟩

end Mossward.L2.AssetMerge
