import Mossward.L2Store.Intelligence
import Mossward.L2Store.WorkerJob

/-!
# Assets of a completed scan

Saving a completed scan adds each observation to the inventory: the asset that
owns its address or its target's name, the service on its port, and a row of
provenance named after the observation. `internal/store/asset.go`,
`asset_service.go`.

Upserts name one conflict target; any other uniqueness constraint still
aborts. For assets it is never hit; for provenance it is, when an observation's
identifier comes back from another source.

Results: `AssetInv`, `upsertScanAssets_ok`, `scanAssets_cases`.
-/
namespace Mossward.L2.Asset

open Table L1.Names L1.Rfc3339 Model L2.Schema List
open L2.Intelligence L2.WorkerJob

/-! ## Correlation -/

def completedOrCreatedAt (scan : Scan) : Time := scan.completedAt.getD scan.createdAt

/-- `lookupAssetID` in `asset_addresses`; the empty text when there is none. -/
def addressAssetID (a : AssetTables) (address : String) : String :=
  ((a.addresses.find? fun r => r.address = address).map (·.assetID)).getD ""

/-- `lookupAssetID` in `asset_names`. -/
def nameAssetID (a : AssetTables) (normalizedName : String) : String :=
  ((a.names.find? fun r => r.normalizedName = normalizedName).map (·.assetID)).getD ""

/-- Mirrors `internal/store/asset.go:61-74`: the address decides before the name. -/
def correlatedAssetID (a : AssetTables) (address normalizedName : String) : String :=
  let addressID := addressAssetID a address
  if normalizedName = "" then addressID
  else if addressID ≠ "" then addressID
  else nameAssetID a normalizedName

/-! ## Upserts -/

/-- What `ON CONFLICT(id) DO UPDATE` makes of the row there is. -/
def mergeAsset (new old : AssetRow) : AssetRow :=
  if sqlite.le old.lastSeen new.lastSeen then
    { old with name := new.name, lastSeen := new.lastSeen, lastScanID := new.lastScanID }
  else old

def mergeAddress (new old : AssetAddressRow) : AssetAddressRow :=
  if new.assetID = old.assetID && sqlite.le old.lastSeen new.lastSeen then
    { old with lastSeen := new.lastSeen, lastScanID := new.lastScanID }
  else old

/-- Mirrors `internal/store/asset.go:96-106`. -/
def addAssetName (names : List AssetNameRow) (r : AssetNameRow) : List AssetNameRow :=
  if r.normalizedName = "" then names else insertIgnore (·.normalizedName) names [r]

/-- The asset an observation belongs to, new or known. -/
def assetIDOf (h : Host) (a : AssetTables) (o : ServiceObservation) : String :=
  let correlated := correlatedAssetID a o.address (normalizedAssetName h.lower o.target)
  if correlated = "" then h.assetIDForAddress o.address else correlated

def seenAt (o : ServiceObservation) (fallback : Time) : Time :=
  if o.observedAt.isZero then fallback else o.observedAt

def assetRow (id : String) (scan : Scan) (o : ServiceObservation) : AssetRow where
  id := id
  name := o.target
  address := o.address
  firstSeen := seenAt o (completedOrCreatedAt scan)
  lastSeen := seenAt o (completedOrCreatedAt scan)
  lastScanID := scan.id

def addressRow (id : String) (scan : Scan) (o : ServiceObservation) : AssetAddressRow where
  assetID := id
  address := o.address
  firstSeen := seenAt o (completedOrCreatedAt scan)
  lastSeen := seenAt o (completedOrCreatedAt scan)
  lastScanID := scan.id

/-- The three statements for an observation of the asset `id`. The foreign keys
of addresses and names hold: the asset is upserted first. -/
def addObservation (id normalizedName : String) (scan : Scan) (a : AssetTables) (o : ServiceObservation) :
    AssetTables :=
  { a with
    assets := upsert AssetRow.id (mergeAsset (assetRow id scan o)) a.assets (assetRow id scan o)
    addresses := upsert AssetAddressRow.address (mergeAddress (addressRow id scan o)) a.addresses
      (addressRow id scan o)
    names := addAssetName a.names { assetID := id, name := o.target, normalizedName := normalizedName } }

/-- Mirrors `internal/store/asset.go:35-59`. -/
def upsertObservationAsset (h : Host) (scan : Scan) (a : AssetTables) (o : ServiceObservation) :
    Except StoreError AssetTables :=
  if !a.assets.any (fun r => r.id = assetIDOf h a o) && a.assets.any (fun r => r.address = o.address) then
    .error (.context "upsert discovered asset" (.constraint .assets .unique))
  else .ok (addObservation (assetIDOf h a o) (normalizedAssetName h.lower o.target) scan a o)

/-- Mirrors `internal/store/asset.go:23-33`. -/
def upsertScanAssets (h : Host) (scan : Scan) (a : AssetTables) : Except StoreError AssetTables :=
  if scan.status ≠ .completed then .ok a
  else scan.observations.foldlM (upsertObservationAsset h scan) a

/-! ## Service history -/

def localScannerSourceID : String := "scanner/local"

/-- Mirrors `internal/store/asset_service.go:95-105`: the worker of the scan's
last created job. -/
def scannerEvidenceSourceID (w : WorkerTables) (scanID : String) : String :=
  match firstBy (fun r r' => sqlite.le r'.createdAt r.createdAt) (w.jobs.filter fun r => r.scanID = scanID) with
  | none => localScannerSourceID
  | some r => "scanner-worker/" ++ r.workerID

/-- Every service of the scan's targets and ports counts as not observed until
an observation says otherwise. -/
def markNotObserved (scan : Scan) (services : List AssetServiceRow) : List AssetServiceRow :=
  let checkedAt := completedOrCreatedAt scan
  scan.targets.foldl (fun services target => scan.ports.foldl (fun services port =>
    updateWhere (fun s => s.address = target.address && s.port = port && sqlite.le s.lastChecked checkedAt)
      (fun s => { s with state := .notObserved, lastChecked := checkedAt, lastScanID := scan.id })
      services) services) services

def serviceRow (assetID : String) (scan : Scan) (o : ServiceObservation) : AssetServiceRow where
  assetID := assetID
  address := o.address
  port := o.port
  protocol := o.protocol
  product := o.product
  version := o.version
  confidence := o.confidence
  state := .observed
  firstSeen := seenAt o (completedOrCreatedAt scan)
  lastSeen := seenAt o (completedOrCreatedAt scan)
  lastChecked := completedOrCreatedAt scan
  lastScanID := scan.id
  observationCount := 1

/-- `MAX(a,b)` on stored times. -/
def latest (a b : Time) : Time := if sqlite.le a b then b else a

def mergeService (new : AssetServiceRow) (increment : Int) (old : AssetServiceRow) : AssetServiceRow :=
  let newer := sqlite.le old.lastChecked new.lastChecked
  { old with
    product := if newer then new.product else old.product
    version := if newer then new.version else old.version
    confidence := if newer then new.confidence else old.confidence
    state := if newer then .observed else old.state
    lastSeen := latest old.lastSeen new.lastSeen
    lastChecked := latest old.lastChecked new.lastChecked
    lastScanID := if newer then new.lastScanID else old.lastScanID
    observationCount := old.observationCount + increment }

def serviceEventRow (assetID sourceID : String) (scan : Scan) (o : ServiceObservation) :
    AssetServiceEventRow where
  observationID := o.id
  assetID := assetID
  scanID := scan.id
  address := o.address
  port := o.port
  protocol := o.protocol
  product := o.product
  version := o.version
  confidence := o.confidence
  observedAt := seenAt o (completedOrCreatedAt scan)
  findingIDs := (scan.findings.filter fun f => f.address = o.address && f.port = o.port).map (·.id)
  cveIDs := (scan.cveMatches.filter fun m => m.observationID = o.id).map (·.cveID)
  sourceType := .scanner
  sourceID := sourceID

/-- `"scanner:" + observation.ID`. -/
def evidenceID (observationID : String) : String := "scanner:" ++ observationID

def evidenceRow (assetID sourceID : String) (scan : Scan) (o : ServiceObservation) : AssetEvidenceRow where
  id := evidenceID o.id
  assetID := assetID
  sourceType := .scanner
  sourceID := sourceID
  recordType := "service_observation"
  recordID := o.id
  scanID := scan.id
  address := o.address
  summary := o.protocol ++ " service observed on port " ++ toString o.port
  collectedAt := seenAt o (completedOrCreatedAt scan)

/-- `UNIQUE(source_type,source_id,record_type,record_id)`, the conflict target. -/
def sourceKey (e : AssetEvidenceRow) : EvidenceSourceType × String × String × String :=
  (e.sourceType, e.sourceID, e.recordType, e.recordID)

/-- Mirrors `internal/store/asset_service.go:189-195`: a known source is
ignored, a known identifier of another source aborts. -/
def insertAssetEvidence (evidence : List AssetEvidenceRow) (e : AssetEvidenceRow) :
    Except StoreError (List AssetEvidenceRow) :=
  if evidence.any (fun x => sourceKey x = sourceKey e) then .ok evidence
  else if evidence.any (fun x => x.id = e.id) then
    .error (.context "record asset evidence provenance" (.constraint .assetEvidence .primaryKey))
  else .ok (evidence ++ [e])

/-- Mirrors `internal/store/asset_service.go:43-93`. -/
def recordAssetServiceObservation (sourceID : String) (scan : Scan) (a : AssetTables)
    (o : ServiceObservation) : Except StoreError AssetTables :=
  let assetID := addressAssetID a o.address
  if assetID = "" then .ok a
  else
    let increment := if a.serviceEvents.any (fun e => e.observationID = o.id) then 0 else 1
    let new := serviceRow assetID scan o
    match insertAssetEvidence a.evidence (evidenceRow assetID sourceID scan o) with
    | .error e => .error e
    | .ok evidence => .ok { a with
        serviceEvents := insertIgnore (·.observationID) a.serviceEvents
          [serviceEventRow assetID sourceID scan o]
        services := upsert (fun s => (s.assetID, s.address, s.port, s.protocol))
          (mergeService new increment) a.services new
        evidence := evidence }

/-- Mirrors `internal/store/asset_service.go:19-41`. -/
def updateAssetServiceHistory (w : WorkerTables) (scan : Scan) (a : AssetTables) :
    Except StoreError AssetTables :=
  if scan.status ≠ .completed then .ok a
  else scan.observations.foldlM
    (recordAssetServiceObservation (scannerEvidenceSourceID w scan.id) scan)
    { a with services := markNotObserved scan a.services }

/-- The last part of `Save`. -/
def scanAssets (h : Host) (w : WorkerTables) (scan : Scan) (a : AssetTables) : Except StoreError AssetTables :=
  match upsertScanAssets h scan a with
  | .error e => .error e
  | .ok a => updateAssetServiceHistory w scan a

/-! ## Adding observations succeeds -/

/-- Every asset owns its address, and the references of addresses and names
resolve. -/
structure AssetInv (a : AssetTables) : Prop where
  owned : ∀ x ∈ a.assets, ∃ r ∈ a.addresses, r.address = x.address
  addressRef : ∀ r ∈ a.addresses, ∃ x ∈ a.assets, x.id = r.assetID
  nameRef : ∀ r ∈ a.names, ∃ x ∈ a.assets, x.id = r.assetID
  named : ∀ x ∈ a.assets, x.id ≠ ""

/-- Some asset owns the address. -/
def Owned (a : AssetTables) (address : String) : Prop := ∃ r ∈ a.addresses, r.address = address

section
variable {h : Host} {a a' : AssetTables} {scan : Scan} {o : ServiceObservation}

theorem addressAssetID_spec (a : AssetTables) (adr : String) : (addressAssetID a adr = "" ∧ ¬ Owned a adr) ∨
      ∃ r ∈ a.addresses, r.address = adr ∧ r.assetID = addressAssetID a adr := by
  unfold addressAssetID
  cases hf : a.addresses.find? (fun r => r.address = adr) with
  | none =>
    refine .inl ⟨rfl, ?_⟩
    rintro ⟨r, hr, he⟩
    have := find?_eq_none.mp hf r hr
    simp [he] at this
  | some r =>
    have hk := find?_some hf
    exact .inr ⟨r, mem_of_find?_eq_some hf, by simpa using hk, rfl⟩

theorem nameAssetID_spec (a : AssetTables) (name : String) :
    nameAssetID a name = "" ∨ ∃ r ∈ a.names, r.assetID = nameAssetID a name := by
  unfold nameAssetID
  cases hf : a.names.find? (fun r => r.normalizedName = name) with
  | none => exact .inl rfl
  | some r => exact .inr ⟨r, mem_of_find?_eq_some hf, rfl⟩

variable {address : String}

theorem addressAssetID_ne (ha : AssetInv a) (ho : Owned a address) : addressAssetID a address ≠ "" := by
  rcases addressAssetID_spec a address with ⟨-, hn⟩ | ⟨r, hr, -, he⟩
  · exact absurd ho hn
  · obtain ⟨x, hx, hi⟩ := ha.addressRef r hr
    rw [← he, ← hi]
    exact ha.named x hx

theorem correlatedAssetID_mem (ha : AssetInv a) {name : String} (hn : correlatedAssetID a address name ≠ "") :
    ∃ x ∈ a.assets, x.id = correlatedAssetID a address name := by
  have had : addressAssetID a address ≠ "" → ∃ x ∈ a.assets, x.id = addressAssetID a address := by
    intro hn
    rcases addressAssetID_spec a address with ⟨he, -⟩ | ⟨r, hr, -, he⟩
    · exact absurd he hn
    · obtain ⟨x, hx, hi⟩ := ha.addressRef r hr
      exact ⟨x, hx, hi.trans he⟩
  unfold correlatedAssetID at hn ⊢
  simp only at hn ⊢
  split at hn
  · rename_i hna
    rw [if_pos hna]
    exact had hn
  rename_i hna
  rw [if_neg hna]
  split at hn
  · rename_i hi
    rw [if_pos hi]
    exact had hi
  rename_i hi
  rw [if_neg hi]
  rcases nameAssetID_spec a name with he | ⟨r, hr, he⟩
  · exact absurd he hn
  · obtain ⟨x, hx, hxi⟩ := ha.nameRef r hr
    exact ⟨x, hx, hxi.trans he⟩

theorem assetIDOf_ne (h : Host) (a : AssetTables) (o : ServiceObservation) : assetIDOf h a o ≠ "" := by
  unfold assetIDOf
  simp only
  split
  · exact h.assetID_ne _
  · assumption

/-- An observation whose asset is not there yet is on an address nobody owns. -/
theorem not_owned_of_new (ha : AssetInv a) (hn1 : ∀ x ∈ a.assets, x.id ≠ assetIDOf h a o) :
    ¬ Owned a o.address := by
  intro ho
  have hn := addressAssetID_ne ha ho
  have hc : correlatedAssetID a o.address (normalizedAssetName h.lower o.target) =
      addressAssetID a o.address := by
    unfold correlatedAssetID
    simp only
    split
    · rfl
    · simp
  have hi : assetIDOf h a o = correlatedAssetID a o.address (normalizedAssetName h.lower o.target) := by
    unfold assetIDOf
    rw [if_neg (hc ▸ hn)]
  obtain ⟨x, hx, he⟩ := correlatedAssetID_mem ha (hc ▸ hn)
  exact hn1 x hx (he.trans hi.symm)

@[simp] theorem mergeAsset_id (new old : AssetRow) : (mergeAsset new old).id = old.id := by
  unfold mergeAsset
  split <;> rfl

@[simp] theorem mergeAsset_address (new old : AssetRow) : (mergeAsset new old).address = old.address := by
  unfold mergeAsset
  split <;> rfl

@[simp] theorem mergeAddress_address (new old : AssetAddressRow) :
    (mergeAddress new old).address = old.address := by
  unfold mergeAddress
  split <;> rfl

@[simp] theorem mergeAddress_assetID (new old : AssetAddressRow) :
    (mergeAddress new old).assetID = old.assetID := by
  unfold mergeAddress
  split <;> rfl

theorem addObservation_owned (a : AssetTables) {id name : String} :
    Owned (addObservation id name scan a o) o.address :=
  exists_key_upsert (mergeAddress_address _) (addressRow id scan o)

theorem addObservation_mono {id name : String} (ho : Owned a address) :
    Owned (addObservation id name scan a o) address := by
  obtain ⟨r, hr, rfl⟩ := ho
  exact column_mem_upsert (mergeAddress_address _) _ hr

theorem mem_addAssetName {names : List AssetNameRow} {r x : AssetNameRow}
    (hx : x ∈ addAssetName names r) : x ∈ names ∨ x = r := by
  unfold addAssetName at hx
  split at hx
  · exact .inl hx
  · rcases mem_of_mem_insertIgnore hx with hx | hx
    · exact .inl hx
    · exact .inr (mem_singleton.mp hx)

theorem addObservation_inv (ha : AssetInv a) {id : String} (hi : id ≠ "") (name : String) (scan : Scan)
    (o : ServiceObservation) : AssetInv (addObservation id name scan a o) := by
  -- every asset of before is there, and so is the observation's own
  have hk : ∀ x ∈ a.assets, ∃ x' ∈ (addObservation id name scan a o).assets, x'.id = x.id := by
    intro x hx
    exact column_mem_upsert (mergeAsset_id _) _ hx
  have hs : ∃ x' ∈ (addObservation id name scan a o).assets, x'.id = id :=
    exists_key_upsert (mergeAsset_id _) (assetRow id scan o)
  refine ⟨fun x hx => ?_, fun r hr => ?_, fun r hr => ?_, fun x hx => ?_⟩
  · rcases mem_of_mem_upsert hx with hx | ⟨y, hy, -, rfl⟩ | ⟨rfl, -⟩
    · exact addObservation_mono (ha.owned x hx)
    · rw [mergeAsset_address]
      exact addObservation_mono (ha.owned y hy)
    · exact addObservation_owned a
  · rcases mem_of_mem_upsert hr with hr | ⟨y, hy, -, rfl⟩ | ⟨rfl, -⟩
    · obtain ⟨x, hx, hxi⟩ := ha.addressRef r hr
      obtain ⟨x', hx', hi'⟩ := hk x hx
      exact ⟨x', hx', hi'.trans hxi⟩
    · obtain ⟨x, hx, hxi⟩ := ha.addressRef y hy
      obtain ⟨x', hx', hi'⟩ := hk x hx
      exact ⟨x', hx', by rw [mergeAddress_assetID, hi', hxi]⟩
    · exact hs
  · rcases mem_addAssetName hr with hr | rfl
    · obtain ⟨x, hx, hxi⟩ := ha.nameRef r hr
      obtain ⟨x', hx', hi'⟩ := hk x hx
      exact ⟨x', hx', hi'.trans hxi⟩
    · exact hs
  · rcases mem_of_mem_upsert hx with hx | ⟨y, hy, -, rfl⟩ | ⟨rfl, -⟩
    · exact ha.named x hx
    · rw [mergeAsset_id]
      exact ha.named y hy
    · exact hi

theorem upsertObservationAsset_ok (ha : AssetInv a) : upsertObservationAsset h scan a o =
      .ok (addObservation (assetIDOf h a o) (normalizedAssetName h.lower o.target) scan a o) := by
  unfold upsertObservationAsset
  rw [if_neg]
  intro hc
  simp only [Bool.and_eq_true, Bool.not_eq_true', any_eq_false, any_eq_true, decide_eq_true_eq] at hc
  obtain ⟨hn, x, hx, hxa⟩ := hc
  refine not_owned_of_new ha hn ?_
  rw [← hxa]
  exact ha.owned x hx

theorem upsertObservations_ok (h : Host) (scan : Scan) (os : List ServiceObservation) :
    ∀ {a : AssetTables}, AssetInv a →
      ∃ a', os.foldlM (upsertObservationAsset h scan) a = .ok a' ∧ AssetInv a' ∧
        a'.evidence = a.evidence ∧ (∀ adr, Owned a adr → Owned a' adr) ∧
        ∀ o ∈ os, Owned a' o.address := by
  induction os with
  | nil => exact fun {a} ha => ⟨a, rfl, ha, rfl, fun _ ho => ho, fun o ho => by cases ho⟩
  | cons o os ih =>
    intro a ha
    obtain ⟨a', hok, ha', he, hm, hal⟩ := ih (addObservation_inv ha (assetIDOf_ne h a o)
      (normalizedAssetName h.lower o.target) scan o)
    refine ⟨a', ?_, ha', he, fun adr ho => hm _ (addObservation_mono ho), fun x hx => ?_⟩
    · rw [foldlM_cons, upsertObservationAsset_ok ha]
      exact hok
    · rcases mem_cons.mp hx with rfl | hx
      · exact hm _ (addObservation_owned a)
      · exact hal x hx

/-- **Adding observations succeeds**, keeps the inventory sound and leaves each
observation's address owned. -/
theorem upsertScanAssets_ok (ha : AssetInv a) (h : Host) (scan : Scan) :
    ∃ a', upsertScanAssets h scan a = .ok a' ∧ AssetInv a' ∧ a'.evidence = a.evidence ∧
      (scan.status = .completed → ∀ o ∈ scan.observations, Owned a' o.address) := by
  unfold upsertScanAssets
  split
  · rename_i hn
    exact ⟨a, rfl, ha, rfl, fun hc => absurd hc hn⟩
  · obtain ⟨a', ho, ha', he, -, hal⟩ := upsertObservations_ok h scan scan.observations ha
    exact ⟨a', ho, ha', he, fun _ => hal⟩

/-! ## What a scan does to the services -/

/-- The service is on a target and a port of the scan. -/
def covers (scan : Scan) (address : String) (port : Int) : Bool :=
  scan.targets.any fun target => scan.ports.any fun p => address = target.address && port = p

theorem markNotObserved_eq (scan : Scan) (svcs : List AssetServiceRow) : markNotObserved scan svcs =
      updateWhere (fun s => covers scan s.address s.port && sqlite.le s.lastChecked (completedOrCreatedAt scan))
        (fun s => { s with
          state := .notObserved, lastChecked := completedOrCreatedAt scan, lastScanID := scan.id })
        svcs := by
  unfold markNotObserved
  simp only [foldl_updateWhere, implies_true]
  rfl

theorem ends_recordAssetServiceObservation (sid : String) (scan : Scan) (a : AssetTables)
    (o : ServiceObservation) :
    Ends (fun a' =>
        (addressAssetID a o.address = "" ∧ a' = a) ∨
        (addressAssetID a o.address ≠ "" ∧ a'.assets = a.assets ∧ a'.addresses = a.addresses ∧
          a'.names = a.names ∧ ∃ inc, a'.services =
            upsert (fun s => (s.assetID, s.address, s.port, s.protocol))
              (mergeService (serviceRow (addressAssetID a o.address) scan o) inc) a.services
              (serviceRow (addressAssetID a o.address) scan o)))
      (fun e => e = .context "record asset evidence provenance" (.constraint .assetEvidence .primaryKey))
      (recordAssetServiceObservation sid scan a o) := by
  unfold recordAssetServiceObservation insertAssetEvidence
  by_cases hi : addressAssetID a o.address = ""
  · simp only [if_pos hi]
    exact .inl ⟨hi, rfl⟩
  simp only [if_neg hi]
  split
  · rename_i he
    split at he
    · cases he
    split at he
    · cases he
      exact rfl
    · cases he
  · exact .inr ⟨hi, rfl, rfl, rfl, _, rfl⟩

/-! ## When the history is recorded -/

/-- The provenance of an observation is there under its source, or its row
name is free. -/
def EvidenceFree (evidence : List AssetEvidenceRow) (sourceID observationID : String) : Prop :=
  (∃ e ∈ evidence, sourceKey e = (.scanner, sourceID, "service_observation", observationID)) ∨
    ∀ e ∈ evidence, e.id ≠ evidenceID observationID

theorem insertAssetEvidence_cases (evd : List AssetEvidenceRow) (aid sid : String)
    (scan : Scan) (o : ServiceObservation) :
    (EvidenceFree evd sid o.id ∧ ∃ evd', insertAssetEvidence evd (evidenceRow aid sid scan o) = .ok evd' ∧
      (evd' = evd ∨ evd' = evd ++ [evidenceRow aid sid scan o])) ∨
    (¬ EvidenceFree evd sid o.id ∧ ∃ e, insertAssetEvidence evd (evidenceRow aid sid scan o) = .error e) := by
  unfold insertAssetEvidence
  split
  · rename_i hkn
    obtain ⟨e, he, hk⟩ := any_eq_true.mp hkn
    exact .inl ⟨.inl ⟨e, he, of_decide_eq_true hk⟩, evd, rfl, .inl rfl⟩
  rename_i hkn
  split
  · rename_i ht
    obtain ⟨x, hx, hi⟩ := any_eq_true.mp ht
    refine .inr ⟨?_, _, rfl⟩
    rintro (⟨e, he, hk⟩ | hf)
    · exact hkn (any_eq_true.mpr ⟨e, he, decide_eq_true hk⟩)
    · exact hf x hx (by simpa [evidenceRow] using hi)
  · rename_i hf
    refine .inl ⟨.inr fun e he hi => hf ?_, _, rfl, .inr rfl⟩
    exact any_eq_true.mpr ⟨e, he, by simpa [evidenceRow] using hi⟩

theorem evidenceID_injective : Function.Injective evidenceID := by
  intro a b ha
  unfold evidenceID at ha
  rw [String.ext_iff, String.toList_append, String.toList_append] at ha
  exact String.ext (append_cancel_left ha)

theorem evidenceFree_append {evd : List AssetEvidenceRow} {aid sid oid : String} (hn : o.id ≠ oid) :
    EvidenceFree (evd ++ [evidenceRow aid sid scan o]) sid oid ↔ EvidenceFree evd sid oid := by
  have hk : sourceKey (evidenceRow aid sid scan o) ≠ (.scanner, sid, "service_observation", oid) := by
    simp [sourceKey, evidenceRow, hn]
  have hi : (evidenceRow aid sid scan o).id ≠ evidenceID oid := fun he => hn (evidenceID_injective he)
  unfold EvidenceFree
  simp only [mem_append, mem_singleton, or_and_right, exists_or, exists_eq_left, or_imp,
    forall_and, forall_eq, hk, or_false, hi, ne_eq, not_false_eq_true, and_true]

theorem recordAssetServiceObservation_cases (ha : AssetInv a) (ho : Owned a o.address)
    (sid : String) (scan : Scan) :
    (EvidenceFree a.evidence sid o.id ∧ ∃ a',
      recordAssetServiceObservation sid scan a o = .ok a' ∧ AssetInv a' ∧
      a'.addresses = a.addresses ∧
      (a'.evidence = a.evidence ∨
        a'.evidence = a.evidence ++ [evidenceRow (addressAssetID a o.address) sid scan o])) ∨
    (¬ EvidenceFree a.evidence sid o.id ∧ ∃ e, recordAssetServiceObservation sid scan a o = .error e) := by
  unfold recordAssetServiceObservation
  simp only [if_neg (addressAssetID_ne ha ho)]
  rcases insertAssetEvidence_cases a.evidence (addressAssetID a o.address) sid scan o with
    ⟨hf, evd', hok, hev⟩ | ⟨hn, e, he⟩
  · refine .inl ⟨hf, ?_⟩
    rw [hok]
    exact ⟨_, rfl, ⟨ha.owned, ha.addressRef, ha.nameRef, ha.named⟩, rfl, hev⟩
  · refine .inr ⟨hn, e, ?_⟩
    rw [he]

theorem recordObservations_ok_iff (sid : String) (scan : Scan) (os : List ServiceObservation)
    (hos : Keyed ServiceObservation.id os) :
    ∀ {a : AssetTables}, AssetInv a → (∀ o ∈ os, Owned a o.address) →
      ((∀ o ∈ os, EvidenceFree a.evidence sid o.id) ∧
        ∃ a', os.foldlM (recordAssetServiceObservation sid scan) a = .ok a' ∧ AssetInv a') ∨
      ((¬ ∀ o ∈ os, EvidenceFree a.evidence sid o.id) ∧
        ∃ e, os.foldlM (recordAssetServiceObservation sid scan) a = .error e) := by
  induction os with
  | nil => exact fun {a} ha _ => .inl ⟨fun o ho => absurd ho not_mem_nil, a, rfl, ha⟩
  | cons o os ih =>
    intro a ha how
    obtain ⟨hn, hos⟩ := nodup_cons.mp hos
    rw [foldlM_cons]
    rcases recordAssetServiceObservation_cases ha (how o mem_cons_self) sid scan with
      ⟨hf, a1, hok, ha1, had, hev⟩ | ⟨hb, e, her⟩
    · -- the other observations find the same rows, up to the one just added
      have hs : ∀ x ∈ os, (EvidenceFree a1.evidence sid x.id ↔ EvidenceFree a.evidence sid x.id) := by
        intro x hx
        have hne : o.id ≠ x.id := fun he => hn (mem_map.mpr ⟨x, hx, he.symm⟩)
        rcases hev with hev | hev
        · rw [hev]
        · rw [hev, evidenceFree_append hne]
      have ho1 : ∀ x ∈ os, Owned a1 x.address := by
        intro x hx
        unfold Owned
        rw [had]
        exact how x (mem_cons_of_mem _ hx)
      rw [hok]
      rcases ih hos ha1 ho1 with ⟨hal, a', ho', ha'⟩ | ⟨hb, e, her⟩
      · refine .inl ⟨fun x hx => ?_, a', ho', ha'⟩
        rcases mem_cons.mp hx with rfl | hx
        · exact hf
        · exact (hs x hx).mp (hal x hx)
      · refine .inr ⟨fun hal => hb fun x hx => ?_, e, her⟩
        exact (hs x hx).mpr (hal x (mem_cons_of_mem _ hx))
    · exact .inr ⟨fun hal => hb (hal o mem_cons_self), e, by rw [her]; rfl⟩

/-- **When the inventory takes a scan.** The last part of `Save` succeeds
exactly when no provenance row of another source has an observation's name,
and then keeps the inventory sound. -/
theorem scanAssets_cases (ha : AssetInv a) (h : Host) (w : WorkerTables) (scan : Scan)
    (hos : Keyed ServiceObservation.id scan.observations) :
    ((scan.status = .completed →
        ∀ o ∈ scan.observations, EvidenceFree a.evidence (scannerEvidenceSourceID w scan.id) o.id) ∧
      ∃ a', scanAssets h w scan a = .ok a' ∧ AssetInv a') ∨
    ((¬ (scan.status = .completed →
        ∀ o ∈ scan.observations, EvidenceFree a.evidence (scannerEvidenceSourceID w scan.id) o.id)) ∧
      ∃ e, scanAssets h w scan a = .error e) := by
  obtain ⟨a1, hok, ha1, hev, ho⟩ := upsertScanAssets_ok ha h scan
  unfold scanAssets
  rw [hok]
  simp only [updateAssetServiceHistory]
  split
  · rename_i hn
    exact .inl ⟨fun hc => absurd hc hn, a1, rfl, ha1⟩
  rename_i hco
  rw [not_not] at hco
  have hi : AssetInv { a1 with services := markNotObserved scan a1.services } :=
    ⟨ha1.owned, ha1.addressRef, ha1.nameRef, ha1.named⟩
  have hr := recordObservations_ok_iff (scannerEvidenceSourceID w scan.id) scan scan.observations hos
    hi (ho hco)
  rw [← hev]
  rcases hr with ⟨hal, ho'⟩ | ⟨hb, he⟩
  · exact .inl ⟨fun _ => hal, ho'⟩
  · exact .inr ⟨fun hal => hb (hal hco), he⟩

end

end Mossward.L2.Asset
