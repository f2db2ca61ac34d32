import Mossward.L2Store.ScanStore

/-!
# Which asset an address belongs to

`asset_addresses` says which asset owns an address, `assets.address` is the one
it is listed under, and `asset_services` repeats the owner in its key. Nothing
in the schema ties the three together; the order in which `Save` looks assets
up and writes their rows does. `internal/store/asset.go`, `asset_service.go`.

Results:
* `Identity`: one owner for each address, the primary address among an asset's
  own, every service under the owner of its address.
* `Identity.service_eq`, `ends_saveTx`.
-/
namespace Mossward.L2.AssetIdentity

open Table L1.Names Model L2.Schema L2.Intelligence
open L2.Asset L2.ScanStore

/-! ## The invariant -/

/-- `PRIMARY KEY(asset_id,address,port,protocol)`. -/
def serviceKey (s : AssetServiceRow) : String × String × Int × String :=
  (s.assetID, s.address, s.port, s.protocol)

/-- The asset `id` owns the address. -/
def Owns (a : AssetTables) (id address : String) : Prop :=
  ∃ r ∈ a.addresses, r.address = address ∧ r.assetID = id

structure Identity (a : AssetTables) : Prop where
  assetKeys : Keyed AssetRow.id a.assets
  addressKeys : Keyed AssetAddressRow.address a.addresses
  nameKeys : Keyed AssetNameRow.normalizedName a.names
  serviceKeys : Keyed serviceKey a.services
  named : ∀ x ∈ a.assets, x.id ≠ ""
  primary : ∀ x ∈ a.assets, Owns a x.id x.address
  addressRef : ∀ r ∈ a.addresses, ∃ x ∈ a.assets, x.id = r.assetID
  nameRef : ∀ r ∈ a.names, ∃ x ∈ a.assets, x.id = r.assetID
  serviceOwner : ∀ s ∈ a.services, Owns a s.assetID s.address

section
variable {a a' : AssetTables} {h : Host} {scan : Scan} {o : ServiceObservation} {id id' address : String}

theorem identity_empty : Identity ⟨[], [], [], [], [], []⟩ := by
  constructor <;> first | exact List.nodup_nil | (intro x hx; cases hx)

theorem Identity.assetInv (ha : Identity a) : AssetInv a where
  owned x hx := by
    obtain ⟨r, hr, had, -⟩ := ha.primary x hx
    exact ⟨r, hr, had⟩
  addressRef := ha.addressRef
  nameRef := ha.nameRef
  named := ha.named

theorem Identity.owner_unique (ha : Identity a) (ho : Owns a id address) (ho' : Owns a id' address) : id = id' := by
  obtain ⟨r, hr, hra, rfl⟩ := ho
  obtain ⟨r', hr', hra', rfl⟩ := ho'
  rw [ha.addressKeys.eq_of_key hr hr' (hra.trans hra'.symm)]

theorem Identity.primary_unique (ha : Identity a) {x y : AssetRow} (hx : x ∈ a.assets) (hy : y ∈ a.assets)
    (he : x.address = y.address) : x = y := by
  have ho := ha.primary x hx
  rw [he] at ho
  exact ha.assetKeys.eq_of_key hx hy (ha.owner_unique ho (ha.primary y hy))

/-- A service is stored once: two assets have no service on one address. -/
theorem Identity.service_eq (ha : Identity a) {s s' : AssetServiceRow} (hs : s ∈ a.services)
    (hs' : s' ∈ a.services) (had : s.address = s'.address) (hpo : s.port = s'.port)
    (hp : s.protocol = s'.protocol) : s = s' := by
  have ho := ha.serviceOwner s hs
  rw [had] at ho
  have hi := ha.owner_unique ho (ha.serviceOwner s' hs')
  refine ha.serviceKeys.eq_of_key hs hs' ?_
  simp only [serviceKey, hi, had, hpo, hp]

/-! ## Observations -/

theorem owns_addObservation {name : String} {i : String} (ho : Owns a id address) :
    Owns (addObservation i name scan a o) id address := by
  obtain ⟨r, hr, rfl, rfl⟩ := ho
  have hk : ∃ r' ∈ (addObservation i name scan a o).addresses, (r'.address, r'.assetID) = (r.address, r.assetID) :=
    column_mem_upsert (fun x => by simp) _ hr
  obtain ⟨r', hr', he⟩ := hk
  exact ⟨r', hr', congrArg Prod.fst he, congrArg Prod.snd he⟩

theorem owns_fresh {name i : String} (hn : ¬ Owned a o.address) :
    Owns (addObservation i name scan a o) i o.address := by
  have hf : ∀ r ∈ a.addresses, r.address ≠ (addressRow i scan o).address := fun r hr he => hn ⟨r, hr, he⟩
  refine ⟨addressRow i scan o, ?_, rfl, rfl⟩
  show _ ∈ upsert _ _ _ _
  rw [upsert_fresh hf]
  simp

theorem addObservation_identity (ha : Identity a) {i : String} (hi : i ≠ "")
    (hn : (∀ x ∈ a.assets, x.id ≠ i) → ¬ Owned a o.address) (name : String) (scan : Scan) :
    Identity (addObservation i name scan a o) := by
  have hin := addObservation_inv ha.assetInv hi name scan o
  refine ⟨keyed_upsert ha.assetKeys (mergeAsset_id _) _, keyed_upsert ha.addressKeys (mergeAddress_address _) _,
    ?_, ha.serviceKeys, hin.named, ?_, hin.addressRef, hin.nameRef, ?_⟩
  · show Keyed _ (addAssetName _ _)
    unfold addAssetName
    split
    · exact ha.nameKeys
    · exact keyed_insertIgnore ha.nameKeys _
  · intro x hx
    rcases mem_of_mem_upsert hx with hx | ⟨y, hy, -, rfl⟩ | ⟨rfl, hf⟩
    · exact owns_addObservation (ha.primary x hx)
    · rw [mergeAsset_id, mergeAsset_address]
      exact owns_addObservation (ha.primary y hy)
    · exact owns_fresh (hn hf)
  · intro s hs
    exact owns_addObservation (ha.serviceOwner s hs)

/-! ## Services -/

theorem Identity.updateServices (ha : Identity a) {p : AssetServiceRow → Bool}
    {f : AssetServiceRow → AssetServiceRow} (hf : ∀ s, serviceKey (f s) = serviceKey s) :
    Identity { a with services := updateWhere p f a.services } := by
  refine ⟨ha.assetKeys, ha.addressKeys, ha.nameKeys, ha.serviceKeys.updateWhere fun s _ => hf s, ha.named,
    ha.primary, ha.addressRef, ha.nameRef, ?_⟩
  intro s' hs'
  obtain ⟨s, hs, rfl⟩ := mem_updateWhere.mp hs'
  split
  · have hk := hf s
    simp only [serviceKey, Prod.mk.injEq] at hk
    rw [hk.1, hk.2.1]
    exact ha.serviceOwner s hs
  · exact ha.serviceOwner s hs

theorem Identity.upsertService (ha : Identity a) {new : AssetServiceRow} (ho : Owns a new.assetID new.address)
    (inc : Int) :
    Identity { a with services := upsert serviceKey (mergeService new inc) a.services new } := by
  have hm : ∀ s, serviceKey (mergeService new inc s) = serviceKey s := fun _ => rfl
  refine ⟨ha.assetKeys, ha.addressKeys, ha.nameKeys, keyed_upsert ha.serviceKeys hm _, ha.named, ha.primary,
    ha.addressRef, ha.nameRef, ?_⟩
  intro s hs
  rcases mem_of_mem_upsert hs with hs | ⟨s', hs', -, rfl⟩ | ⟨rfl, -⟩
  · exact ha.serviceOwner s hs
  · exact ha.serviceOwner s' hs'
  · exact ho

theorem Identity.congr (ha : Identity a) (has : a'.assets = a.assets) (had : a'.addresses = a.addresses)
    (hn : a'.names = a.names) (hs : a'.services = a.services) : Identity a' := by
  obtain ⟨assets, addresses, names, svcs, evs, evd⟩ := a'
  cases has
  cases had
  cases hn
  cases hs
  exact ⟨ha.assetKeys, ha.addressKeys, ha.nameKeys, ha.serviceKeys, ha.named, ha.primary, ha.addressRef,
    ha.nameRef, ha.serviceOwner⟩

theorem owns_addressAssetID (hn : addressAssetID a address ≠ "") : Owns a (addressAssetID a address) address := by
  rcases addressAssetID_spec a address with ⟨he, -⟩ | ⟨r, hr, ha, hi⟩
  · exact absurd he hn
  · exact ⟨r, hr, ha, hi⟩

/-! ## Saves -/

/-- The table whose constraint the error reports. -/
def failedTable : StoreError → Option Table
  | .constraint table _ => some table
  | .context _ cause => failedTable cause
  | _ => none

/-- An error that is not about the assets' uniqueness. -/
def NotOnAssets (e : StoreError) : Prop := failedTable e ≠ some .assets

theorem ends_recordObservation (ha : Identity a) (sid : String) :
    Ends Identity NotOnAssets (recordAssetServiceObservation sid scan a o) := by
  refine (ends_recordAssetServiceObservation sid scan a o).mono ?_ ?_
  · rintro a' (⟨-, rfl⟩ | ⟨hne, has, had, hn, inc, hs⟩)
    · exact ha
    · have ho : Owns a (serviceRow (addressAssetID a o.address) scan o).assetID o.address :=
        owns_addressAssetID hne
      exact (ha.upsertService ho inc).congr has had hn hs
  · simp [NotOnAssets, failedTable]

theorem ends_scanAssets (ha : Identity a) (h : Host) (w : WorkerTables) (scan : Scan) :
    Ends Identity NotOnAssets (scanAssets h w scan a) := by
  have hu : Ends Identity NotOnAssets (upsertScanAssets h scan a) := by
    unfold upsertScanAssets
    split
    · exact ha
    · refine Ends.foldlM (fun a ha o _ => ?_) ha
      rw [upsertObservationAsset_ok ha.assetInv]
      exact addObservation_identity ha (assetIDOf_ne h a o) (not_owned_of_new ha.assetInv) _ scan
  unfold scanAssets
  split
  · rename_i e he
    rw [he] at hu
    exact hu
  rename_i a1 ho
  have ha1 := hu.of_ok ho
  unfold updateAssetServiceHistory
  split
  · exact ha1
  · refine Ends.foldlM (fun a ha o _ => ends_recordObservation ha _) ?_
    rw [markNotObserved_eq]
    exact ha1.updateServices fun _ => rfl

section
variable {db : DB} (ha : Identity db.scan.asset)
include ha

/-- **Saves.** A save keeps the identity of assets, and never fails on the
uniqueness of their addresses. -/
theorem ends_saveTx (h : Host) (scan : Scan) :
    Ends (fun t => Identity t.asset) NotOnAssets (saveTx h db scan) := by
  refine (ends_require (by simp [NotOnAssets, failedTable])).bind fun _ _ => ?_
  refine (ends_require (by simp [NotOnAssets, failedTable])).bind fun _ _ => ?_
  refine (ends_insertAll ?_ _ _).bind fun obs _ => ?_
  · intro t r e he
    unfold refuseObservation at he
    split at he <;> cases he
    simp [NotOnAssets, failedTable]
  refine (ends_insertAll ?_ _ _).bind fun fnds _ => ?_
  · intro t r e he
    unfold refuseFinding at he
    split at he
    · cases he
      simp [NotOnAssets, failedTable]
    · split at he <;> cases he
      simp [NotOnAssets, failedTable]
  refine (ends_insertAll ?_ _ _).bind fun cveMatches _ => ?_
  · intro t r e he
    unfold refuseMatch at he
    split at he
    · cases he
      simp [NotOnAssets, failedTable]
    · split at he <;> cases he
      simp [NotOnAssets, failedTable]
  refine (ends_require (by simp [NotOnAssets, failedTable])).bind fun _ _ => ?_
  refine (ends_scanAssets ?_ h db.worker scan).bind fun asset has => ?_
  · exact ha
  · exact has

theorem save_identity (h : Host) (scan : Scan) : Identity (save h db scan).2.scan.asset := by
  have htx := ends_saveTx ha h scan
  unfold save
  split
  · exact ha
  · rename_i t ht
    exact htx.of_ok ht

theorem save_failedTable_ne {e : StoreError}
    (he : (save h db scan).1 = .error e) : failedTable e ≠ some .assets := by
  have ht := ends_saveTx ha h scan
  unfold save at he
  split at he
  · rename_i e' her
    cases he
    rw [her] at ht
    exact ht
  · cases he

end

end

/-! ## A small inventory -/

namespace Small

def host : Host := plainHost

/-- A completed scan of these addresses on port 22. -/
def completed (id : String) (seconds : Int) (addresses : List String) (observations : List ServiceObservation) :
    Scan :=
  { Schema.Small.scan id addresses [22] with
    status := .completed
    completedAt := some (Schema.Small.clock seconds)
    observations := observations }

end Small

end Mossward.L2.AssetIdentity
