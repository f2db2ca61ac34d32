import Mossward.Core.Run
import Mossward.Core.Table
import Mossward.L1Encoding.Names
import Mossward.L2Store.Schema

/-!
# Vulnerability records and their matches

`UpsertCVEs` replaces a CVE and its affected products; `MatchObservation`
joins the products that cover an observed version with their CVEs. The join
yields a match per product row, so a CVE with several rows that cover one
version is matched as often.

Results:
* `cveInv_upserts`: the CVE tables keep their keys under every update.
* `matchObservation_cveIDs`, `keyed_matchAll_iff`,
  `matchObservation_unique_iff`.
-/
namespace Mossward.L2.Intelligence

open Table Run L1.Names L1.Rfc3339 Model L2.Schema List

/-- What the store uses of its host: `unicode.ToLower` beyond ASCII, and the
identifier of an asset, a digest of its first address. -/
structure Host where
  lower : Char → Char
  assetIDForAddress : String → String
  assetID_ne : ∀ address, assetIDForAddress address ≠ ""

namespace Host

def toLower (h : Host) (s : String) : String := String.ofList (L1.Names.toLower h.lower s.toList)

end Host

theorem plainID_ne (adr : String) : "asset:" ++ adr ≠ "" := by
  intro h
  have hl := congrArg String.toList h
  simp at hl

/-- A host whose asset identifiers are easy to read. -/
def plainHost : Host := ⟨id, fun address => "asset:" ++ address, plainID_ne⟩

/-! ## Updates -/

def cveRow (h : Host) (r : CVERecord) : CVERow where
  id := r.id
  description := r.description
  publishedAt := r.publishedAt
  modifiedAt := r.modifiedAt
  cvssScore := r.cvssScore
  cvssVector := r.cvssVector
  severity := h.toLower r.severity
  knownExploited := r.knownExploited
  sourceURL := r.sourceURL

def productRow (h : Host) (cveID : String) (p : AffectedProduct) : CVEProductRow where
  cveID := cveID
  product := { p with part := h.toLower p.part, vendor := h.toLower p.vendor, product := h.toLower p.product }

/-- One record of `UpsertCVEs`: the row is replaced, and so are its products. -/
def upsertCVE (h : Host) (t : ScanTables) (r : CVERecord) : ScanTables :=
  { t with
    cves := upsert (·.id) (fun _ => cveRow h r) t.cves (cveRow h r)
    cveProducts := t.cveProducts.filter (fun p => p.cveID ≠ r.id) ++ r.products.map (productRow h r.id) }

/-- Mirrors `internal/store/intelligence.go:13-57`, up to the commit; the
matches of endpoint inventories are not part of these tables. -/
def upsertCVEs (h : Host) (db : DB) (records : List CVERecord) : DB :=
  { db with scan := records.foldl (upsertCVE h) db.scan }

/-! ## Matches -/

/-- The query's conditions on a product row, and the version check of the loop. -/
def affects (h : Host) (o : ServiceObservation) (p : CVEProductRow) : Bool :=
  match normalizeProduct h.lower o.product with
  | none => false
  | some (vendor, product) =>
    trimSpace o.version.toList ≠ [] && p.product.vendor = vendor && p.product.product = product &&
      p.product.vulnerable &&
      versionAffected h.lower o.version p.product.version p.product.versionStartIncluding
        p.product.versionStartExcluding p.product.versionEndIncluding p.product.versionEndExcluding

def matchOf (o : ServiceObservation) (now : Time) (c : CVERow) : CVEMatch where
  cveID := c.id
  observationID := o.id
  target := o.target
  address := o.address
  port := o.port
  product := o.product
  version := o.version
  severity := c.severity
  cvssScore := c.cvssScore
  description := c.description
  confidence := "high"
  evidence := "Observed " ++ o.product ++ " " ++ o.version ++ " matches the affected NVD version range"
  knownExploited := c.knownExploited
  sourceURL := c.sourceURL
  matchedAt := now

/-- Mirrors `internal/store/intelligence.go:83-116`: `cve_products` joined with
`cves`. The rows come in the order of the product table. -/
def matchObservation (h : Host) (t : ScanTables) (o : ServiceObservation) (now : Time) : List CVEMatch :=
  (t.cveProducts.filter (affects h o)).flatMap fun p =>
    (t.cves.filter fun c => c.id = p.cveID).map (matchOf o now)

/-! ## The tables under updates -/

/-- `cves` is keyed, and every product row refers to a CVE. -/
structure CVEInv (t : ScanTables) : Prop where
  keyed : Keyed CVERow.id t.cves
  refs : ∀ p ∈ t.cveProducts, ∃ c ∈ t.cves, c.id = p.cveID

theorem cveInv_upsertCVE (h : Host) {t : ScanTables} (ht : CVEInv t) (r : CVERecord) :
    CVEInv (upsertCVE h t r) := by
  have hs : ∃ c ∈ (upsertCVE h t r).cves, c.id = r.id := by
    unfold upsertCVE upsert
    split
    · rename_i ha
      obtain ⟨c, hc, hi⟩ := any_eq_true.mp ha
      exact ⟨cveRow h r, mem_updateWhere.mpr ⟨c, hc, by rw [if_pos hi]⟩, rfl⟩
    · exact ⟨cveRow h r, by simp, rfl⟩
  refine ⟨?_, fun p hp => ?_⟩
  · -- the merge sets the row's own identifier again, so no key changes
    unfold upsertCVE upsert
    split
    · unfold Keyed
      rw [updateWhere_map CVERow.id]
      · exact ht.keyed
      · intro c hc
        simpa [eq_comm] using hc
    · rename_i ha
      refine ht.keyed.append_singleton fun c hc he => ha ?_
      exact any_eq_true.mpr ⟨c, hc, by simpa using he⟩
  · rcases mem_append.mp hp with hp | hp
    · obtain ⟨hp, hn⟩ := mem_filter.mp hp
      obtain ⟨c, hc, hi⟩ := ht.refs p hp
      simp only [decide_eq_true_eq] at hn
      refine ⟨c, ?_, hi⟩
      unfold upsertCVE upsert
      split
      · refine mem_updateWhere.mpr ⟨c, hc, ?_⟩
        simp [cveRow, hi, hn]
      · simp [hc]
    · obtain ⟨q, -, rfl⟩ := mem_map.mp hp
      exact hs

theorem cveInv_upsertCVEs (h : Host) {db : DB} (hd : CVEInv db.scan) (recs : List CVERecord) :
    CVEInv (upsertCVEs h db recs).scan := by
  unfold upsertCVEs
  generalize db.scan = t at hd
  induction recs generalizing t with
  | nil => exact hd
  | cons r rs ih => exact ih _ (cveInv_upsertCVE h hd r)

theorem frame_upsertCVEs (h : Host) (db : DB) (recs : List CVERecord) :
    (upsertCVEs h db recs).scan.scans = db.scan.scans ∧
      (upsertCVEs h db recs).scan.asset = db.scan.asset := by
  unfold upsertCVEs
  generalize db.scan = t
  induction recs generalizing t with
  | nil => exact ⟨rfl, rfl⟩
  | cons r rs ih => exact ih (upsertCVE h t r)

/-! ## What a match reports -/

section
variable {h : Host} {t : ScanTables} {o : ServiceObservation} {now : Time}

theorem matchObservation_cveIDs (ht : CVEInv t) :
    (matchObservation h t o now).map (·.cveID) = (t.cveProducts.filter (affects h o)).map (·.cveID) := by
  unfold matchObservation
  rw [map_flatMap]
  have ho : ∀ p ∈ t.cveProducts.filter (affects h o),
      ((t.cves.filter fun c => c.id = p.cveID).map (matchOf o now)).map (·.cveID) = [p.cveID] := by
    intro p hp
    obtain ⟨c, hc, hi⟩ := ht.refs p (mem_filter.mp hp).1
    rw [← hi, ht.keyed.filter_eq hc]
    rfl
  rw [flatMap_congr ho]
  exact flatMap_pure_eq_map _ _

theorem matchObservation_observation {m : CVEMatch} (hm : m ∈ matchObservation h t o now) :
    m.observationID = o.id ∧ ∃ c ∈ t.cves, c.id = m.cveID := by
  obtain ⟨p, -, hm⟩ := mem_flatMap.mp hm
  obtain ⟨c, hc, rfl⟩ := mem_map.mp hm
  exact ⟨rfl, c, (mem_filter.mp hc).1, rfl⟩

/-- No CVE has two product rows that cover the observation. -/
def MatchedOnce (h : Host) (t : ScanTables) (o : ServiceObservation) : Prop :=
  ∀ id, (t.cveProducts.filter fun p => affects h o p && p.cveID = id).length ≤ 1

/-- **One match per CVE.** The matches of an observation name each CVE at most
once exactly when no CVE has two product rows that cover it. -/
theorem matchObservation_unique_iff (ht : CVEInv t) :
    Keyed CVEMatch.cveID (matchObservation h t o now) ↔ MatchedOnce h t o := by
  unfold Keyed MatchedOnce
  rw [matchObservation_cveIDs ht, nodup_iff_count_le_one]
  refine forall_congr' fun id => ?_
  rw [count, countP_map, countP_eq_length_filter, filter_filter]
  have hc : ∀ p : CVEProductRow,
      (((fun x => x == id) ∘ fun p : CVEProductRow => p.cveID) p && affects h o p) =
        (affects h o p && decide (p.cveID = id)) := by
    intro p
    by_cases hp : p.cveID = id <;> simp [hp]
  simp only [hc]

/-- The matches of several observations, each with the time of its match. -/
def matchAll (h : Host) (t : ScanTables) (os : List (ServiceObservation × Time)) : List CVEMatch :=
  os.flatMap fun p => matchObservation h t p.1 p.2

theorem keyed_matchAll_iff (ht : CVEInv t) {os : List (ServiceObservation × Time)}
    (hos : Keyed (fun p => p.1.id) os) :
    Keyed (fun m : CVEMatch => (m.observationID, m.cveID)) (matchAll h t os) ↔
      ∀ p ∈ os, MatchedOnce h t p.1 := by
  have ho : ∀ p : ServiceObservation × Time,
      Keyed (fun m : CVEMatch => (m.observationID, m.cveID)) (matchObservation h t p.1 p.2) ↔
        MatchedOnce h t p.1 := by
    intro p
    rw [← @matchObservation_unique_iff h t p.1 p.2 ht]
    unfold Keyed
    have hp : (matchObservation h t p.1 p.2).map (fun m => (m.observationID, m.cveID)) =
        ((matchObservation h t p.1 p.2).map CVEMatch.cveID).map (Prod.mk p.1.id) := by
      rw [map_map]
      refine map_congr_left fun m hm => ?_
      simp [(matchObservation_observation hm).1]
    rw [hp, nodup_map_iff (Prod.mk_right_injective p.1.id)]
  unfold matchAll Keyed
  rw [map_flatMap, nodup_flatMap]
  simp only [← Keyed.eq_1, ho]
  refine and_iff_left ?_
  -- matches of two observations differ in the observation's identifier
  refine (pairwise_map.mp hos).imp fun {a b} hne => ?_
  intro x hxa hx
  obtain ⟨m, hm, rfl⟩ := mem_map.mp hxa
  obtain ⟨m', hm', he⟩ := mem_map.mp hx
  refine hne ?_
  rw [← (matchObservation_observation hm).1, ← (matchObservation_observation hm').1]
  exact (congrArg Prod.fst he).symm

end

end Mossward.L2.Intelligence
