import Mossward.L3Protocol.SqliteServer
import Mossward.L4App.ScanEngine

/-!
# CVE matches and the end of a scan

A CVE contributes a product row for each entry of its configurations, and the
rows of one CVE may cover the same version. Each covering row yields a match,
while a scan can store one match per observation and CVE.

Results:
* `foldl_addResult`: a scan with all its results.
* `cve_matched_once_iff`.
-/
namespace Mossward.L4.CveMatching

open Table Run L1.Rfc3339 Model L2.Schema List
open L2.Intelligence L2.ScanStore L2.Projection L3.SqliteServer
open L4.ScanEngine

/-! ## All results of a scan -/

/-- The observations among the results, each with the time of its match. -/
def foundAll (results : List ProbeResult) : List (ServiceObservation × Time) :=
  results.filterMap fun r => r.found.map fun f => (f.1, r.matchedAt)

def foundFindings (results : List ProbeResult) : List Finding :=
  results.flatMap fun r => r.found.elim [] Prod.snd

def resultCheckpoint (r : ProbeResult) : ScanCheckpoint :=
  { address := r.target.address, port := r.port, completedAt := r.completedAt }

section
variable {h : Host} {t : ScanTables} {scan : Scan} {started : Time}

theorem foldl_addResult (h : Host) (t : ScanTables) (s : Scan) (rs1 : List ProbeResult) :
    rs1.foldl (addResult h t) s = { s with
      doneChecks := s.doneChecks + rs1.length
      checkpoints := s.checkpoints ++ rs1.map resultCheckpoint
      observations := s.observations ++ (foundAll rs1).map Prod.fst
      findings := s.findings ++ foundFindings rs1
      cveMatches := s.cveMatches ++ matchAll h t (foundAll rs1) } := by
  induction rs1 generalizing s with
  | nil => simp [foundAll, foundFindings, matchAll]
  | cons r rs ih =>
    rw [foldl_cons, ih]
    unfold addResult
    have hl : s.doneChecks + 1 + (rs.length : Int) = s.doneChecks + ((rs.length + 1 : Nat) : Int) := by
      omega
    cases hf : r.found with
    | none => simp [foundAll, foundFindings, hf, resultCheckpoint, hl]
    | some f => simp [foundAll, foundFindings, matchAll, hf, resultCheckpoint, hl]

theorem fits_started (hm : scan.cveMatches = []) {rs : List ProbeResult}
    (hfi : Fits t (withoutMatches (probed h t scan started rs))) : Fits t (startedScan scan started) := by
  unfold probed at hfi
  rw [foldl_addResult] at hfi
  have hok := hfi.observationKeys
  have hfk := hfi.findingKeys
  have hc := hfi.checkpointKeys
  simp only [withoutMatches, Keyed, map_append] at hok hfk hc
  refine ⟨hfi.rate, hfi.ports, hok.of_append_left, fun o ho => ?_, fun f hf => ?_, hfk.of_append_left,
    fun f hf => ?_, ?_, fun m hme => ?_, hc.of_append_left⟩
  · exact hfi.observationsFree o (mem_append_left _ ho)
  · exact hfi.findingStatuses f (mem_append_left _ hf)
  · exact hfi.findingsFree f (mem_append_left _ hf)
  · change Keyed _ scan.cveMatches
    rw [hm]
    exact nodup_nil
  · change m ∈ scan.cveMatches at hme
    rw [hm] at hme
    cases hme

theorem fits_probed_iff (ht : CVEInv t) (ho : scan.observations = []) (hm : scan.cveMatches = [])
    (rs : List ProbeResult) :
    Fits t (probed h t scan started rs) ↔ Fits t (withoutMatches (probed h t scan started rs)) ∧
        ∀ p ∈ foundAll rs, MatchedOnce h t p.1 := by
  have he := foldl_addResult h t (startedScan scan started) rs
  refine fits_matched_iff ht ?_ ?_
  · rw [probed, he]
    change scan.observations ++ _ = _
    rw [ho, nil_append]
  · rw [probed, he]
    change scan.cveMatches ++ _ = _
    rw [hm, nil_append]

end

/-- **One match per CVE.** Whatever CVE records were stored before: the matches
of an observation are distinct; a scan that is sound but for the matches of its
observations can be saved; and a fresh scan that is sound but for its matches
ends in a terminal status, once its probes have finished; each exactly when no
CVE has two product rows that cover the observation. -/
theorem cve_matched_once_iff (S : Server) (errorText : StoreError → String) {db₀ : DB} (hdb₀ : StoreInv db₀)
    (ops : List Op) {db : DB} (hrun : run (step S) db₀ ops = db) :
    (∀ (o : ServiceObservation) (now : Time),
      Keyed CVEMatch.cveID (matchObservation S.host db.scan o now) ↔ MatchedOnce S.host db.scan o) ∧
    (∀ (scan : Scan) (os : List (ServiceObservation × Time)), scan.observations = os.map Prod.fst →
      scan.cveMatches = matchAll S.host db.scan os → Fits db.scan (withoutMatches scan) →
      ProvenanceFree db scan →
      ((save S.host db scan).1 = .ok () ↔ ∀ p ∈ os, MatchedOnce S.host db.scan p.1)) ∧
    ∀ (scan : Scan) (started completed : Time) (results : List ProbeResult), scan.observations = [] →
      scan.cveMatches = [] → Fits db.scan (withoutMatches (probed S.host db.scan scan started results)) →
      ((∃ st, storedStatus (runAlone ⟨S.host, errorText⟩ db scan started completed results).1.scan scan.id =
          some st ∧ st.terminal) ↔
        ∀ p ∈ foundAll results, MatchedOnce S.host db.scan p.1) := by
  have hd : StoreInv db := hrun ▸ storeInv_run S hdb₀ ops
  refine ⟨fun o now => matchObservation_unique_iff hd.cve, fun scan os ho hm hf hfr => ?_,
    fun scan started completed results ho hm hf => ?_⟩
  · rw [save_ok_iff hd.asset, and_iff_left hfr, fits_matched_iff hd.cve ho hm, and_iff_right hf]
  · obtain ⟨-, he⟩ := runAlone_status hd (fits_started hm hf) ⟨S.host, errorText⟩ completed results
    have hi : Fits db.scan (probed S.host db.scan scan started results) ↔ _ :=
      (fits_probed_iff hd.cve ho hm results).trans (and_iff_right hf)
    rw [← hi]
    constructor
    · rintro ⟨st, hs, ht⟩
      rcases he with ⟨hfi, -⟩ | ⟨-, hr⟩
      · exact hfi
      · rw [hr] at hs
        cases hs
        cases ht
    · intro hfi
      rcases he with ⟨-, he⟩ | ⟨hn, -⟩
      · exact he
      · exact absurd hfi hn

/-! ## Two ranges of one CVE -/

open Small

/-- A CVE record on nginx, with a product entry per range of versions. -/
def nginxRecord (ranges : List (String × String)) : CVERecord where
  id := "CVE-1"
  description := ""
  publishedAt := clock 0
  modifiedAt := clock 0
  cvssScore := 0
  cvssVector := ""
  severity := "high"
  knownExploited := false
  sourceURL := ""
  products := ranges.map fun r =>
    { cpe23 := "cpe:2.3:a:nginx:nginx:*", part := "a", vendor := "nginx", product := "nginx", version := "*"
      versionStartIncluding := r.1, versionStartExcluding := "", versionEndIncluding := ""
      versionEndExcluding := r.2, vulnerable := true }
  references := []

def nginxObservation : ServiceObservation :=
  { observation "obs-1" "10.0.0.1" 80 with product := "nginx", version := "1.18.0" }

def nginxResult : ProbeResult where
  target := { name := "10.0.0.1", address := "10.0.0.1", groupIDs := [] }
  port := 80
  found := some (nginxObservation, [])
  completedAt := clock 10
  matchedAt := clock 10

def nginxTables (ranges : List (String × String)) : DB :=
  run (step server) (emptyTables [] true) [.upsertCVEs [nginxRecord ranges]]

def nginxScan : Scan := scan "s" ["10.0.0.1"] [80]

/-- The engine's run on the scan, with the one result. -/
def nginxRun (ranges : List (String × String)) : DB × Running :=
  runAlone ⟨server.host, fun _ => "constraint failed"⟩ (nginxTables ranges) nginxScan (clock 1)
    (clock 20) [nginxResult]

/-- The scan with its result. -/
def nginxProbed (ranges : List (String × String)) : Scan :=
  probed server.host (nginxTables ranges).scan nginxScan (clock 1) [nginxResult]

def apart : List (String × String) := [("1.0", "1.17"), ("1.17", "1.20")]
def overlapping : List (String × String) := [("1.0", "1.19"), ("1.17", "1.20")]

theorem cve_matched_once_apart : MatchedOnce server.host (nginxTables apart).scan nginxObservation ∧
    (save server.host (nginxTables apart) (nginxProbed apart)).1 = .ok () ∧
    ∃ st, storedStatus (nginxRun apart).1.scan "s" = some st ∧ st.terminal := by
  have hr : run (step server) (emptyTables [] true) [.upsertCVEs [nginxRecord apart]] =
      nginxTables apart := rfl
  obtain ⟨hm, hsa, he⟩ := cve_matched_once_iff server (fun _ => "constraint failed")
    (storeInv_empty [] true) [.upsertCVEs [nginxRecord apart]] hr
  have hd : StoreInv (nginxTables apart) := storeInv_run server (storeInv_empty [] true) _
  have ho : MatchedOnce server.host (nginxTables apart).scan nginxObservation :=
    (hm nginxObservation (clock 10)).mp (by unfold Keyed; decide +kernel)
  have ha : ∀ p ∈ foundAll [nginxResult], MatchedOnce server.host (nginxTables apart).scan p.1 := by
    intro p hp
    rw [mem_singleton.mp hp]
    exact ho
  have hs := (save_ok_iff hd.asset server.host (withoutMatches (nginxProbed apart))).mp (by decide +kernel)
  refine ⟨ho, ?_, ?_⟩
  · exact (hsa (nginxProbed apart) (foundAll [nginxResult]) rfl rfl hs.1 (fun hst => by cases hst)).mpr ha
  · exact (he nginxScan (clock 1) (clock 20) [nginxResult] rfl rfl hs.1).mpr ha

/-- One observation in two ranges of one CVE: two matches, which cannot be
saved, and a scan that stays running after its last probe. -/
theorem cve_matched_twice : ((matchObservation server.host (nginxTables overlapping).scan nginxObservation
      (clock 10)).map (·.cveID)) = ["CVE-1", "CVE-1"] ∧
    (save server.host (nginxTables overlapping) (nginxProbed overlapping)).1 =
      .error (.context "insert CVE match" (.constraint .cveMatches .primaryKey)) ∧
    (nginxRun overlapping).2 = .done ∧
    storedStatus (nginxRun overlapping).1.scan "s" = some .running := by
  decide +kernel

end Mossward.L4.CveMatching
