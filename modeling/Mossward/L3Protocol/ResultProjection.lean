import Mossward.L3Protocol.SqliteServer

/-!
# Accepted results and their projection

Evidence identifiers are checked within one batch, while observations and
findings are stored under their identifier alone, over all jobs and scans. A
result is accepted before it is projected, so evidence that cannot be stored
shows only afterwards.

Result: `accepted_result_projects_iff`.
-/
namespace Mossward.L3.ResultProjection

open Table Run L1.Rfc3339 Model
open L2.Schema L2.WorkerJob L2.WorkerEvidence L2.Intelligence
open L2.Projection L3.SqliteServer

/-- **An accepted result is projected** exactly when the job and its scan can
be read and the evidence, of all its batches together, is projectable. -/
theorem accepted_result_projects_iff (S : Server) {db : DB} (hdb : StoreInv db) (ops : List Op)
    {receipt : WorkerJobResultReceipt} {tokenHash : TokenHash} {now : Time} {db' : DB}
    (hacc : Sqlite.acceptResult (run (step S) db ops) receipt tokenHash now = (.ok .accepted, db'))
    (wall : ServiceObservation → Time) :
    (completeScannerWorkerJob S.host wall (run (step S) db ops) receipt tokenHash now).1 = .ok () ↔
      ∃ job scan, Loads db' receipt job scan ∧ Projectable S.host db' receipt job.job.scanID := by
  rcases complete_cases S.host wall (run (step S) db ops) receipt tokenHash now with
    ⟨e, he, -⟩ | ⟨hr, -⟩ | ⟨db1, ha1, h⟩
  · rw [he] at hacc
    cases hacc
  · rw [hr] at hacc
    cases hacc
  · rw [ha1.result] at hacc
    cases hacc
    rw [h]
    exact project_ok_iff (ha1.storeInv (storeInv_run S hdb ops)) S.host wall receipt

open Small

def afterRun (ops : List Op) : DB := run (step server) (tables [worker "worker-1"]) ops

/-- The accepting transaction of the report. -/
def acceptAfter (ops : List Op) (scanID : String) : Result Acceptance :=
  Sqlite.acceptResult (afterRun ops) (successOf scanID) [1] (clock 31)

/-- The whole report. -/
def completeAfter (ops : List Op) (scanID : String) : Result Unit :=
  completeScannerWorkerJob server.host (fun _ => clock 31) (afterRun ops) (successOf scanID) [1]
    (clock 31)

theorem accepted_result_projects_two_batches :
    (acceptAfter (evidenceRun "s" "obs-1" "obs-2") "s").1 = .ok .accepted ∧
    ∃ job scan, Loads (acceptAfter (evidenceRun "s" "obs-1" "obs-2") "s").2 (successOf "s") job scan ∧
      Projectable server.host (acceptAfter (evidenceRun "s" "obs-1" "obs-2") "s").2 (successOf "s")
        job.job.scanID := by
  have ha : (acceptAfter (evidenceRun "s" "obs-1" "obs-2") "s").1 = .ok .accepted := by decide +kernel
  refine ⟨ha, ?_⟩
  exact (accepted_result_projects_iff server (storeInv_empty [worker "worker-1"] true)
    (evidenceRun "s" "obs-1" "obs-2") (Prod.ext ha rfl) fun _ => clock 31).mp (by decide +kernel)

/-- The failure of a projection on an observation's identifier. -/
def observationTaken : StoreError :=
  .context "save projected scanner-worker scan"
    (.context "insert service observation" (.constraint .serviceObservations .primaryKey))

/-- Two batches of one job with one observation identifier are accepted, and so
are two scans with one: the results are accepted and cannot be projected. -/
theorem accepted_result_not_projected :
    ((acceptAfter (evidenceRun "s" "obs-1" "obs-1") "s").1 = .ok .accepted ∧
      (completeAfter (evidenceRun "s" "obs-1" "obs-1") "s").1 = .error observationTaken) ∧
    ((acceptAfter (evidenceRun "s" "obs-1" "obs-2" ++
          [.complete (successOf "s") [1] (clock 31) fun _ => clock 31] ++
          evidenceRun "t" "obs-2" "obs-3") "t").1 = .ok .accepted ∧
      (completeAfter (evidenceRun "s" "obs-1" "obs-2" ++
          [.complete (successOf "s") [1] (clock 31) fun _ => clock 31] ++
          evidenceRun "t" "obs-2" "obs-3") "t").1 = .error observationTaken) := by
  decide +kernel

end Mossward.L3.ResultProjection
