import Mossward.L2Store.ScanStore

/-!
# Analysts' work on findings

A finding carries a workflow status and an assignee, and may have exceptions.
All three belong to analysts and not to scans, yet the first two are columns of
the row that a save writes anew, and exceptions are deleted with their finding.
`internal/store/finding_workflow.go`, `internal/store/reporting.go`.

Results: `mem_findings_replaced`, `mem_exceptions_replaced`,
`exceptions_kept_iff`.
-/
namespace Mossward.L2.FindingWorkflow

open Table L1.Rfc3339 Model L2.Schema L2.Intelligence
open L2.ScanStore

/-! ## Analysts' calls -/

/-- The accounts: those that are active, and all that are stored. -/
structure Users where
  active : String → Bool
  stored : String → Bool

structure FindingWorkflowUpdate where
  status : FindingStatus
  assignedTo : String

def validFindingStatus (s : FindingStatus) : Bool := s = .open || s = .inProgress || s = .resolved

def workflowSet (update : FindingWorkflowUpdate) (now : Time) (r : FindingRow) : FindingRow :=
  { r with finding := { r.finding with
      status := update.status, assignedTo := update.assignedTo, workflowUpdatedAt := some now } }

/-- Mirrors `UpdateFindingWorkflow`, `internal/store/finding_workflow.go:32-60`. -/
def updateFindingWorkflow (users : Users) (db : DB) (id : String) (update : FindingWorkflowUpdate)
    (now : Time) : Result Unit :=
  if !validFindingStatus update.status then (.error .invalidFindingWorkflow, db)
  else if update.assignedTo ≠ "" && !users.active update.assignedTo then
    (.error .invalidFindingWorkflow, db)
  else if !db.scan.findings.any (fun r => r.finding.id = id) then (.error .findingNotFound, db)
  else
    (.ok (), { db with scan := { db.scan with
      findings := updateWhere (fun r => r.finding.id = id) (workflowSet update now) db.scan.findings } })

/-- `CHECK(status IN ('pending','approved','rejected'))`. -/
def exceptionStatusAllowed : FindingExceptionStatus → Bool
  | .other _ => false
  | _ => true

/-- The row of a new exception: not reviewed, and no reminder sent. -/
def exceptionRow (value : FindingException) : FindingException :=
  { value with approvedBy := "", lastReminderAt := none }

/-- Mirrors `SaveFindingException`, `internal/store/reporting.go:34-60`. -/
def saveFindingException (users : Users) (db : DB) (value : FindingException) : Result Unit :=
  if value.reminderDays < 1 || 365 < value.reminderDays || value.reason = "" ||
      value.expiresAt.any (· ≤ value.createdAt) then (.error .invalidFindingWorkflow, db)
  else
    match (db.scan.findings.find? fun r => r.finding.id = value.findingID).bind
        fun r => storedStatus db.scan r.scanID with
    | none => (.error .findingNotFound, db)
    | some status =>
      if status ≠ .completed then (.error .invalidFindingWorkflow, db)
      else if !exceptionStatusAllowed value.status then
        (.error (.context "save finding exception" (.constraint .findingExceptions .check)), db)
      else if db.scan.exceptions.any (fun e => e.id = value.id) then
        (.error (.context "save finding exception" (.constraint .findingExceptions .primaryKey)), db)
      else if !users.stored value.requestedBy then
        (.error (.context "save finding exception" (.constraint .findingExceptions .foreignKey)), db)
      else
        (.ok (), { db with scan := { db.scan with
          exceptions := db.scan.exceptions ++ [exceptionRow value] } })

/-! ## What a save leaves -/

section
variable {t : ScanTables} {scan : Scan}

theorem mem_findings_replaced {r : FindingRow} : r ∈ (replaced t scan).findings ↔
      (r ∈ t.findings ∧ r.scanID ≠ scan.id) ∨ ∃ f ∈ scan.findings, r = findingRow scan f := by
  have hs : (replaced t scan).findings =
      (t.findings.filter fun r => r.scanID ≠ scan.id) ++ scan.findings.map (findingRow scan) := rfl
  rw [hs, List.mem_append, List.mem_filter, List.mem_map, decide_eq_true_eq]
  simp only [eq_comm]

theorem mem_exceptions_replaced {e : FindingException} : e ∈ (replaced t scan).exceptions ↔
      e ∈ t.exceptions ∧ ∀ r ∈ t.findings, r.scanID = scan.id → r.finding.id ≠ e.findingID := by
  have hf : (replaced t scan).exceptions = t.exceptions.filter fun e =>
      !t.findings.any fun r => r.scanID = scan.id && r.finding.id = e.findingID := rfl
  rw [hf]
  simp

theorem exceptions_kept_iff {h : Host} {db db' : DB} (hs : save h db scan = (.ok (), db')) {r : FindingRow}
    (hr : r ∈ db.scan.findings) (hsc : r.scanID = scan.id) :
    (∀ e ∈ db.scan.exceptions, e.findingID = r.finding.id → e ∈ db'.scan.exceptions) ↔
      ∀ e ∈ db.scan.exceptions, e.findingID ≠ r.finding.id := by
  rcases save_cases hs with ⟨e, her, -⟩ | ⟨-, -, a, -, rfl⟩
  · cases her
  refine forall₂_congr fun e he => ?_
  constructor
  · intro hk hi
    exact (mem_exceptions_replaced.mp (hk hi)).2 r hr hsc hi.symm
  · exact fun hn hi => absurd hi hn

end

end Mossward.L2.FindingWorkflow
