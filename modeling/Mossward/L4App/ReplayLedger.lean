import Mossward.L3Protocol.SqliteServer

/-!
# The workers' replay ledgers

The server hands a job out again when a lease lapses or the job comes back to
a worker. A worker records the identifier of each job it starts in a ledger
that survives restarts, and refuses an identifier it has recorded before.
`internal/workerclient/replay_ledger.go`, `internal/workerclient/verify_claim.go`.
A worker that polls leases a job and, at the same time, verifies and claims it;
a lease without a claim is a call of the server alone.

Results: `verifyAndClaim_eq`, `mem_ledger_iff`,
`lease_executable_unless_started`.
-/
namespace Mossward.L4.ReplayLedger

open Table Run L1.Rfc3339 Model L2.Schema List
open L2.WorkerJob L3.JobDispatch L3.SqliteServer

/-! ## The ledger -/

/-- A row of `claimed_jobs`. -/
structure ClaimRow where
  jobID : String
  workerID : String
  signingKeyID : String
  signatureDigest : List UInt8
  expiresAt : Time
  claimedAt : Time
deriving DecidableEq

inductive ClaimError
  | incomplete
  | jobReplay
  /-- the envelope does not verify -/
  | invalid (text : String)
deriving DecidableEq, Repr

/-- A worker's side: what it knows of itself, and SHA-256. -/
structure Client where
  identity : String → ScannerWorker
  digest : String → List UInt8

def claimRow (C : Client) (envelope : SignedWorkerJob) (claimedAt : Time) : ClaimRow where
  jobID := envelope.job.id
  workerID := envelope.job.workerID
  signingKeyID := envelope.keyID
  signatureDigest := C.digest envelope.signature
  expiresAt := envelope.job.expiresAt
  claimedAt := claimedAt

/-- Mirrors `Claim`, `internal/workerclient/replay_ledger.go:73-91`. -/
def claim (C : Client) (ledger : List ClaimRow) (envelope : SignedWorkerJob) (claimedAt : Time) :
    Except ClaimError Unit × List ClaimRow :=
  if envelope.job.id = "" || envelope.job.workerID = "" || envelope.keyID = "" || envelope.signature = "" ||
      envelope.job.expiresAt.isZero || claimedAt.isZero || !(claimedAt < envelope.job.expiresAt) then
    (.error .incomplete, ledger)
  else if ledger.any (fun c => c.jobID = envelope.job.id) then (.error .jobReplay, ledger)
  else (.ok (), ledger ++ [claimRow C envelope claimedAt])

/-- Mirrors `VerifyAndClaim`, `internal/workerclient/verify_claim.go:12-20`. -/
def verifyAndClaim (C : Client) (k : Key) (worker : ScannerWorker) (ledger : List ClaimRow)
    (envelope : SignedWorkerJob) (now : Time) : Except ClaimError Unit × List ClaimRow :=
  match verifyForWorker k envelope worker now with
  | .error text => (.error (.invalid text), ledger)
  | .ok () => claim C ledger envelope now

section
variable {C : Client} {k : Key} {worker : ScannerWorker} {ledger : List ClaimRow} {envelope : SignedWorkerJob}
  {now : Time}

theorem claim_complete (hno : Time.zero < now) (hva : verifyForWorker k envelope worker now = .ok ()) :
    (envelope.job.id = "" || envelope.job.workerID = "" || envelope.keyID = "" || envelope.signature = "" ||
      envelope.job.expiresAt.isZero || now.isZero || !(now < envelope.job.expiresAt)) = false := by
  unfold verifyForWorker validate at hva
  simp only [bind_eq_ok, require_eq_ok, Bool.and_eq_true, decide_eq_true_eq, validJobIdentities] at hva
  obtain ⟨_, hv, _, -, _, hi, _, -, _, ht, -⟩ := hva
  obtain ⟨⟨⟨⟨⟨⟨⟨hid, -⟩, hw⟩, -⟩, -⟩, -⟩, -⟩, -⟩ := hi
  have hex : now < envelope.job.expiresAt := ht.1.1.2
  have hke : envelope.keyID = k.keyID ∧ k.check envelope.job envelope.signature = .ok () := by
    unfold Key.verify at hv
    split at hv
    · cases hv
    split at hv
    · cases hv
    · rename_i hk
      exact ⟨not_not.mp hk, hv⟩
  have hs := k.check_ne _ _ hke.2
  have hz : 0 < now.ns := hno
  have hns : now.ns < envelope.job.expiresAt.ns := hex
  have he : envelope.job.expiresAt.isZero = false := by
    simp only [Time.isZero, decide_eq_false_iff_not]
    omega
  have hn : now.isZero = false := by
    simp only [Time.isZero, decide_eq_false_iff_not]
    omega
  simp [hid, hw, hke.1, k.keyID_ne, hs, he, hn, hex]

theorem verifyAndClaim_eq (C : Client) (ledger : List ClaimRow) (hn : Time.zero < now)
    (hv : verifyForWorker k envelope worker now = .ok ()) :
    verifyAndClaim C k worker ledger envelope now =
      if ledger.any (fun c => c.jobID = envelope.job.id) then (.error .jobReplay, ledger)
      else (.ok (), ledger ++ [claimRow C envelope now]) := by
  unfold verifyAndClaim claim
  rw [hv]
  simp only [claim_complete hn hv, Bool.false_eq_true, if_false]

theorem verifyAndClaim_cases : (∃ e, verifyAndClaim C k worker ledger envelope now = (.error e, ledger)) ∨
      verifyAndClaim C k worker ledger envelope now = (.ok (), ledger ++ [claimRow C envelope now]) := by
  unfold verifyAndClaim
  split
  · exact .inl ⟨_, rfl⟩
  unfold claim
  split
  · exact .inl ⟨_, rfl⟩
  · split
    · exact .inl ⟨_, rfl⟩
    · exact .inr rfl

end

/-! ## Server and workers together -/

structure World where
  db : DB
  ledgers : String → List ClaimRow

inductive WorldOp
  | server (op : Op)
  /-- the worker leases a job and starts it -/
  | poll (workerID : String) (tokenHash : TokenHash) (now leaseExpiresAt : Time)

inductive PollError
  | lease (cause : StoreError)
  | claim (cause : ClaimError)
deriving DecidableEq, Repr

/-- A worker's poll: the job it starts, and the tables and its ledger after. -/
def poll (S : Server) (C : Client) (db : DB) (ledger : List ClaimRow) (workerID : String)
    (tokenHash : TokenHash) (now leaseExpiresAt : Time) :
    Except PollError SignedWorkerJob × DB × List ClaimRow :=
  match Sqlite.leaseScannerWorkerJob db workerID tokenHash now leaseExpiresAt with
  | (.error e, db) => (.error (.lease e), db, ledger)
  | (.ok envelope, db) =>
    match verifyAndClaim C S.key (C.identity workerID) ledger envelope now with
    | (.error e, ledger) => (.error (.claim e), db, ledger)
    | (.ok (), ledger) => (.ok envelope, db, ledger)

def World.step (S : Server) (C : Client) (W : World) : WorldOp → World
  | .server op => { W with db := L3.SqliteServer.step S W.db op }
  | .poll workerID tokenHash now leaseExpiresAt =>
    let r := poll S C W.db (W.ledgers workerID) workerID tokenHash now leaseExpiresAt
    { db := r.2.1, ledgers := Function.update W.ledgers workerID r.2.2 }

/-- These workers enrolled, nothing else stored, and empty ledgers. -/
def emptyWorld (workers : List ScannerWorker) (dispatchEnabled : Bool) : World where
  db := emptyTables workers dispatchEnabled
  ledgers _ := []

/-- In the run, a poll of the worker started the job. -/
def Started (S : Server) (C : Client) (W : World) (ops : List WorldOp) (workerID jobID : String) : Prop :=
  ∃ ops₁ tokenHash now leaseExpiresAt ops₂, ops = ops₁ ++ .poll workerID tokenHash now leaseExpiresAt :: ops₂ ∧
    ∃ envelope, (poll S C (run (World.step S C) W ops₁).db ((run (World.step S C) W ops₁).ledgers workerID)
      workerID tokenHash now leaseExpiresAt).1 = .ok envelope ∧ envelope.job.id = jobID

section
variable {S : Server} {C : Client} {W : World}

theorem poll_ledger (S : Server) (C : Client) (db : DB) (ledger : List ClaimRow) (wid : String)
    (tok : TokenHash) (now exp : Time) (jid : String) :
    (∃ c ∈ (poll S C db ledger wid tok now exp).2.2, c.jobID = jid) ↔ (∃ c ∈ ledger, c.jobID = jid) ∨
        ∃ ev, (poll S C db ledger wid tok now exp).1 = .ok ev ∧ ev.job.id = jid := by
  unfold poll
  cases Sqlite.leaseScannerWorkerJob db wid tok now exp with
  | mk res db' =>
    cases res with
    | error e => simp
    | ok ev =>
      rcases @verifyAndClaim_cases C S.key (C.identity wid) ledger ev now with ⟨e, h⟩ | h
      · simp [h]
      · simp [h, claimRow]

theorem started_concat (ops : List WorldOp) (op : WorldOp) (wid jid : String) :
    Started S C W (ops ++ [op]) wid jid ↔ Started S C W ops wid jid ∨
      ∃ tok now exp1, op = .poll wid tok now exp1 ∧
        ∃ ev, (poll S C (run (World.step S C) W ops).db ((run (World.step S C) W ops).ledgers wid)
          wid tok now exp1).1 = .ok ev ∧ ev.job.id = jid := by
  constructor
  · rintro ⟨ops1, tok, now, exp, ops2, he, hs⟩
    rcases eq_nil_or_concat ops2 with rfl | ⟨ops3, last, rfl⟩
    · obtain ⟨rfl, ho⟩ := append_inj' he rfl
      exact .inr ⟨tok, now, exp, singleton_inj.mp ho, hs⟩
    have he' : ops ++ [op] = (ops1 ++ .poll wid tok now exp :: ops3) ++ [last] := by
      rw [he]
      simp
    obtain ⟨rfl, -⟩ := append_inj' he' rfl
    exact .inl ⟨ops1, tok, now, exp, ops3, rfl, hs⟩
  · rintro (⟨ops1, tok, now, exp, ops2, rfl, hs⟩ | ⟨tok, now, exp, rfl, hs⟩)
    · exact ⟨ops1, tok, now, exp, ops2 ++ [op], by simp, hs⟩
    · exact ⟨ops, tok, now, exp, [], rfl, hs⟩

/-- **A ledger holds the jobs that its worker has started**, and no others. -/
theorem mem_ledger_iff (hW : ∀ w, W.ledgers w = []) (ops : List WorldOp) (wid jid : String) :
    (∃ c ∈ (run (World.step S C) W ops).ledgers wid, c.jobID = jid) ↔ Started S C W ops wid jid := by
  induction ops using reverseRecOn with
  | nil =>
    refine iff_of_false ?_ ?_
    · simp [hW]
    · rintro ⟨ops1, tok, now, exp, ops2, he, -⟩
      cases ops1 <;> cases he
  | append_singleton ops op ih =>
    rw [run_concat, started_concat, ← ih]
    cases op with
    | server op => simp [World.step]
    | poll w tok now exp =>
      simp only [World.step]
      by_cases hw : w = wid
      · subst hw
        rw [Function.update_self, poll_ledger]
        refine or_congr_right ⟨fun h => ⟨tok, now, exp, rfl, h⟩, ?_⟩
        rintro ⟨_, _, _, he, h⟩
        cases he
        exact h
      rw [Function.update_of_ne (Ne.symm hw)]
      refine (or_iff_left ?_).symm
      rintro ⟨_, _, _, he, -⟩
      cases he
      exact hw rfl

end

/-- **Which leases can be executed.** In every run of the server and its
workers from empty tables and ledgers, a worker that is handed an envelope that
verifies for it can claim the job if it has not started the job before; if it
has, the claim is refused as a replay. -/
theorem lease_executable_unless_started (S : Server) (C : Client) (workers : List ScannerWorker)
    (dispatchEnabled : Bool) (ops : List WorldOp) {W : World}
    (hrun : run (World.step S C) (emptyWorld workers dispatchEnabled) ops = W) {workerID : String}
    {tokenHash : TokenHash} {now leaseExpiresAt : Time} {envelope : SignedWorkerJob} (hnow : Time.zero < now)
    (hlease : (Sqlite.leaseScannerWorkerJob W.db workerID tokenHash now leaseExpiresAt).1 = .ok envelope)
    (hvalid : verifyForWorker S.key envelope (C.identity workerID) now = .ok ()) :
    (¬ Started S C (emptyWorld workers dispatchEnabled) ops workerID envelope.job.id →
      (poll S C W.db (W.ledgers workerID) workerID tokenHash now leaseExpiresAt).1 = .ok envelope) ∧
    (Started S C (emptyWorld workers dispatchEnabled) ops workerID envelope.job.id →
      (poll S C W.db (W.ledgers workerID) workerID tokenHash now leaseExpiresAt).1 =
        .error (.claim .jobReplay)) := by
  have hle := @mem_ledger_iff S C (emptyWorld workers dispatchEnabled) (fun _ => rfl) ops workerID
  rw [hrun] at hle
  rw [← hle]
  unfold poll
  cases hl : Sqlite.leaseScannerWorkerJob W.db workerID tokenHash now leaseExpiresAt with
  | mk res db' =>
    rw [hl] at hlease
    cases hlease
    simp only [verifyAndClaim_eq C (W.ledgers workerID) hnow hvalid]
    constructor
    · intro hn
      rw [if_neg]
      rw [any_eq_true]
      rintro ⟨c, hc, hi⟩
      exact hn ⟨c, hc, of_decide_eq_true hi⟩
    · rintro ⟨c, hc, hi⟩
      rw [if_pos]
      exact any_eq_true.mpr ⟨c, hc, decide_eq_true hi⟩

/-! ## A lease that lapses -/

open Small

def smallClient : Client where
  identity := worker
  digest _ := []

def smallWorkers : List ScannerWorker := [worker "worker-1", worker "worker-2"]

def smallWorld (ops : List WorldOp) : World :=
  run (World.step server smallClient) (emptyWorld smallWorkers true) ops

/-- A job for the first worker. -/
def smallJob : SignedWorkerJob := envelope "job-1" "worker-1" "scan-1" ["10.0.0.1"] [22]

def created : List WorldOp := [.server (.create smallJob (clock 0))]

/-- The worker starts the job, and its lease lapses. -/
def lapsed : List WorldOp := created ++ [.poll "worker-1" [1] (clock 0) (clock 60)]

/-- The job then goes to the second worker, lapses there, and comes back. -/
def returned : List WorldOp :=
  lapsed ++ [.server (.reassignExpired "job-1" (clock 100)),
    .poll "worker-2" [2] (clock 110) (clock 160),
    .server (.reassignExpired "job-1" (clock 200))]

/-- The first worker polls again. -/
def repoll (ops : List WorldOp) (now until_ : Int) : Except PollError SignedWorkerJob :=
  (poll server smallClient (smallWorld ops).db ((smallWorld ops).ledgers "worker-1") "worker-1" [3]
    (clock now) (clock until_)).1

theorem lease_executable_first : repoll created 0 60 = .ok smallJob := by
  have hl : (Sqlite.leaseScannerWorkerJob (smallWorld created).db "worker-1" [3] (clock 0)
      (clock 60)).1 = .ok smallJob := by decide +kernel
  refine (lease_executable_unless_started server smallClient smallWorkers true created rfl
    (by decide +kernel) hl (by decide +kernel)).1 ?_
  rw [← mem_ledger_iff fun _ => rfl]
  decide +kernel

/-- The envelope that the worker is handed again is valid, and the worker
refuses it: after a lapsed lease, and after the job went to another worker and
came back. -/
theorem lease_not_executable :
    ((Sqlite.leaseScannerWorkerJob (smallWorld lapsed).db "worker-1" [3] (clock 120)
        (clock 180)).1 = .ok smallJob ∧
      verifyForWorker server.key smallJob (smallClient.identity "worker-1") (clock 120) = .ok () ∧
      repoll lapsed 120 180 = .error (.claim .jobReplay)) ∧
    ((Sqlite.leaseScannerWorkerJob (smallWorld returned).db "worker-1" [3] (clock 210)
        (clock 260)).1.toOption.any (fun e => decide (verifyForWorker server.key e
          (smallClient.identity "worker-1") (clock 210) = .ok ())) ∧
      repoll returned 210 260 = .error (.claim .jobReplay)) := by
  decide +kernel

end Mossward.L4.ReplayLedger
