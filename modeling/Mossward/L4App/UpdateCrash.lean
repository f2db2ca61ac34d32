import Mossward.L4App.AgentUpdate

/-!
# An update that is cut off (`internal/agentupdate`)

The calls of one update are `SaveTransaction` with the prepared transaction,
`Activate`, `ConfirmHealthy` and `Recover`. A history is a list of calls in any
order, each cut off after some of its actions. The files at the start are the
executable, the copy of it and the candidate, as the transaction describes them,
and no record or a record of an earlier update that is over. JSON is read back
as it was written and no part of a record is a record (`Lawful`).

Result: `update_crash_safe`.
-/
namespace Mossward.L4.UpdateCrash

open Run Option
open L4.AgentUpdate

/-- What `json` does with records. It fails on times it cannot write, whatever
the state. -/
structure Lawful (env : Env) : Prop where
  read : ∀ t data, env.marshal t = some data → env.unmarshal data = some t
  part : ∀ t data n, env.marshal t = some data → n < data.length → env.unmarshal (data.take n) = none
  state : ∀ t s data, env.marshal t = some data → s.valid = true →
    ∃ data', env.marshal { t with state := s } = some data'

/-- One update: its transaction, and the executables before and after it. -/
structure Update where
  transaction : Transaction
  previous : Bytes
  target : Bytes

/-- The transaction in one of its states. -/
def Update.record (u : Update) (s : TransactionState) : Transaction := { u.transaction with state := s }

/-- The transaction describes both executables, and its copy is where
`PreserveKnownGood` puts it. -/
structure Update.Described (u : Update) (env : Env) : Prop where
  file : u.transaction.previous.file = "known-good-" ++ u.transaction.previous.version
  previousSize : (u.previous.length : Int) = u.transaction.previous.size
  previousDigest : env.sha256 u.previous = (hexDecode u.transaction.previous.sha256.toList).1
  targetSize : (u.target.length : Int) = u.transaction.targetSize
  targetDigest : env.sha256 u.target = (hexDecode u.transaction.targetSHA256.toList).1

def recordFile : File := .state transactionFileName

/-- A record that no call acts on. -/
def Over (t : Transaction) : Prop := t.state ≠ .awaitingHealth ∧ t.state ≠ .rollback

structure Update.Start (u : Update) (env : Env) (d : Disk) : Prop where
  executable : d .executable = some u.previous
  knownGood : d (.state u.transaction.previous.file) = some u.previous
  candidate : d (candidateFile u.transaction.targetVersion) = some u.target
  record : ∀ data, d recordFile = some data → ∃ t, env.marshal t = some data ∧ Over t

/-! ## Calls -/

inductive Call
  | save
  | activate
  | confirmHealthy (runningVersion : String) (now : Int)
  | recover (now : Int)

/-- Whether the call may commit: only a confirmation of the target version
before the deadline does. -/
def Call.MayCommit (u : Update) : Call → Prop
  | .confirmHealthy runningVersion now => u.transaction.targetVersion = runningVersion ∧
    now < u.transaction.healthDeadline
  | _ => False

/-- The disk when the call is cut off after `n` actions. -/
def cutCall (env : Env) (u : Update) (d : Disk) (n : Nat) : Call → Disk
  | .save => (saveTransaction env (u.record .prepared)).cut d n
  | .activate => (activate env (candidateFile u.transaction.targetVersion) (u.record .prepared)).cut d n
  | .confirmHealthy runningVersion now => (confirmHealthy env runningVersion now).cut d n
  | .recover now => (recover env now).cut d n

def step (env : Env) (u : Update) (d : Disk) (op : Call × Nat) : Disk := cutCall env u d op.2 op.1

/-- The record as it was written. -/
def stored (env : Env) (d : Disk) : Option Transaction := (d recordFile).bind env.unmarshal

def Committed (env : Env) (d : Disk) : Prop := ∃ t, stored env d = some t ∧ t.state = .committed

/-! ## Invariant -/

/-- What the record file holds. -/
inductive RecordInv (env : Env) (u : Update) (d : Disk) : Prop
  | missing (hrecord : d recordFile = none) (hprevious : d .executable = some u.previous)
  | earlier (t : Transaction) (data : Bytes) (hdata : env.marshal t = some data) (hrecord : d recordFile = some data)
      (hover : Over t) (hprevious : d .executable = some u.previous)
  | ours (s : TransactionState) (data : Bytes) (hvalid : (u.record s).validate = true)
      (hdata : env.marshal (u.record s) = some data) (hrecord : d recordFile = some data)
      (hback : s = .rolledBack → d .executable = some u.previous)

structure Inv (env : Env) (u : Update) (d : Disk) : Prop where
  knownGood : d (.state u.transaction.previous.file) = some u.previous
  candidate : d (candidateFile u.transaction.targetVersion) = some u.target
  installed : d .executable = some u.previous ∨ d .executable = some u.target
  record : RecordInv env u d

/-- What a call may leave behind from `d` on; `granted` is whether it may
commit. -/
structure Keeps (env : Env) (u : Update) (granted : Prop) (d d' : Disk) : Prop where
  inv : Inv env u d'
  committed : Committed env d' → Committed env d ∨ granted

section
variable {env : Env} {u : Update} {granted : Prop} {d d' : Disk}

theorem Inv.congr (h : Inv env u d) (hsa : ∀ f, (∀ kind, f ≠ .temporary kind) → d' f = d f) : Inv env u d' := by
  have he : d' .executable = d .executable := hsa _ (by simp)
  have hr : d' recordFile = d recordFile := hsa _ (by simp [recordFile])
  refine ⟨?_, ?_, ?_, ?_⟩
  · rw [hsa _ (by simp)]
    exact h.knownGood
  · rw [hsa _ (by simp [candidateFile])]
    exact h.candidate
  · rw [he]
    exact h.installed
  · cases h.record with
    | missing h1 h2 => exact .missing (hr.trans h1) (he.trans h2)
    | earlier t data h1 h2 h3 h4 => exact .earlier t data h1 (hr.trans h2) h3 (he.trans h4)
    | ours s data h1 h2 h3 h4 => exact .ours s data h1 h2 (hr.trans h3) fun hs => he.trans (h4 hs)

theorem Keeps.congr {d0 : Disk} (h : Keeps env u granted d0 d)
    (hs : ∀ f, (∀ kind, f ≠ .temporary kind) → d' f = d f) : Keeps env u granted d0 d' := by
  refine ⟨h.inv.congr hs, ?_⟩
  have hst : stored env d' = stored env d := by
    rw [stored, stored, hs _ (by simp [recordFile])]
  intro ⟨t, ht, hsta⟩
  exact h.committed ⟨t, hst ▸ ht, hsta⟩

theorem Keeps.agree {d0 : Disk} {kind : Temporary} (h : Keeps env u granted d0 d) (ha : AgreeExcept kind d d') :
    Keeps env u granted d0 d' :=
  h.congr fun f hf => ha f (hf kind)

theorem Keeps.refl (h : Inv env u d) : Keeps env u granted d d := ⟨h, .inl⟩

theorem name_ne (hu : u.Described env) : (File.state u.transaction.previous.file) ≠ recordFile := by
  rw [hu.file, recordFile, transactionFileName]
  intro h
  have hh := congrArg (fun s : String => s.toList.head?) (File.state.inj h)
  simp at hh

variable {s : TransactionState} {data : Bytes}

theorem Inv.saved (h : Inv env u d) (hu : u.Described env)
    (hv : (u.record s).validate = true) (hd : env.marshal (u.record s) = some data)
    (hb : s = .rolledBack → d .executable = some u.previous) (hd' : Renamed .transaction recordFile data d d') :
    Inv env u d' := by
  have he : d' .executable = d .executable := hd'.others _ (by simp [recordFile]) (by simp)
  refine ⟨?_, ?_, ?_, ?_⟩
  · rw [hd'.others _ (name_ne hu) (by simp)]
    exact h.knownGood
  · rw [hd'.others _ (by simp [candidateFile, recordFile]) (by simp [candidateFile])]
    exact h.candidate
  · rw [he]
    exact h.installed
  · exact .ours s data hv hd hd'.moved fun hs => he.trans (hb hs)

theorem stored_renamed (hl : Lawful env) {t : Transaction} (hd : env.marshal t = some data)
    (hd' : Renamed .transaction recordFile data d d') : stored env d' = some t := by
  rw [stored, hd'.moved]
  exact hl.read t data hd

theorem Keeps.saved {d0 : Disk} (hl : Lawful env) (h : Keeps env u granted d0 d) (hu : u.Described env)
    (hv : (u.record s).validate = true)
    (hd : env.marshal (u.record s) = some data) (hb : s = .rolledBack → d .executable = some u.previous)
    (hg : s = .committed → granted) (hd' : Renamed .transaction recordFile data d d') :
    Keeps env u granted d0 d' := by
  refine ⟨h.inv.saved hu hv hd hb hd', ?_⟩
  intro ⟨t, ht, hs⟩
  rw [stored_renamed hl hd hd'] at ht
  cases ht
  exact .inr (hg hs)

theorem Keeps.installed {d0 : Disk} {kind : Temporary} {body : Bytes}
    (h : Keeps env u granted d0 d) (hv : (u.record s).validate = true) (hd : env.marshal (u.record s) = some data)
    (hr : d recordFile = some data) (hs : s ≠ .rolledBack) (hc : body = u.previous ∨ body = u.target)
    (hd' : Renamed kind .executable body d d') : Keeps env u granted d0 d' := by
  have hsa : d' recordFile = d recordFile := hd'.others _ (by simp [recordFile]) (by simp [recordFile])
  refine ⟨⟨?_, ?_, ?_, ?_⟩, ?_⟩
  · rw [hd'.others _ (by simp) (by simp)]
    exact h.inv.knownGood
  · rw [hd'.others _ (by simp [candidateFile]) (by simp [candidateFile])]
    exact h.inv.candidate
  · rw [hd'.moved]
    rcases hc with rfl | rfl
    · exact .inl rfl
    · exact .inr rfl
  · exact .ours s data hv hd (hsa.trans hr) fun he => absurd he hs
  · intro ⟨t, ht, hst⟩
    rw [stored, hsa] at ht
    exact h.committed ⟨t, ht, hst⟩

end

/-! ## One call -/

section
variable {env : Env} {u : Update} {granted : Prop} {d d₀ : Disk}

variable {t : Transaction} {data : Bytes}

theorem decode_eq (hl : Lawful env) {t' : Transaction} (hd : env.marshal t = some data)
    (h : decodeTransaction env data = .ok t') : t' = t := by
  unfold decodeTransaction at h
  rcases Nat.lt_or_ge maximumTransactionBytes data.length with hlo | hs
  · rw [hl.part t data _ hd hlo] at h
    cases h
  rw [List.take_of_length_le hs, hl.read t data hd] at h
  dsimp only at h
  split at h
  · cases h
    rfl
  · cases h

theorem decode_fits (hl : Lawful env) (hd : env.marshal t = some data)
    (hv : t.validate = true) (hf : data.length ≤ maximumTransactionBytes) :
    decodeTransaction env data = .ok t := by
  unfold decodeTransaction
  rw [List.take_of_length_le hf, hl.read t data hd]
  exact if_pos hv

variable {s : TransactionState}

theorem validate_record {s' : TransactionState} (h : (u.record s).validate = true) (hs' : s'.valid = true) :
    (u.record s').validate = true := by
  simp only [Transaction.validate, Bool.and_eq_true] at h ⊢
  tauto

section
variable (hl : Lawful env)
include hl

theorem Keeps.save (hu : u.Described env) (h : Keeps env u granted d₀ d)
    (hb : s = .rolledBack → d .executable = some u.previous) (hg : s = .committed → granted)
    {Q : Unit → Disk → Prop} {E : UpdateError → Disk → Prop}
    (hQ : ∀ data d', (u.record s).validate = true → env.marshal (u.record s) = some data →
      Renamed .transaction recordFile data d d' → Keeps env u granted d₀ d' → Q () d')
    (hE : ∀ e, (u.record s).validate = false ∨ env.marshal (u.record s) = none → E e d) :
    Runs perform (Keeps env u granted d₀) (saveTransaction env (u.record s)) d Q E := by
  refine Runs.save (fun d' hd' => h.agree hd') ?_ hE
  intro data d' hv hd hd'
  have hk := h.saved hl hu hv hd hb hg hd'
  exact ⟨hk, hQ data d' hv hd hd' hk⟩

theorem activate_runs (hu : u.Described env) (hi : Inv env u d) : Runs perform (Keeps env u granted d)
      (activate env (candidateFile u.transaction.targetVersion) (u.record .prepared)) d
      (fun o d' => o = .restartRequired ∧ d' .executable = some u.target) (fun _ _ => True) := by
  have hs : Keeps env u granted d d := Keeps.refl hi
  refine Runs.bind (Runs.read hs ?_)
  split
  · exact Runs.fail hs trivial
  refine Runs.bind (Runs.read hs ?_)
  rw [hi.candidate]
  dsimp only
  rw [if_neg (by simp [Update.record, hu.targetSize])]
  refine Runs.bind (Runs.create (fun d' hd' => hs.agree hd') fun d1 hd1 he => ?_)
  have hk1 := hs.agree hd1
  refine Runs.bind (Runs.copyWhole hk1.inv.candidate he hu.targetSize hu.targetDigest
    (fun d' hd' => hk1.agree hd') fun d2 hd2 hc => ?_)
  have hk2 := hk1.agree hd2
  refine Runs.bind (Keeps.save (s := .awaitingHealth) hl hu hk2 (by simp) (by simp) ?_ fun _ _ => trivial)
  intro data d3 hv hd hd3 hk3
  -- the record is replaced before the executable
  have ht : d3 (.temporary .activate) = some u.target := by
    rw [hd3.others _ (by simp [recordFile]) (by simp)]
    exact hc
  refine Runs.bind (Runs.rename ht (by simp) hk3 fun d4 hd4 => ?_)
  have hk4 := hk3.installed hv hd hd3.moved (by simp) (.inr rfl) hd4
  exact ⟨hk4, Runs.pure hk4 ⟨rfl, hd4.moved⟩⟩

theorem restore_runs (hu : u.Described env) (h : Keeps env u granted d₀ d)
    (hv : (u.record s).validate = true) (hd : env.marshal (u.record s) = some data)
    {E : UpdateError → Disk → Prop} :
    Runs perform (Keeps env u granted d₀) (restoreKnownGood env (u.record s)) d
      (fun o d' => o = .restartRequired ∧ d' .executable = some u.previous ∧
        ∃ t, stored env d' = some t ∧ t.state = .rolledBack) E := by
  -- in the other states the record can be written as well
  have hw : ∀ s' : TransactionState, s'.valid = true → ∀ {d' : Disk} (e : UpdateError),
      (u.record s').validate = false ∨ env.marshal (u.record s') = none → E e d' := by
    intro s' hs' d' e he
    obtain ⟨data', hda'⟩ := hl.state (u.record s) s' data hd hs'
    rcases he with he | he
    · rw [validate_record hv hs'] at he
      cases he
    · rw [show u.record s' = { u.record s with state := s' } from rfl, hda'] at he
      cases he
  refine Runs.bind (Runs.create (fun d' hd' => h.agree hd') fun d1 hd1 hem => ?_)
  have hk1 := h.agree hd1
  refine Runs.bind (Runs.copyWhole hk1.inv.knownGood hem hu.previousSize hu.previousDigest
    (fun d' hd' => hk1.agree hd') fun d2 hd2 hc => ?_)
  have hk2 := hk1.agree hd2
  refine Runs.bind (Keeps.save (s := .rollback) hl hu hk2 (by simp) (by simp) ?_ (hw .rollback rfl))
  intro data3 d3 hv3 hd3 hd₃ hk3
  have ht : d3 (.temporary .rollback) = some u.previous := by
    rw [hd₃.others _ (by simp [recordFile]) (by simp)]
    exact hc
  refine Runs.bind (Runs.rename ht (by simp) hk3 fun d4 hd4 => ?_)
  have hk4 := hk3.installed hv3 hd3 hd₃.moved (by simp) (.inl rfl) hd4
  refine ⟨hk4, Runs.bind (Keeps.save (s := .rolledBack) hl hu hk4 (fun _ => hd4.moved) (by simp) ?_
    (hw .rolledBack rfl))⟩
  intro data5 d5 hv5 hd5 hd₅ hk5
  refine Runs.pure hk5 ⟨rfl, ?_, _, stored_renamed hl hd5 hd₅, rfl⟩
  rw [hd₅.others _ (by simp [recordFile]) (by simp)]
  exact hd4.moved

theorem load_cases (hi : Inv env u d)
    (hr : d recordFile = some data) (hde : decodeTransaction env data = .ok t) :
    stored env d = some t ∧ (Over t ∨ ∃ s, t = u.record s ∧ (u.record s).validate = true ∧
      env.marshal (u.record s) = some data) := by
  cases hi.record with
  | missing hn _ =>
    rw [hn] at hr
    cases hr
  | earlier t' data' hd hr' ho _ =>
    obtain rfl : data' = data := some.inj (hr'.symm.trans hr)
    obtain rfl := decode_eq hl hd hde
    refine ⟨?_, .inl ho⟩
    rw [stored, hr]
    exact hl.read _ _ hd
  | ours s data' hv hd hr' _ =>
    obtain rfl : data' = data := some.inj (hr'.symm.trans hr)
    obtain rfl := decode_eq hl hd hde
    refine ⟨?_, .inr ⟨s, rfl, hv, hd⟩⟩
    rw [stored, hr]
    exact hl.read _ _ hd

theorem recover_runs (hu : u.Described env) (hin : Inv env u d) (now : Int) :
    Runs perform (Keeps env u granted d) (recover env now) d
      (fun o d' => (o = .done ∧ ∀ t, stored env d = some t → t.requiresRollback now = false) ∨
        (o = .restartRequired ∧ d' .executable = some u.previous ∧ ∃ t, stored env d' = some t ∧
          t.state = .rolledBack))
      (fun e _ => ∃ data, d recordFile = some data ∧ decodeTransaction env data = .error e) := by
  have hs : Keeps env u granted d d := Keeps.refl hin
  refine Runs.bind (Runs.load hs ?_ ?_ fun data e hr hd => ⟨data, hr, hd⟩)
  · intro hn
    refine Runs.pure hs (.inl ⟨rfl, fun t ht => ?_⟩)
    rw [stored, recordFile, hn] at ht
    cases ht
  · intro data t hr hd
    obtain ⟨hst, hc⟩ := load_cases hl hin hr hd
    dsimp only
    split
    · rename_i hid
      refine Runs.pure hs (.inl ⟨rfl, fun t' ht' => ?_⟩)
      rw [hst] at ht'
      cases ht'
      exact hid
    rename_i hp
    rcases hc with ho | ⟨s, rfl, hv, hda⟩
    · exact absurd (by simp [Transaction.requiresRollback, ho.1, ho.2]) hp
    refine Runs.bind (Runs.read hs ?_)
    rcases hin.installed with hi | hi
    · rw [hi]
      exact (restore_runs hl hu hs hv hda).imp (fun _ _ h => .inr h) fun _ _ h => h
    · rw [hi]
      exact (restore_runs hl hu hs hv hda).imp (fun _ _ h => .inr h) fun _ _ h => h

theorem confirm_runs (hu : u.Described env) (hi : Inv env u d) (ver : String) (now : Int) :
    Runs perform (Keeps env u (u.transaction.targetVersion = ver ∧ now < u.transaction.healthDeadline) d)
      (confirmHealthy env ver now) d (fun _ _ => True) (fun _ _ => True) := by
  have hs : Keeps env u (u.transaction.targetVersion = ver ∧ now < u.transaction.healthDeadline) d d :=
    Keeps.refl hi
  refine Runs.bind (Runs.load hs (fun _ => Runs.pure hs trivial) ?_ fun _ _ _ _ => trivial)
  intro data t hr hde
  obtain ⟨-, hc⟩ := load_cases hl hi hr hde
  dsimp only
  split
  · exact Runs.pure hs trivial
  rename_i ha
  rcases hc with ho | ⟨s, rfl, -, -⟩
  · exact absurd ho.1 ha
  split
  · exact Runs.fail hs trivial
  rename_i hv
  split
  · refine Runs.bind (Runs.ignore (Keeps.save (s := .rollback) hl hu hs (by simp) (by simp) ?_ ?_))
    · intro data' d' _ _ _ hk
      exact Runs.fail hk trivial
    · intro e _
      exact Runs.fail hs trivial
  · rename_i hd
    refine Keeps.save (s := .committed) hl hu hs (by simp) (fun _ => ⟨not_ne_iff.mp hv, ?_⟩)
      (fun _ _ _ _ _ _ => trivial) fun _ _ => trivial
    exact not_le.mp hd

/-! ## Histories -/

theorem keeps_step (hu : u.Described env) (hi : Inv env u d) (op : Call × Nat) :
    Keeps env u (op.1.MayCommit u) d (step env u d op) := by
  obtain ⟨call, n⟩ := op
  cases call with
  | save =>
    exact (Keeps.save (s := .prepared) (Q := fun _ _ => True) (E := fun _ _ => True) hl hu (Keeps.refl hi) (by simp)
      (by simp) (fun _ _ _ _ _ _ => trivial) fun _ _ => trivial).during n
  | activate => exact (activate_runs hl hu hi).during n
  | confirmHealthy ver now => exact (confirm_runs hl hu hi ver now).during n
  | recover now => exact (recover_runs hl hu hi now).during n

end

theorem Update.Start.inv (h : u.Start env d) : Inv env u d := by
  refine ⟨h.knownGood, h.candidate, .inl h.executable, ?_⟩
  cases hr : d recordFile with
  | none => exact .missing hr h.executable
  | some data =>
    obtain ⟨t, hd, ho⟩ := h.record data hr
    exact .earlier t data hd hr ho h.executable

theorem inv_run (hl : Lawful env) (hu : u.Described env) (hs : u.Start env d) (ops : List (Call × Nat)) :
    Inv env u (run (step env u) d ops) :=
  run_invariant (I := Inv env u) (fun _ op h => (keeps_step hl hu h op).inv) hs.inv ops

theorem rolledBack_installed (hl : Lawful env) (hi : Inv env u d)
    (hs : stored env d = some t) (hst : t.state = .rolledBack) : d .executable = some u.previous := by
  cases hi.record with
  | missing _ hp => exact hp
  | earlier _ _ _ _ _ hp => exact hp
  | ours s data _ hd hr hb =>
    rw [stored, hr, bind_some, hl.read _ _ hd] at hs
    cases hs
    exact hb hst

theorem pending_decodes (hl : Lawful env) (hi : Inv env u d) {now : Int}
    (hs : stored env d = some t) (hp : t.requiresRollback now = true)
    (hr : d recordFile = some data) (hf : data.length ≤ maximumTransactionBytes) :
    decodeTransaction env data = .ok t := by
  cases hi.record with
  | missing hn _ =>
    rw [hn] at hr
    cases hr
  | earlier t' data' hd hr' ho _ =>
    rw [stored, hr', bind_some, hl.read _ _ hd] at hs
    cases hs
    simp [Transaction.requiresRollback, ho.1, ho.2] at hp
  | ours s data' hv hd hr' _ =>
    obtain rfl : data' = data := some.inj (hr'.symm.trans hr)
    rw [stored, hr', bind_some, hl.read _ _ hd] at hs
    cases hs
    exact decode_fits hl hd hv hf

end

/-- **An update is crash-safe.** After every history of the calls, each cut off
anywhere:
the installed executable is the whole previous one or the whole target;
if the record says that the update was rolled back, it is the previous one;
a further call commits, cut off or not, only if it is a confirmation of the
target version before the deadline;
and a further `Recover` of an update that awaits health past its deadline, or
that is to be rolled back, ends with the previous executable installed and the
record saying so if it gets to its end, and it gets there if it is not cut off
and the record is within the 16 KiB that it reads. -/
theorem update_crash_safe (env : Env) (hlawful : Lawful env) (u : Update) (hu : u.Described env) (d₀ : Disk)
    (hstart : u.Start env d₀) (ops : List (Call × Nat)) (d : Disk) (hd : d = run (step env u) d₀ ops) :
    (d .executable = some u.previous ∨ d .executable = some u.target) ∧
      (∀ t, stored env d = some t → t.state = .rolledBack → d .executable = some u.previous) ∧
      (∀ op, ¬ Committed env d → Committed env (step env u d op) →
        ∃ now n, op = (.confirmHealthy u.transaction.targetVersion now, n) ∧ now < u.transaction.healthDeadline) ∧
      ∀ now t, stored env d = some t → t.requiresRollback now = true →
        ((recover env now).result d = .ok .restartRequired →
          (recover env now).final d .executable = some u.previous ∧
            ∃ t', stored env ((recover env now).final d) = some t' ∧ t'.state = .rolledBack) ∧
          (∀ data, d recordFile = some data → data.length ≤ maximumTransactionBytes →
            (recover env now).result d = .ok .restartRequired) := by
  subst hd
  have hi := inv_run hlawful hu hstart ops
  refine ⟨hi.installed, fun t ht hst => rolledBack_installed hlawful hi ht hst, ?_, ?_⟩
  · intro op hb ha
    have hg := ((keeps_step hlawful hu hi op).committed ha).resolve_left hb
    obtain ⟨call, n⟩ := op
    cases call with
    | confirmHealthy ver now =>
      obtain ⟨rfl, hdea⟩ := hg
      exact ⟨now, n, rfl, hdea⟩
    | save => exact hg.elim
    | activate => exact hg.elim
    | recover now => exact hg.elim
  · intro now t hs hp
    have he := (@recover_runs env u False _ hlawful hu hi now).ends
    cases hres : (recover env now).result (run (step env u) d₀ ops) with
    | error e =>
      rw [hres] at he
      obtain ⟨data, hre, hde⟩ := he
      refine ⟨fun h => absurd h (by simp), fun data' hr' hf => ?_⟩
      obtain rfl : data = data' := some.inj (hre.symm.trans hr')
      rw [pending_decodes hlawful hi hs hp hre hf] at hde
      cases hde
    | ok o =>
      rw [hres] at he
      rcases he with ⟨rfl, hid⟩ | ⟨rfl, hin, hr⟩
      · rw [hid t hs] at hp
        cases hp
      · exact ⟨fun _ => ⟨hin, hr⟩, fun _ _ _ => rfl⟩

/-! ### A small update -/

/-- From version 1.0.0, a file of one byte, to version 1.1.0, a file of two. -/
def smallUpdate : Update where
  transaction :=
    { schemaVersion := transactionSchemaVersion
      state := .prepared
      previous := ⟨"1.0.0", hexEncode (smallDigest [1]), 1, "known-good-1.0.0"⟩
      targetVersion := "1.1.0"
      targetSHA256 := hexEncode (smallDigest [2, 3])
      targetSize := 2
      startedAt := 0
      healthDeadline := 60 * nanosecondsPerSecond }
  previous := [1]
  target := [2, 3]

/-- A record in one byte. -/
def stateByte : TransactionState → Option UInt8
  | .prepared => some 0
  | .awaitingHealth => some 1
  | .committed => some 2
  | .rollback => some 3
  | .rolledBack => some 4
  | .other _ => none

def byteState (b : UInt8) : TransactionState :=
  if b = 0 then .prepared else if b = 1 then .awaitingHealth else if b = 2 then .committed
  else if b = 3 then .rollback else .rolledBack

/-- An agent that can write the records of `smallUpdate` only. -/
def smallEnv : Env where
  sha256 := smallDigest
  sha256_length := length_smallDigest
  marshal t := if t = smallUpdate.record t.state then (stateByte t.state).map ([·]) else none
  unmarshal data :=
    match data with
    | [b] => some (smallUpdate.record (byteState b))
    | _ => none
  openEnvelope _ := none
  validURL _ := true
  operatingSystem := "linux"
  architecture := "amd64"
  version := "1.0.0"
  updateEnabled := true

theorem smallEnv_marshal {t : Transaction} {data : Bytes} (h : smallEnv.marshal t = some data) :
    t = smallUpdate.record t.state ∧ ∃ b, stateByte t.state = some b ∧ data = [b] ∧ byteState b = t.state := by
  simp only [smallEnv, ite_none_right_eq_some, map_eq_some_iff] at h
  obtain ⟨ht, b, hb, rfl⟩ := h
  refine ⟨ht, b, hb, rfl, ?_⟩
  cases hs : t.state with
  | other text =>
    rw [hs] at hb
    cases hb
  | _ =>
    rw [hs] at hb
    cases hb
    rfl

theorem lawful_small : Lawful smallEnv where
  read t data h := by
    obtain ⟨ht, b, -, rfl, hb⟩ := smallEnv_marshal h
    show some (smallUpdate.record (byteState b)) = some t
    rw [hb, ← ht]
  part t data n h hn := by
    obtain ⟨-, b, -, rfl, -⟩ := smallEnv_marshal h
    obtain rfl : n = 0 := by simpa using hn
    rfl
  state t s data h hs := by
    obtain ⟨ht, -⟩ := smallEnv_marshal h
    have hsa : ({ t with state := s } : Transaction) = smallUpdate.record s := by
      rw [ht]
      rfl
    rw [hsa]
    cases s with
    | other text => cases hs
    | _ => exact ⟨_, rfl⟩

/-- The files before the update, without a record. -/
def smallStart : Disk := fun f =>
  if f = .executable ∨ f = .state "known-good-1.0.0" then some [1]
  else if f = .staging "candidate-1.1.0" then some [2, 3] else none

theorem update_crash_safe_small :
    run (step smallEnv smallUpdate) smallStart [(.save, 9), (.activate, 6)] .executable = some [1] ∧
      run (step smallEnv smallUpdate) smallStart [(.save, 9), (.activate, 7)] .executable = some [2, 3] ∧
      (run (step smallEnv smallUpdate) smallStart [(.save, 9), (.activate, 7),
        (.recover (60 * nanosecondsPerSecond), 3)]
          .executable = some [1] ∨
        run (step smallEnv smallUpdate) smallStart [(.save, 9), (.activate, 7),
        (.recover (60 * nanosecondsPerSecond), 3)]
          .executable = some [2, 3]) := by
  have hd : smallUpdate.Described smallEnv := by
    refine ⟨?_, ?_, ?_, ?_, ?_⟩
    all_goals decide +kernel
  have hs : smallUpdate.Start smallEnv smallStart := by
    refine ⟨by decide +kernel, by decide +kernel, by decide +kernel, fun data h => ?_⟩
    cases h
  exact ⟨by decide +kernel, by decide +kernel,
    (update_crash_safe smallEnv lawful_small smallUpdate hd smallStart hs _ _ rfl).1⟩

end Mossward.L4.UpdateCrash
