import Mossward.Core.Bytes
import Mossward.Core.Script
import Mossward.Core.Table
import Mossward.L1Encoding.Names

/-!
# Updating the endpoint agent (`internal/agentupdate`, `internal/agentapp/update.go`)

An update keeps a copy of the running executable, downloads the new one next
to it, writes a transaction record and then replaces the executable by a
rename. The new agent confirms that it is healthy before a deadline, and an
agent that starts after the deadline puts the old executable back.

The file system has the executable, the files of the state directory and of the
staging directory by name, and one temporary file of each kind. Each call is a
`Script` whose actions are atomic; a file is written byte by byte. The JSON of
the record, what `Verify` reads in an envelope and the check of the artifact's
URL are parameters.
-/
namespace Mossward.L4.AgentUpdate

open Table (require)
open Run Function List

/-! ## Versions -/

/-- `versionPattern`: three numbers with dots between them, and possibly a
prerelease behind a hyphen. -/
def isVersion (s : String) : Bool :=
  let core := (s.toList.takeWhile (· ≠ '-')).splitOn '.'
  core.length = 3 && core.all (fun part => part ≠ [] && part.all Char.isDigit) &&
    match s.toList.dropWhile (· ≠ '-') with
    | [] => true
    | _ :: prerelease => prerelease ≠ [] &&
      prerelease.all fun c => c.isDigit || ('A' ≤ c && c ≤ 'Z') || ('a' ≤ c && c ≤ 'z') || c = '.' || c = '-'

/-- `strconv.Atoi` on digits. -/
def atoi (digits : List Char) : Option Nat :=
  let value := digits.foldl (fun acc c => acc * 10 + (c.toNat - '0'.toNat)) 0
  if value < 2 ^ 63 then some value else none

/-- Mirrors `version.go:37-52`. -/
def parseVersion (s : String) : Option (List Nat × List Char) :=
  if isVersion s then
    (((s.toList.takeWhile (· ≠ '-')).splitOn '.').mapM atoi).map fun parts =>
      (parts, (s.toList.dropWhile (· ≠ '-')).drop 1)
  else none

/-- Mirrors `version.go:8-35`. -/
def isUpgrade (current target : String) : Bool :=
  match parseVersion current, parseVersion target with
  | some (currentParts, currentPrerelease), some (targetParts, targetPrerelease) =>
    if targetParts ≠ currentParts then currentParts < targetParts
    else if currentPrerelease = targetPrerelease then false
    else if currentPrerelease = [] then false
    else if targetPrerelease = [] then true
    else currentPrerelease < targetPrerelease
  | _, _ => false

/-! ## Manifest and transaction -/

def nanosecondsPerSecond : Int := 1000000000
def transactionSchemaVersion : Int := 1
def maximumTransactionBytes : Nat := 16 * 2 ^ 10
def transactionFileName : String := "transaction.json"
def manifestSchemaVersion : Int := 1
def maximumArtifactBytes : Int := 256 * 2 ^ 20
def maximumManifestLife : Int := 30 * 24 * 3600 * nanosecondsPerSecond
def maximumClockSkew : Int := 5 * 60 * nanosecondsPerSecond
def minimumHealthTimeout : Int := 30
def maximumHealthTimeout : Int := 600

structure Manifest where
  schemaVersion : Int
  version : String
  operatingSystem : String
  architecture : String
  artifactURL : String
  artifactSHA256 : String
  artifactSize : Int
  issuedAt : Int
  expiresAt : Int
  healthTimeoutSeconds : Int
deriving DecidableEq

inductive TransactionState
  | prepared
  | awaitingHealth
  | committed
  | rollback          -- "rollback_required"
  | rolledBack
  | other (text : String)
deriving DecidableEq

structure KnownGood where
  version : String
  sha256 : String
  size : Int
  file : String
deriving DecidableEq

structure Transaction where
  schemaVersion : Int
  state : TransactionState
  previous : KnownGood
  targetVersion : String
  targetSHA256 : String
  targetSize : Int
  startedAt : Int
  healthDeadline : Int
deriving DecidableEq

inductive UpdateError
  | envelope                -- "reject endpoint-agent update offer"
  | manifestSchema
  | manifestPlatform
  | manifestURL
  | manifestDigest
  | manifestSize
  | manifestWindow
  | manifestTimeout
  | platform
  | knownGoodInvalid
  | executableUnreadable
  | knownGoodExists         -- "known-good version already exists"
  | download
  | downloadSize
  | downloadDigest
  | alreadyStaged           -- "update version is already staged"
  | transactionInvalid
  | encoding
  | decoding
  | notPrepared
  | candidateMismatch
  | copyFailed              -- "candidate changed or could not be copied"
  | copyDigest
  | versionMismatch         -- "running endpoint-agent version does not match the pending update"
  | deadlineMissed
deriving DecidableEq

/-- What the calls are built on, and the agent they run in. -/
structure Env where
  sha256 : Bytes → Bytes
  sha256_length : ∀ data, (sha256 data).length = 32
  /-- `json.Marshal` of a record. -/
  marshal : Transaction → Option Bytes
  /-- A record that is decoded without unknown fields or trailing data. -/
  unmarshal : Bytes → Option Transaction
  /-- The manifest in an envelope with a valid signature of the trusted key. -/
  openEnvelope : Bytes → Option Manifest
  validURL : String → Bool
  operatingSystem : String
  architecture : String
  /-- `Version` of the running agent. -/
  version : String
  updateEnabled : Bool

def isDigest (s : String) : Bool := (hexDecode s.toList).2 && (hexDecode s.toList).1.length = 32

/-- Mirrors `manifest.go:95-122`. -/
def Manifest.validate (env : Env) (m : Manifest) (now : Int) : Except UpdateError Unit := do
  require (m.schemaVersion = manifestSchemaVersion && isVersion m.version) .manifestSchema
  require ((m.operatingSystem = "linux" || m.operatingSystem = "windows") &&
    (m.architecture = "amd64" || m.architecture = "arm64")) .manifestPlatform
  require (env.validURL m.artifactURL) .manifestURL
  require (isDigest m.artifactSHA256) .manifestDigest
  require (1 ≤ m.artifactSize && m.artifactSize ≤ maximumArtifactBytes) .manifestSize
  require (m.issuedAt ≤ now + maximumClockSkew && now < m.expiresAt && m.issuedAt < m.expiresAt &&
    m.expiresAt - m.issuedAt ≤ maximumManifestLife) .manifestWindow
  require (minimumHealthTimeout ≤ m.healthTimeoutSeconds && m.healthTimeoutSeconds ≤ maximumHealthTimeout)
    .manifestTimeout

def TransactionState.valid : TransactionState → Bool
  | .other _ => false
  | _ => true

/-- `filepath.Base(name) == name`. -/
def isBaseName (name : String) : Bool := name ≠ "" && (name = "/" || !name.toList.contains '/')

/-- Mirrors `transaction.go:110-122`. -/
def Transaction.validate (t : Transaction) : Bool :=
  t.schemaVersion = transactionSchemaVersion && t.state.valid && isVersion t.previous.version &&
    isVersion t.targetVersion && isBaseName t.previous.file && isDigest t.previous.sha256 && isDigest t.targetSHA256 &&
    1 ≤ t.previous.size && t.previous.size ≤ maximumArtifactBytes && 1 ≤ t.targetSize &&
    t.targetSize ≤ maximumArtifactBytes && t.startedAt < t.healthDeadline &&
    t.healthDeadline - t.startedAt ≤ maximumHealthTimeout * nanosecondsPerSecond

/-- Mirrors `transaction.go:124-126`. -/
def Transaction.requiresRollback (t : Transaction) (now : Int) : Bool :=
  t.state = .rollback || (t.state = .awaitingHealth && t.healthDeadline ≤ now)

/-! ## Files -/

/-- What a temporary file is for. -/
inductive Temporary
  | knownGood | update | transaction | activate | rollback
deriving DecidableEq

inductive File
  | executable
  | state (name : String)
  | staging (name : String)
  | temporary (kind : Temporary)
deriving DecidableEq

abbrev Disk : Type := File → Option Bytes

inductive Action
  | create (kind : Temporary)
  | append (kind : Temporary) (b : UInt8)
  | rename (kind : Temporary) (target : File)
deriving DecidableEq

def perform (d : Disk) : Action → Disk
  | .create kind => update d (.temporary kind) (some [])
  | .append kind b => update d (.temporary kind) ((d (.temporary kind)).map (· ++ [b]))
  | .rename kind target => update (update d target (d (.temporary kind))) (.temporary kind) none

abbrev FileScript (α : Type) : Type := Script perform UpdateError α

/-- A new temporary file with this content. -/
def writeActions (kind : Temporary) (data : Bytes) : List Action := .create kind :: data.map (.append kind)

/-- How a call ends that may ask for a restart: `nil` or `ErrRestartRequired`. -/
inductive Outcome
  | done
  | restartRequired
deriving DecidableEq

/-! ## The record -/

/-- Mirrors `transaction.go:153-165`, `transaction.go:201-221`. -/
def saveTransaction (env : Env) (t : Transaction) : FileScript Unit :=
  if t.validate = false then .fail .transactionInvalid
  else
    match env.marshal t with
    | none => .fail .encoding
    | some data => .act (writeActions .transaction data ++ [.rename .transaction (.state transactionFileName)])

/-- What a record in the file is read as; the decoder sees the first 16 KiB. -/
def decodeTransaction (env : Env) (data : Bytes) : Except UpdateError Transaction :=
  match env.unmarshal (data.take maximumTransactionBytes) with
  | none => .error .decoding
  | some t => if t.validate then .ok t else .error .transactionInvalid

/-- The record, if there is one. Mirrors `transaction.go:167-183`. -/
def loadTransaction (env : Env) : FileScript (Option Transaction) := do
  match ← .read fun d => d (.state transactionFileName) with
  | none => return none
  | some data =>
    match decodeTransaction env data with
    | .error e => .fail e
    | .ok t => return some t

/-- Mirrors `transaction.go:128-151`; the error of a save past the deadline is
dropped. -/
def confirmHealthy (env : Env) (runningVersion : String) (now : Int) : FileScript Unit := do
  match ← loadTransaction env with
  | none => return ()
  | some t =>
    if t.state ≠ .awaitingHealth then return ()
    else if t.targetVersion ≠ runningVersion then .fail .versionMismatch
    else if t.healthDeadline ≤ now then do
      (saveTransaction env { t with state := .rollback }).ignore
      .fail .deadlineMissed
    else saveTransaction env { t with state := .committed }

/-! ## Replacing the executable -/

/-- Mirrors `copy.go:12-28`. -/
def copyVerifiedCandidate (env : Env) (kind : Temporary) (candidate : File) (size : Int) (digest : String) :
    FileScript Unit := do
  match ← .read fun d => d candidate with
  | none => .fail .copyFailed
  | some data => do
    .act ((data.take (size + 1).toNat).map (.append kind))
    if ((data.take (size + 1).toNat).length : Int) ≠ size then .fail .copyFailed
    else if env.sha256 (data.take (size + 1).toNat) ≠ (hexDecode digest.toList).1 then .fail .copyDigest
    else return ()

/-- The name of a staged candidate. -/
def candidateFile (version : String) : File := .staging ("candidate-" ++ version)

/-- The part of `Activate` behind its checks. Mirrors
`activate_unix.go:30-62`. -/
def replaceExecutable (env : Env) (candidate : File) (t : Transaction) : FileScript Outcome := do
  .act [.create .activate]
  copyVerifiedCandidate env .activate candidate t.targetSize t.targetSHA256
  saveTransaction env { t with state := .awaitingHealth }
  .act [.rename .activate .executable]
  return .restartRequired

/-- Mirrors `activate_unix.go:14-63`. -/
def activate (env : Env) (candidate : File) (t : Transaction) : FileScript Outcome := do
  if t.state ≠ .prepared then .fail .notPrepared
  else
    match ← .read fun d => d .executable with
    | none => .fail .executableUnreadable
    | some _ =>
      match ← .read fun d => d candidate with
      | none => .fail .candidateMismatch
      | some data =>
        if (data.length : Int) ≠ t.targetSize then .fail .candidateMismatch else replaceExecutable env candidate t

/-- The part of `Recover` behind its checks. Mirrors `recover_unix.go:29-64`. -/
def restoreKnownGood (env : Env) (t : Transaction) : FileScript Outcome := do
  .act [.create .rollback]
  copyVerifiedCandidate env .rollback (.state t.previous.file) t.previous.size t.previous.sha256
  saveTransaction env { t with state := .rollback }
  .act [.rename .rollback .executable]
  saveTransaction env { t with state := .rolledBack }
  return .restartRequired

/-- Mirrors `recover_unix.go:13-65`. -/
def recover (env : Env) (now : Int) : FileScript Outcome := do
  match ← loadTransaction env with
  | none => return .done
  | some t =>
    if t.requiresRollback now = false then return .done
    else
      match ← .read fun d => d .executable with
      | none => .fail .executableUnreadable
      | some _ => restoreKnownGood env t

/-! ## An offer -/

/-- Mirrors `transaction.go:50-101`. -/
def preserveKnownGood (env : Env) (version : String) : FileScript KnownGood := do
  if isVersion version = false then .fail .knownGoodInvalid
  else
    match ← .read fun d => d .executable with
    | none => .fail .executableUnreadable
    | some data =>
      if (data.length : Int) < 1 ∨ maximumArtifactBytes < data.length then .fail .executableUnreadable
      else
        match ← .read fun d => d (.state ("known-good-" ++ version)) with
        | some _ => .fail .knownGoodExists
        | none => do
          .act (writeActions .knownGood data ++ [.rename .knownGood (.state ("known-good-" ++ version))])
          return ⟨version, hexEncode (env.sha256 data), data.length, "known-good-" ++ version⟩

/-- An answer to a download: its status, the length it announces (negative if
none), the bytes that can be read, and whether an error follows them. -/
structure Response where
  statusCode : Int
  contentLength : Int
  body : Bytes
  broken : Bool

/-- Mirrors `stager.go:80-124`. -/
def writeCandidate (env : Env) (answer : Response) (m : Manifest) : FileScript File := do
  let body := answer.body
  .act (writeActions .update (body.take (m.artifactSize + 1).toNat))
  if answer.broken ∧ body.length < (m.artifactSize + 1).toNat then .fail .download
  else if ((body.take (m.artifactSize + 1).toNat).length : Int) ≠ m.artifactSize then .fail .downloadSize
  else if env.sha256 (body.take (m.artifactSize + 1).toNat) ≠ (hexDecode m.artifactSHA256.toList).1 then
    .fail .downloadDigest
  else
    match ← .read fun d => d (candidateFile m.version) with
    | some _ => .fail .alreadyStaged
    | none => do
      .act [.rename .update (candidateFile m.version)]
      return candidateFile m.version

/-- Mirrors `stager.go:46-78`. -/
def stage (env : Env) (m : Manifest) (now : Int) (response : Option Response) : FileScript File :=
  match m.validate env now with
  | .error e => .fail e
  | .ok _ =>
    if m.operatingSystem ≠ env.operatingSystem ∨ m.architecture ≠ env.architecture then .fail .platform
    else
      match response with
      | none => .fail .download
      | some answer =>
        if answer.statusCode ≠ 200 then .fail .download
        else if 0 ≤ answer.contentLength ∧ answer.contentLength ≠ m.artifactSize then .fail .downloadSize
        else writeCandidate env answer m

/-- Mirrors `transaction.go:103-108`. -/
def newTransaction (previous : KnownGood) (m : Manifest) (now : Int) : Except UpdateError Transaction :=
  let t : Transaction := ⟨transactionSchemaVersion, .prepared, previous, m.version,
    m.artifactSHA256, m.artifactSize, now,
    now + m.healthTimeoutSeconds * nanosecondsPerSecond⟩
  if t.validate then .ok t else .error .transactionInvalid

/-- An offer as it arrives: the envelope, the answer to the download, and the
times at which it is verified, staged and put into a transaction. -/
structure Offer where
  envelope : Bytes
  response : Option Response
  verifiedAt : Int
  stagedAt : Int
  startedAt : Int

/-- The update to a manifest that was accepted. Mirrors `update.go:37-58`. -/
def applyManifest (env : Env) (m : Manifest) (offer : Offer) : FileScript Outcome := do
  let knownGood ← preserveKnownGood env env.version
  let candidate ← stage env m offer.stagedAt offer.response
  match newTransaction knownGood m offer.startedAt with
  | .error e => .fail e
  | .ok t => do
    saveTransaction env t
    activate env candidate t

/-- Mirrors `update.go:18-59`. -/
def applyUpdateOffer (env : Env) (offer : Offer) : FileScript Outcome :=
  if offer.envelope = [] ∨ env.updateEnabled = false then return .done
  else
    match env.openEnvelope offer.envelope with
    | none => .fail .envelope
    | some m =>
      match m.validate env offer.verifiedAt with
      | .error e => .fail e
      | .ok _ =>
        if m.operatingSystem ≠ env.operatingSystem ∨ m.architecture ≠ env.architecture then .fail .platform
        else if isUpgrade env.version m.version = false then return .done
        else applyManifest env m offer

/-! ## Rules -/

section
variable {env : Env} {d : Disk} {I : Disk → Prop} {E : UpdateError → Disk → Prop} {kind : Temporary}

/-- Only this temporary file differs. -/
def AgreeExcept (kind : Temporary) (d d' : Disk) : Prop := ∀ f, f ≠ .temporary kind → d' f = d f

theorem AgreeExcept.refl (kind : Temporary) (d : Disk) : AgreeExcept kind d d := fun _ _ => rfl

theorem AgreeExcept.trans {d1 d2 d3 : Disk} (h : AgreeExcept kind d1 d2) (h' : AgreeExcept kind d2 d3) :
    AgreeExcept kind d1 d3 :=
  fun f hf => (h' f hf).trans (h f hf)

theorem agree_create (kind : Temporary) (d : Disk) : AgreeExcept kind d (perform d (.create kind)) :=
  fun _ hf => update_of_ne hf _ _

theorem agree_append (kind : Temporary) (d : Disk) (b : UInt8) : AgreeExcept kind d (perform d (.append kind b)) :=
  fun _ hf => update_of_ne hf _ _

theorem run_appends (data : Bytes) (d : Disk) : AgreeExcept kind d (run perform d (data.map (.append kind))) ∧
      run perform d (data.map (.append kind)) (.temporary kind) = (d (.temporary kind)).map (· ++ data) := by
  induction data generalizing d with
  | nil =>
    refine ⟨AgreeExcept.refl kind d, ?_⟩
    simp
  | cons b data ih =>
    obtain ⟨ha, hc⟩ := ih (perform d (.append kind b))
    rw [map_cons, run_cons]
    refine ⟨(agree_append kind d b).trans ha, ?_⟩
    rw [hc, perform]
    simp [comp_def]

variable {data : Bytes} {Q : Unit → Disk → Prop}

theorem Runs.appends {old : Bytes} (ho : d (.temporary kind) = some old)
    (hI : ∀ d', AgreeExcept kind d d' → I d')
    (hQ : ∀ d', AgreeExcept kind d d' → d' (.temporary kind) = some (old ++ data) → Q () d') :
    Runs perform I (.act (data.map (.append kind)) : FileScript Unit) d Q E := by
  refine Runs.act (fun n => ?_) ?_
  · rw [← map_take]
    exact hI _ (run_appends _ d).1
  · refine hQ _ (run_appends data d).1 ?_
    rw [(run_appends data d).2, ho]
    rfl

theorem Runs.create (hI : ∀ d', AgreeExcept kind d d' → I d')
    (hQ : ∀ d', AgreeExcept kind d d' → d' (.temporary kind) = some [] → Q () d') :
    Runs perform I (.act [.create kind] : FileScript Unit) d Q E := by
  refine Runs.act (fun n => ?_) ?_
  · cases n with
    | zero => exact hI _ (AgreeExcept.refl kind d)
    | succ n => exact hI _ (by simpa using agree_create kind d)
  · exact hQ _ (agree_create kind d) (update_self _ _ _)

/-- The disk after a temporary file took the place of another file. -/
structure Renamed (kind : Temporary) (target : File) (data : Bytes) (d d' : Disk) : Prop where
  moved : d' target = some data
  others : ∀ f, f ≠ target → f ≠ .temporary kind → d' f = d f

theorem renamed_perform {tgt : File} (hd : d (.temporary kind) = some data)
    (ht : tgt ≠ .temporary kind) : Renamed kind tgt data d (perform d (.rename kind tgt)) where
  moved := by rw [perform, update_of_ne ht, update_self, hd]
  others f hf hf' := by rw [perform, update_of_ne hf', update_of_ne hf]

theorem Runs.rename {tgt : File} (hd : d (.temporary kind) = some data)
    (ht : tgt ≠ .temporary kind) (hI : I d) (hQ : ∀ d', Renamed kind tgt data d d' → I d' ∧ Q () d') :
    Runs perform I (.act [.rename kind tgt] : FileScript Unit) d Q E := by
  have hr := hQ _ (renamed_perform hd ht)
  refine Runs.act (fun n => ?_) hr.2
  cases n with
  | zero => exact hI
  | succ n => simpa using hr.1

theorem Runs.write (hI : ∀ d', AgreeExcept kind d d' → I d')
    (hQ : ∀ d', AgreeExcept kind d d' → d' (.temporary kind) = some data → Q () d') :
    Runs perform I (.act (writeActions kind data) : FileScript Unit) d Q E := by
  rw [writeActions, ← singleton_append, Script.act_append]
  refine Runs.bind (Runs.create hI fun d1 hd1 he => ?_)
  exact Runs.appends he (fun d' hd' => hI d' (hd1.trans hd')) fun d' hd' hc => hQ d' (hd1.trans hd') hc

theorem Runs.writeRename {tgt : File} (ht : tgt ≠ .temporary kind)
    (hI : ∀ d', AgreeExcept kind d d' → I d') (hQ : ∀ d', Renamed kind tgt data d d' → I d' ∧ Q () d') :
    Runs perform I (.act (writeActions kind data ++ [.rename kind tgt]) : FileScript Unit) d Q E := by
  rw [Script.act_append]
  refine Runs.bind (Runs.write hI fun d1 hd1 hc => ?_)
  refine Runs.rename hc ht (hI d1 hd1) fun d' hd' => hQ d' ⟨hd'.moved, fun f hf hf' => ?_⟩
  rw [hd'.others f hf hf', hd1 f hf']

theorem Runs.save {t : Transaction} (hI : ∀ d', AgreeExcept .transaction d d' → I d')
    (hQ : ∀ data d', t.validate = true → env.marshal t = some data →
      Renamed .transaction (.state transactionFileName) data d d' → I d' ∧ Q () d')
    (hE : ∀ e, t.validate = false ∨ env.marshal t = none → E e d) :
    Runs perform I (saveTransaction env t) d Q E := by
  have hs := hI d (AgreeExcept.refl _ d)
  unfold saveTransaction
  split
  · rename_i hi
    exact Runs.fail hs (hE _ (.inl hi))
  rename_i hv
  split
  · rename_i hm
    exact Runs.fail hs (hE _ (.inr hm))
  · rename_i data hm
    exact Runs.writeRename (by simp) hI fun d' hd' => hQ data d' (by simpa using hv) hm hd'

theorem Runs.copy {cand : File} {size : Int} {dg : String}
    (he : d (.temporary kind) = some []) (hI : ∀ d', AgreeExcept kind d d' → I d')
    (hQ : ∀ data d', d cand = some data → AgreeExcept kind d d' →
      d' (.temporary kind) = some (data.take (size + 1).toNat) →
      ((data.take (size + 1).toNat).length : Int) = size →
      env.sha256 (data.take (size + 1).toNat) = (hexDecode dg.toList).1 → Q () d')
    (hE : ∀ e d', AgreeExcept kind d d' → (∀ data, d cand = some data → (data.length : Int) = size →
      env.sha256 data ≠ (hexDecode dg.toList).1) → E e d') :
    Runs perform I (copyVerifiedCandidate env kind cand size dg) d Q E := by
  have hr := AgreeExcept.refl kind d
  refine Runs.bind (Runs.read (hI d hr) ?_)
  cases hf : d cand with
  | none => exact Runs.fail (hI d hr) (hE _ _ hr fun data h => by rw [hf] at h; cases h)
  | some data =>
    -- a file of the right size is read as a whole
    have hw : (data.length : Int) = size → data.take (size + 1).toNat = data := fun h =>
      take_of_length_le (by omega)
    refine Runs.bind (Runs.appends he hI fun d' hd' hc => ?_)
    split
    · rename_i hs
      refine Runs.fail (hI d' hd') (hE _ _ hd' fun data' h hl => ?_)
      obtain rfl : data = data' := Option.some.inj (hf.symm.trans h)
      rw [hw hl] at hs
      exact absurd hl hs
    rename_i hs
    split
    · rename_i hd
      refine Runs.fail (hI d' hd') (hE _ _ hd' fun data' h hl => ?_)
      obtain rfl : data = data' := Option.some.inj (hf.symm.trans h)
      rwa [hw hl] at hd
    · rename_i hd
      exact Runs.pure (hI d' hd') (hQ data d' hf hd' hc (not_ne_iff.mp hs) (not_ne_iff.mp hd))

theorem Runs.copyWhole {cand : File} {size : Int} {dg : String}
    (hf : d cand = some data) (he : d (.temporary kind) = some []) (hs : (data.length : Int) = size)
    (hd : env.sha256 data = (hexDecode dg.toList).1) (hI : ∀ d', AgreeExcept kind d d' → I d')
    (hQ : ∀ d', AgreeExcept kind d d' → d' (.temporary kind) = some data → Q () d') :
    Runs perform I (copyVerifiedCandidate env kind cand size dg) d Q E := by
  refine Runs.copy he hI ?_ ?_
  · intro data' d' hf' hd' hc _ _
    obtain rfl : data = data' := Option.some.inj (hf.symm.trans hf')
    rw [take_of_length_le (by omega)] at hc
    exact hQ d' hd' hc
  · intro e d' _ hfa
    exact absurd hd (hfa data hf hs)

theorem Runs.load {Q : Option Transaction → Disk → Prop} (hI : I d)
    (hn : d (.state transactionFileName) = none → Q none d)
    (hs : ∀ data t, d (.state transactionFileName) = some data → decodeTransaction env data = .ok t → Q (some t) d)
    (hE : ∀ data e, d (.state transactionFileName) = some data → decodeTransaction env data = .error e → E e d) :
    Runs perform I (loadTransaction env) d Q E := by
  refine Runs.bind (Runs.read hI ?_)
  cases hr : d (.state transactionFileName) with
  | none => exact Runs.pure hI (hn hr)
  | some data =>
    dsimp only
    cases hd : decodeTransaction env data with
    | error e => exact Runs.fail hI (hE data e hr hd)
    | ok t => exact Runs.pure hI (hs data t hr hd)

end

/-- A digest for small files. -/
def smallDigest (data : Bytes) : Bytes := (data ++ replicate 32 0).take 32

theorem length_smallDigest (data : Bytes) : (smallDigest data).length = 32 := by simp [smallDigest]

end Mossward.L4.AgentUpdate
