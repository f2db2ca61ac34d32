import Mossward.L1Encoding.Paths
import Mossward.L1Encoding.Rfc3339
import Mossward.L3Protocol.SecretBox

/-!
# Reading a backup archive (`internal/serverbackup/backup.go`)

`extractAndValidate` unpacks a gzip'd tar file into a fresh directory and checks
what it unpacked against the manifest in it. What the gzip and tar readers make
of the bytes is a parameter, a sequence of entries that ends or breaks off; so
is what `json.Unmarshal` makes of the manifest and what SQLite says of a
database file.

The file system is what was there before, and the log of what the call created,
with absolute paths. Any operation may fail (`faults`). A failing call carries
the log up to the failure.

Results: `extract_confined`, `finish_exact`.
-/
namespace Mossward.L4.Archive

open L1.Paths List
open L1.Rfc3339 (Time)
open L3.Secrets (Primitives validateIdentityKeyData smallPrimitives smallKey)
open Table

def formatVersion : Int := 1
def postgresArchiveVersion : Int := 2
def maximumArchiveBytes : Int := 2 ^ 30
def maximumArchiveFiles : Nat := 10000
def maximumIdentityKeyBytes : Nat := 2 ^ 20

def databaseFile : Bytes := utf8 "database/mossward.db"
def postgresDumpEntry : Bytes := utf8 "database/mossward.dump"
def identityFile : Bytes := utf8 "identity/identity.key"
def manifestFile : Bytes := utf8 "manifest.json"
def acmeRoot : Bytes := utf8 "acme/"
def pkiRoot : Bytes := utf8 "agent-pki/"

structure ManifestEntry where
  path : Bytes
  sha256 : String
  size : Int
deriving DecidableEq

structure Manifest where
  formatVersion : Int
  createdAt : Time
  schemaVersion : Int
  files : List ManifestEntry
  backend : String
  organizationID : String
deriving DecidableEq

/-! ## The archive -/

inductive Typeflag
  | reg
  | other (flag : UInt8)
deriving DecidableEq

/-- An entry of the tar file: its header, and the bytes that can be read of its
body. -/
structure TarEntry where
  typeflag : Typeflag
  name : Bytes
  size : Int
  body : Bytes
deriving DecidableEq

/-- The entries in order, and whether the archive ends after them or breaks
off. -/
structure Stream where
  entries : List TarEntry
  complete : Bool

/-- What the call asks of other packages. -/
structure Env where
  primitives : Primitives
  /-- What `json.Unmarshal` makes of a manifest. -/
  unmarshalManifest : Bytes → Option Manifest
  /-- The schema version of a sound SQLite database. -/
  validateSQLiteSnapshot : Bytes → Option Int
  postgreSQLSchemaVersion : Int
  /-- What `gzip` and `tar` read; `none` if there is no gzip header. -/
  readArchive : Bytes → Option Stream

/-! ## The file system -/

abbrev Path : Type := List Bytes

inductive Node
  | dir
  | file (content : Bytes)
deriving DecidableEq

abbrev Log : Type := List (Path × Node)

inductive FileOp
  | openArchive | mkdir | create | write | read | walk
deriving DecidableEq

/-- The file system in which the extraction directory was just created, and
what will fail. -/
structure World where
  directory : Path
  normal : ∀ part ∈ directory, Normal part
  base : Path → Option Node
  ancestors : ∀ p, p <+: directory → base p = some .dir
  fresh : ∀ p, directory <+: p → p ≠ directory → base p = none
  faults : FileOp → Path → Bool

def World.lookup (w : World) (log : Log) (p : Path) : Option Node :=
  match log.find? fun e => e.1 = p with
  | some e => some e.2
  | none => w.base p

/-- `filepath.Join(directory, filepath.FromSlash(name))`. -/
def World.place (w : World) (name : Bytes) : Path := cleanParts true (w.directory ++ elements name)

/-- The content of a file that can be opened and read. -/
def World.readFile (w : World) (log : Log) (p : Path) : Option Bytes :=
  if w.faults .read p then none
  else
    match w.lookup log p with
    | some (.file content) => some content
    | _ => none

inductive ExtractError
  | unreadable
  | unsafeEntry (name : Bytes)
  | tooLarge
  | tooManyFiles
  | fileSystem
  | manifestMissing
  | manifestInvalid
  | unsafeManifestPath (path : Bytes)
  | missingOrWrongSize (path : Bytes)
  | failedChecksum (path : Bytes)
  | duplicateEntry (path : Bytes)
  | unmanifestedEntry (path : Bytes)
  | requiredMissing (path : Bytes)
  | identityMissing
  | identityInvalid
  | notADump
  | badSnapshot
  | schemaMismatch
deriving DecidableEq

/-! ## Unpacking -/

/-- Mirrors `backup.go:349-352`. -/
def safeArchivePath (path : Bytes) : Bool :=
  path ≠ [] && !path.contains 92 && !path.contains 58 && clean path = path && path.head? ≠ some slash &&
    path ≠ dotdot && !(dotdot ++ [slash]).isPrefixOf path

/-- One directory on the way to a file. -/
def mkdir (w : World) (log : Log) (p : Path) : Except (ExtractError × Log) Log :=
  match w.lookup log p with
  | some .dir => .ok log
  | some (.file _) => .error (.fileSystem, log)
  | none => if w.faults .mkdir p then .error (.fileSystem, log) else .ok (log ++ [(p, .dir)])

/-- `os.MkdirAll`. -/
def mkdirAll (w : World) (log : Log) (p : Path) : Except (ExtractError × Log) Log :=
  p.inits.foldlM (mkdir w) log

/-- `os.OpenFile` with `O_EXCL`, then `io.CopyN`: a body that is cut short
leaves a file behind. Mirrors `backup.go:253-261`. -/
def writeEntry (w : World) (log : Log) (p : Path) (entry : TarEntry) : Except (ExtractError × Log) Log :=
  match w.lookup log p with
  | some _ => .error (.fileSystem, log)
  | none =>
    if w.faults .create p then .error (.fileSystem, log)
    else
      let log := log ++ [(p, Node.file (entry.body.take entry.size.toNat))]
      if (entry.body.length : Int) < entry.size ∨ w.faults .write p then .error (.fileSystem, log) else .ok log

structure Progress where
  log : Log
  totalSize : Int
  fileCount : Nat

/-- Directories and file of an accepted entry. -/
def place (w : World) (log : Log) (entry : TarEntry) : Except (ExtractError × Log) Log := do
  let log ← mkdirAll w log (w.place entry.name).dropLast
  writeEntry w log (w.place entry.name) entry

/-- One turn of the loop. Mirrors `backup.go:231-262`. -/
def extractEntry (w : World) (s : Progress) (entry : TarEntry) : Except (ExtractError × Log) Progress :=
  if entry.typeflag ≠ .reg ∨ safeArchivePath entry.name = false ∨ entry.size < 0 ∨
      maximumArchiveBytes < entry.size then
    .error (.unsafeEntry entry.name, s.log)
  else if maximumArchiveBytes < s.totalSize + entry.size then .error (.tooLarge, s.log)
  else if maximumArchiveFiles < s.fileCount + 1 then .error (.tooManyFiles, s.log)
  else do
    let log ← place w s.log entry
    return ⟨log, s.totalSize + entry.size, s.fileCount + 1⟩

/-! ## Checking -/

/-- Mirrors `backup.go:354-359`. -/
def supportedManifest (env : Env) (m : Manifest) : Bool :=
  if m.formatVersion = formatVersion then m.backend = "" || m.backend = "sqlite"
  else m.formatVersion = postgresArchiveVersion && m.backend = "postgresql" && 0 < m.schemaVersion &&
    m.schemaVersion ≤ env.postgreSQLSchemaVersion && m.organizationID ≠ ""

/-- Mirrors `backup.go:361-363`. -/
def allowedBackupEntry (path databaseEntry : Bytes) : Bool :=
  path = databaseEntry || path = identityFile || acmeRoot.isPrefixOf path || pkiRoot.isPrefixOf path

def Manifest.databaseEntry (m : Manifest) : Bytes :=
  if m.backend = "postgresql" then postgresDumpEntry else databaseFile

/-- `required` and `expected` of the source. -/
structure Checklist where
  required : List (Bytes × Bool)
  expected : List Bytes

/-- The hexadecimal SHA-256 of a file. -/
def checksum (env : Env) (content : Bytes) : String := hexEncode (env.primitives.sha256 content)

/-- One entry of the manifest. Mirrors `backup.go:286-310`. -/
def checkEntry (env : Env) (w : World) (log : Log) (databaseEntry : Bytes) (c : Checklist) (entry : ManifestEntry) :
    Except ExtractError Checklist :=
  if safeArchivePath entry.path = false ∨ allowedBackupEntry entry.path databaseEntry = false then
    .error (.unsafeManifestPath entry.path)
  else
    match w.readFile log (w.place entry.path) with
    | none => .error (.missingOrWrongSize entry.path)
    | some content =>
      if (content.length : Int) ≠ entry.size then .error (.missingOrWrongSize entry.path)
      else if checksum env content ≠ entry.sha256 then .error (.failedChecksum entry.path)
      else if entry.path ∈ c.expected then .error (.duplicateEntry entry.path)
      else .ok ⟨c.required.map fun r => if r.1 = entry.path then (r.1, true) else r, entry.path :: c.expected⟩

/-- The name of a path below the directory. -/
def World.relative (w : World) (p : Path) : Bytes := join (p.drop w.directory.length)

/-- The regular files below the directory, by name: the directory was fresh, so
they are those of the log. -/
def World.files (w : World) (log : Log) : List (Bytes × Bytes) :=
  log.filterMap fun e =>
    match e.2 with
    | .dir => none
    | .file content => some (w.relative e.1, content)

/-- The walk over the directory. Mirrors `backup.go:311-322`. -/
def checkWalk (w : World) (log : Log) (c : Checklist) : Except ExtractError Unit :=
  if w.faults .walk w.directory then .error .fileSystem
  else
    match (w.files log).find? fun f => f.1 ∉ c.expected with
    | some f => .error (.unmanifestedEntry f.1)
    | none => .ok ()

def checkRequired (c : Checklist) : Except ExtractError Unit :=
  match c.required.find? fun r => r.2 = false with
  | some r => .error (.requiredMissing r.1)
  | none => .ok ()

/-- Mirrors `backup.go:328-335`. -/
def checkIdentity (env : Env) (w : World) (log : Log) : Except ExtractError Unit :=
  match w.readFile log (w.place identityFile) with
  | none => .error .identityMissing
  | some content =>
    if maximumIdentityKeyBytes < content.length then .error .identityMissing
    else
      match validateIdentityKeyData env.primitives content with
      | .error _ => .error .identityInvalid
      | .ok _ => .ok ()

/-- Mirrors `backup.go:336-346` and `postgres.go:89-100`. -/
def checkDatabase (env : Env) (w : World) (log : Log) (m : Manifest) : Except ExtractError Unit :=
  match w.readFile log (w.place m.databaseEntry) with
  | none => .error .badSnapshot
  | some content =>
    if m.backend = "postgresql" then
      if (utf8 "PGDMP").isPrefixOf content then .ok () else .error .notADump
    else
      match env.validateSQLiteSnapshot content with
      | none => .error .badSnapshot
      | some version => if version = m.schemaVersion then .ok () else .error .schemaMismatch

/-- Mirrors `backup.go:279-347`. -/
def validateExtracted (env : Env) (w : World) (log : Log) (m : Manifest) : Except ExtractError Unit := do
  let c ← m.files.foldlM (checkEntry env w log m.databaseEntry)
    ⟨[(m.databaseEntry, false), (identityFile, false)], [manifestFile]⟩
  checkWalk w log c
  checkRequired c
  checkIdentity env w log
  checkDatabase env w log m

/-- The part behind the loop. Mirrors `backup.go:264-276`. -/
def readManifest (env : Env) (w : World) (log : Log) : Except ExtractError Manifest :=
  match w.readFile log (w.place manifestFile) with
  | none => .error .manifestMissing
  | some data =>
    match env.unmarshalManifest data with
    | none => .error .manifestInvalid
    | some m => if supportedManifest env m then .ok m else .error .manifestInvalid

def finish (env : Env) (w : World) (log : Log) : Except ExtractError Manifest := do
  let m ← readManifest env w log
  validateExtracted env w log m
  return m

/-- What was created, and the result. Mirrors `backup.go:210-277`; the reader
sees the first gibibyte of the archive. -/
def extractAndValidate (env : Env) (w : World) (archive : Bytes) : Log × Except ExtractError Manifest :=
  if w.faults .openArchive [] then ([], .error .unreadable)
  else
    match env.readArchive (archive.take maximumArchiveBytes.toNat) with
    | none => ([], .error .unreadable)
    | some stream =>
      match stream.entries.foldlM (extractEntry w) ⟨[], 0, 0⟩ with
      | .error (e, log) => (log, .error e)
      | .ok s => if stream.complete then (s.log, finish env w s.log) else (s.log, .error .unreadable)

/-! ## Safe names -/

theorem dotdot_of_head {path : Bytes} (h : (elements path).head? = some dotdot) :
    path = dotdot ∨ (dotdot ++ [slash]) <+: path := by
  have hj := join_elements path
  cases hp : elements path with
  | nil => exact absurd hp (elements_ne_nil path)
  | cons first rest =>
    rw [hp] at h hj
    obtain rfl : first = dotdot := by simpa using h
    cases rest with
    | nil =>
      left
      rw [← hj, join_singleton]
    | cons snd rest =>
      right
      rw [join_cons_cons] at hj
      exact ⟨join (snd :: rest), by rw [← hj]; simp⟩

/-- The elements of a safe path are plain names, unless it is `.`. -/
theorem normal_of_safe {path : Bytes} (h : safeArchivePath path = true) :
    path = dot ∨ ∀ part ∈ elements path, Normal part := by
  simp only [safeArchivePath, Bool.and_eq_true, decide_eq_true_eq] at h
  obtain ⟨⟨⟨⟨⟨⟨hn, -⟩, -⟩, hclean⟩, hrooted⟩, hup⟩, hprefix⟩ := h
  refine parts_of_clean hn hclean hrooted fun hh => ?_
  rcases dotdot_of_head hh with he | hp
  · exact hup he
  · rw [List.isPrefixOf_iff_prefix.mpr hp] at hprefix
    cases hprefix

/-- A path below the extraction directory: its elements from there on. -/
def World.Below (w : World) (p : Path) : Prop :=
  ∃ rel, rel ≠ [] ∧ p = w.directory ++ rel ∧ ∀ part ∈ rel, Normal part

theorem World.place_normal {w : World} {name : Bytes} (h : ∀ part ∈ elements name, Normal part) :
    w.place name = w.directory ++ elements name := by
  apply cleanParts_normal
  intro part hp
  rcases mem_append.mp hp with hp | hp
  · exact w.normal part hp
  · exact h part hp

theorem World.place_dot (w : World) : w.place dot = w.directory := by
  exact cleanParts_append_dot w.normal

theorem World.place_safe {w : World} {name : Bytes} (h : safeArchivePath name = true) :
    w.place name = w.directory ∨ w.Below (w.place name) := by
  rcases normal_of_safe h with rfl | hn
  · exact .inl w.place_dot
  · right
    rw [World.place_normal hn]
    exact ⟨elements name, elements_ne_nil name, rfl, hn⟩

/-! ## What the loop creates -/

/-- The log of an extraction: every path was created once, below the
directory. -/
structure LogInv (w : World) (log : Log) : Prop where
  keyed : Keyed Prod.fst log
  below : ∀ e ∈ log, w.Below e.1

variable {p : Path}

theorem LogInv.append {w : World} {log : Log} (h : LogInv w log) (hp : w.Below p)
    (hn : w.lookup log p = none) (node : Node) : LogInv w (log ++ [(p, node)]) := by
  refine ⟨h.keyed.append_singleton ?_, ?_⟩
  · intro e he heq
    have hf : (log.find? fun e => e.1 = p).isSome := find?_isSome.mpr ⟨e, he, by simpa using heq⟩
    obtain ⟨e', he'⟩ := Option.isSome_iff_exists.mp hf
    rw [World.lookup, he'] at hn
    cases hn
  · intro e he
    rcases mem_append.mp he with he | he
    · exact h.below e he
    · rw [mem_singleton.mp he]
      exact hp

theorem LogInv.lookup_ancestor {w : World} {log : Log} (h : LogInv w log) (hp : p <+: w.directory) :
    w.lookup log p = some .dir := by
  have hn : (log.find? fun e => e.1 = p) = none := by
    apply find?_eq_none.mpr
    intro e he heq
    obtain ⟨rel, hr, hpa, -⟩ := h.below e he
    rw [decide_eq_true_eq] at heq
    have hl := hp.length_le
    rw [← heq, hpa, length_append] at hl
    exact hr (eq_nil_of_length_eq_zero (by omega))
  rw [World.lookup, hn]
  exact w.ancestors p hp

theorem prefix_cases {w : World} {rel : List Bytes} (hr : ∀ part ∈ rel, Normal part)
    (hp : p <+: w.directory ++ rel) : p <+: w.directory ∨ w.Below p := by
  rcases prefix_or_prefix_of_prefix hp (prefix_append _ _) with h | ⟨s, rfl⟩
  · exact .inl h
  have hs := (prefix_append_right_inj _).mp hp
  by_cases he : s = []
  · subst he
    left
    rw [append_nil]
  · exact .inr ⟨s, he, rfl, fun part hpa => hr part (hs.subset hpa)⟩

/-- A result with the log of what was created before it. -/
abbrev Kept (w : World) : Except (ExtractError × Log) Log → Prop := Ends (LogInv w) fun e => LogInv w e.2

section
variable {log : Log} {w : World} (h : LogInv w log)
include h

theorem LogInv.mkdir (hp : p <+: w.directory ∨ w.Below p) : Kept w (mkdir w log p) := by
  unfold Archive.mkdir
  rcases hp with hp | hp
  · rw [h.lookup_ancestor hp]
    exact h
  split
  · exact h
  · exact h
  · rename_i hn
    split
    · exact h
    · exact h.append hp hn .dir

theorem LogInv.mkdirAll {rel : List Bytes} (hr : ∀ part ∈ rel, Normal part) (hp : p <+: w.directory ++ rel) :
    Kept w (mkdirAll w log p) := by
  refine Ends.foldlM ?_ h
  intro log' h' q hq
  exact h'.mkdir (prefix_cases hr (((mem_inits q p).mp hq).trans hp))

/-- A file is created below the directory, or not at all: the directory itself
is there already. -/
theorem LogInv.writeEntry
    (hp : p = w.directory ∨ w.Below p) (entry : TarEntry) : Kept w (writeEntry w log p entry) := by
  unfold Archive.writeEntry
  rcases hp with rfl | hp
  · rw [h.lookup_ancestor (prefix_refl _)]
    exact h
  split
  · exact h
  rename_i hno
  split
  · exact h
  have hn := h.append hp hno (.file (entry.body.take entry.size.toNat))
  split <;> exact hn

theorem LogInv.place {entry : TarEntry}
    (hs : safeArchivePath entry.name = true) : Kept w (place w log entry) := by
  have hpl := World.place_safe (w := w) hs
  have hd : Kept w (Archive.mkdirAll w log (w.place entry.name).dropLast) := by
    rcases hpl with hp | ⟨rel, -, hp, hr⟩
    · rw [hp]
      have hn : ∀ part ∈ ([] : List Bytes), Normal part := by simp
      exact h.mkdirAll hn (by rw [append_nil]; exact List.dropLast_prefix _)
    · exact h.mkdirAll hr (by rw [hp]; exact List.dropLast_prefix _)
  exact Ends.bind hd fun log' h' => h'.writeEntry hpl entry

end

theorem LogInv.extractEntry {w : World} {s : Progress} (h : LogInv w s.log) (entry : TarEntry) :
    Ends (fun s' : Progress => LogInv w s'.log) (fun e => LogInv w e.2) (extractEntry w s entry) := by
  unfold Archive.extractEntry
  split
  · exact h
  rename_i ho
  split
  · exact h
  split
  · exact h
  have hs : safeArchivePath entry.name = true := by
    by_contra hunsafe
    exact ho (.inr (.inl (by simpa using hunsafe)))
  exact Ends.bind (h.place hs) fun log' h' => h'

theorem LogInv.loop (w : World) (es : List TarEntry) :
    Ends (fun s' : Progress => LogInv w s'.log) (fun e => LogInv w e.2)
      (es.foldlM (Archive.extractEntry w) ⟨[], 0, 0⟩) := by
  refine Ends.foldlM (fun s h entry _ => LogInv.extractEntry h entry) ?_
  exact ⟨nodup_nil, by simp⟩

/-- **Confinement.** Every directory and file that is created lies strictly
below the extraction directory, and each is created once. -/
theorem extract_confined (env : Env) (w : World) (arc : Bytes) :
    LogInv w (extractAndValidate env w arc).1 := by
  have he : LogInv w [] := ⟨nodup_nil, by simp⟩
  unfold extractAndValidate
  split
  · exact he
  split
  · exact he
  rename_i stream hs
  have hl := LogInv.loop w stream.entries
  split
  · rename_i e log hf
    rw [hf] at hl
    exact hl
  rename_i s hf
  rw [hf] at hl
  split <;> exact hl

/-! ## What an accepted archive holds -/

section
variable {env : Env} {w : World} {log : Log}

theorem lookup_mem {p : Path} {node : Node} (hp : w.Below p) (h : w.lookup log p = some node) : (p, node) ∈ log := by
  unfold World.lookup at h
  split at h
  · rename_i e he
    have hpa : e.1 = p := by simpa using find?_some he
    have hn : e.2 = node := by simpa using h
    rw [← hpa, ← hn]
    exact mem_of_find?_eq_some he
  · obtain ⟨rel, hne, rfl, -⟩ := hp
    rw [w.fresh _ (prefix_append _ _) (by simp [hne])] at h
    cases h

theorem LogInv.mem_of_readFile {p : Path} (hp : w.Below p) {body : Bytes}
    (hr : w.readFile log p = some body) : (p, Node.file body) ∈ log := by
  unfold World.readFile at hr
  split at hr
  · cases hr
  split at hr
  · rename_i body' hl
    cases hr
    exact lookup_mem hp hl
  · cases hr

theorem mem_files {name body : Bytes} :
    (name, body) ∈ w.files log ↔ ∃ p, (p, Node.file body) ∈ log ∧ w.relative p = name := by
  unfold World.files
  rw [mem_filterMap]
  constructor
  · rintro ⟨⟨p, node⟩, hm, hn⟩
    cases node with
    | dir => cases hn
    | file body' =>
      obtain ⟨rfl, rfl⟩ : w.relative p = name ∧ body' = body := by simpa using hn
      exact ⟨p, hm, rfl⟩
  · rintro ⟨p, hm, rfl⟩
    exact ⟨(p, .file body), hm, rfl⟩

theorem World.relative_below (w : World) (rel : List Bytes) : w.relative (w.directory ++ rel) = join rel := by
  rw [World.relative, drop_left]

theorem World.Below.relative_inj {p p' : Path} (hp : w.Below p) (hp' : w.Below p')
    (h : w.relative p = w.relative p') : p = p' := by
  obtain ⟨rel, hn, rfl, hr⟩ := hp
  obtain ⟨rel', hn', rfl, hr'⟩ := hp'
  rw [World.relative_below, World.relative_below] at h
  rw [join_inj hn hn' hr hr' h]

theorem LogInv.files_keyed (h : LogInv w log) : Keyed Prod.fst (w.files log) := by
  induction log with
  | nil => exact nodup_nil
  | cons e log ih =>
    obtain ⟨hf, hre⟩ := nodup_cons.mp h.keyed
    have ht : LogInv w log := ⟨hre, fun e' he' => h.below e' (mem_cons_of_mem _ he')⟩
    obtain ⟨p, node⟩ := e
    cases node with
    | dir => exact ih ht
    | file body =>
      refine nodup_cons.mpr ⟨?_, ih ht⟩
      intro hm
      obtain ⟨⟨name, body'⟩, hfi, hn⟩ := mem_map.mp hm
      obtain ⟨p', hp', hr⟩ := mem_files.mp hfi
      have hs : p' = p := (ht.below _ hp').relative_inj (h.below _ mem_cons_self) (hr.trans hn)
      subst hs
      exact hf (mem_map.mpr ⟨_, hp', rfl⟩)

variable {m : Manifest}

/-- An allowed path is not the directory itself. -/
theorem ne_dot_of_allowed {path : Bytes} (h : allowedBackupEntry path m.databaseEntry = true) :
    path ≠ dot := by
  rintro rfl
  unfold Manifest.databaseEntry at h
  split at h
  · revert h
    decide +kernel
  · revert h
    decide +kernel

/-- A file of the manifest as it was found. -/
structure EntryOk (env : Env) (w : World) (log : Log) (databaseEntry : Bytes) (entry : ManifestEntry) : Prop where
  safe : safeArchivePath entry.path = true
  allowed : allowedBackupEntry entry.path databaseEntry = true
  found : ∃ content, w.readFile log (w.place entry.path) = some content ∧ (content.length : Int) = entry.size ∧
    checksum env content = entry.sha256

theorem checkEntry_ok {dbe : Bytes} {c c' : Checklist} {entry : ManifestEntry}
    (h : checkEntry env w log dbe c entry = .ok c') :
    EntryOk env w log dbe entry ∧ entry.path ∉ c.expected ∧ c'.expected = entry.path :: c.expected := by
  unfold checkEntry at h
  split at h
  · cases h
  rename_i hp
  rw [not_or, Bool.not_eq_false, Bool.not_eq_false] at hp
  split at h
  · cases h
  rename_i body hr
  split at h
  · cases h
  rename_i hs
  split at h
  · cases h
  rename_i hsu
  split at h
  · cases h
  · rename_i hn
    cases h
    exact ⟨⟨hp.1, hp.2, body, hr, not_ne_iff.mp hs, not_ne_iff.mp hsu⟩, hn, rfl⟩

theorem checkEntries_ok {dbe : Bytes} {es : List ManifestEntry} {c c' : Checklist}
    (h : es.foldlM (checkEntry env w log dbe) c = .ok c') (hn : c.expected.Nodup) :
    (∀ entry ∈ es, EntryOk env w log dbe entry) ∧ c'.expected.Nodup ∧
      c'.expected = (es.map (·.path)).reverse ++ c.expected := by
  induction es generalizing c with
  | nil =>
    cases h
    exact ⟨by simp, hn, rfl⟩
  | cons entry es ih =>
    obtain ⟨c1, hen, hr⟩ := bind_eq_ok.mp h
    obtain ⟨ho, hne, he⟩ := checkEntry_ok hen
    have hn1 : c1.expected.Nodup := by
      rw [he]
      exact nodup_cons.mpr ⟨hne, hn⟩
    obtain ⟨ha, hn', he'⟩ := ih hr hn1
    refine ⟨?_, hn', ?_⟩
    · intro entry' hm
      rcases mem_cons.mp hm with rfl | hm
      · exact ho
      · exact ha entry' hm
    · rw [he', he]
      simp

theorem checkWalk_ok {c : Checklist} {u : Unit} (h : checkWalk w log c = .ok u) :
    ∀ f ∈ w.files log, f.1 ∈ c.expected := by
  unfold checkWalk at h
  split at h
  · cases h
  split at h
  · cases h
  · rename_i hn
    intro f hf
    simpa using find?_eq_none.mp hn f hf

theorem EntryOk.mem_files {entry : ManifestEntry} (h : EntryOk env w log m.databaseEntry entry) :
    ∃ body, (entry.path, body) ∈ w.files log ∧ (body.length : Int) = entry.size ∧
      checksum env body = entry.sha256 := by
  obtain ⟨body, hr, hs, hsu⟩ := h.found
  have hn := (normal_of_safe h.safe).resolve_left (ne_dot_of_allowed h.allowed)
  rw [World.place_normal hn] at hr
  have hm := LogInv.mem_of_readFile ⟨_, elements_ne_nil _, rfl, hn⟩ hr
  refine ⟨body, Archive.mem_files.mpr ⟨_, hm, ?_⟩, hs, hsu⟩
  rw [World.relative_below, join_elements]

theorem manifest_mem_files (h : readManifest env w log = .ok m) :
    ∃ data, (manifestFile, data) ∈ w.files log := by
  unfold readManifest at h
  split at h
  · cases h
  rename_i data hr
  have hs : safeArchivePath manifestFile = true := by decide +kernel
  have hn := (normal_of_safe hs).resolve_left (by decide +kernel)
  rw [World.place_normal hn] at hr
  have hm := LogInv.mem_of_readFile ⟨_, elements_ne_nil _, rfl, hn⟩ hr
  refine ⟨data, mem_files.mpr ⟨_, hm, ?_⟩⟩
  rw [World.relative_below, join_elements]

/-- **Exactness.** -/
theorem finish_exact (hl : LogInv w log) (h : finish env w log = .ok m) :
    ((w.files log).map Prod.fst).Perm (manifestFile :: m.files.map (·.path)) ∧ (m.files.map (·.path)).Nodup ∧
      ∀ entry ∈ m.files, allowedBackupEntry entry.path m.databaseEntry = true ∧
        ∃ body, (entry.path, body) ∈ w.files log ∧ (body.length : Int) = entry.size ∧
          checksum env body = entry.sha256 := by
  obtain ⟨m', hma, hr⟩ := bind_eq_ok.mp h
  obtain ⟨_, hv, hm⟩ := bind_eq_ok.mp hr
  cases hm
  obtain ⟨c, hen, hr⟩ := bind_eq_ok.mp hv
  obtain ⟨_, hw, -⟩ := bind_eq_ok.mp hr
  obtain ⟨ha, hn, hex⟩ := checkEntries_ok hen (nodup_singleton _)
  have hp : c.expected.Perm (manifestFile :: m.files.map (·.path)) := by
    rw [hex]
    exact (perm_append_comm).trans (List.Perm.cons _ (reverse_perm _))
  refine ⟨?_, (nodup_cons.mp (hp.nodup_iff.mp hn)).2, ?_⟩
  · rw [perm_ext_iff_of_nodup hl.files_keyed (hp.nodup_iff.mp hn)]
    intro name
    constructor
    · intro hme
      obtain ⟨f, hf, rfl⟩ := mem_map.mp hme
      exact hp.subset (checkWalk_ok hw f hf)
    · intro hme
      rcases mem_cons.mp hme with rfl | hme
      · obtain ⟨data, hd⟩ := manifest_mem_files hma
        exact mem_map_of_mem hd
      · obtain ⟨entry, he, rfl⟩ := mem_map.mp hme
        obtain ⟨body, hc, -⟩ := (ha entry he).mem_files
        exact mem_map_of_mem hc
  · intro entry he
    exact ⟨(ha entry he).allowed, (ha entry he).mem_files⟩

end

theorem extract_ok {env : Env} {w : World} {arc : Bytes} {m : Manifest}
    (h : (extractAndValidate env w arc).2 = .ok m) :
    finish env w (extractAndValidate env w arc).1 = .ok m := by
  unfold extractAndValidate at h ⊢
  split at h
  · cases h
  rename_i hf
  rw [if_neg hf]
  split at h
  · cases h
  split at h
  · cases h
  split at h
  · rename_i hc
    rw [if_pos hc]
    exact h
  · cases h

/-! ## A small archive -/

/-- An extraction directory `/tmp/x` on a system without failures. -/
def smallWorld : World where
  directory := [utf8 "tmp", utf8 "x"]
  normal := by
    intro part hp
    simp only [mem_cons, not_mem_nil, or_false] at hp
    obtain rfl | rfl := hp
    · exact ⟨by decide +kernel, by decide +kernel, by decide +kernel, by decide +kernel⟩
    · exact ⟨by decide +kernel, by decide +kernel, by decide +kernel, by decide +kernel⟩
  base p := if p <+: [utf8 "tmp", utf8 "x"] then some .dir else none
  ancestors p hp := if_pos hp
  fresh p hp hne := if_neg fun hup => hne (hup.eq_of_length_le hp.length_le)
  faults _ _ := false

/-- **Extraction is confined and exact.** For every archive, file system and
failures: all that is created lies strictly below the extraction directory. If
the archive is accepted, the regular files in the directory are, each once, the
manifest and the entries of the manifest; those are pairwise different, of the
allowed kinds, and of the size and SHA-256 that the manifest says. -/
theorem extraction_confined_exact (env : Env) (w : World) (archive : Bytes) :
    (∀ e ∈ (extractAndValidate env w archive).1, w.directory <+: e.1 ∧ e.1 ≠ w.directory) ∧
      ∀ m, (extractAndValidate env w archive).2 = .ok m →
        ((w.files (extractAndValidate env w archive).1).map Prod.fst).Perm
            (manifestFile :: m.files.map (·.path)) ∧
          (m.files.map (·.path)).Nodup ∧
          ∀ entry ∈ m.files, allowedBackupEntry entry.path m.databaseEntry = true ∧
            ∃ content, (entry.path, content) ∈ w.files (extractAndValidate env w archive).1 ∧
              (content.length : Int) = entry.size ∧ checksum env content = entry.sha256 := by
  have hl := extract_confined env w archive
  refine ⟨?_, fun m hm => finish_exact hl (extract_ok hm)⟩
  intro e he
  obtain ⟨rel, hn, hp, -⟩ := hl.below e he
  rw [hp]
  exact ⟨prefix_append _ _, by simp [hn]⟩

/-- A regular entry. -/
def regular (name body : Bytes) : TarEntry := ⟨.reg, name, body.length, body⟩

def smallManifest : Manifest where
  formatVersion := formatVersion
  createdAt := Time.zero
  schemaVersion := 1
  files := [⟨databaseFile, hexEncode ([1, 2] ++ replicate 30 0), 2⟩,
    ⟨identityFile, hexEncode (replicate 32 7), 32⟩]
  backend := ""
  organizationID := ""

/-- Every archive holds a database of two bytes, an identity key and
`smallManifest`. -/
def smallEnv : Env where
  primitives := smallPrimitives
  unmarshalManifest _ := some smallManifest
  validateSQLiteSnapshot _ := some 1
  postgreSQLSchemaVersion := 1
  readArchive _ := some ⟨[regular databaseFile [1, 2], regular identityFile (smallKey 7).1,
    regular manifestFile []], true⟩

theorem extraction_confined_exact_small : (extractAndValidate smallEnv smallWorld []).2 = .ok smallManifest ∧
      ((smallWorld.files (extractAndValidate smallEnv smallWorld []).1).map Prod.fst).Perm
        [manifestFile, databaseFile, identityFile] := by
  have ha : (extractAndValidate smallEnv smallWorld []).2 = .ok smallManifest := by decide +kernel
  exact ⟨ha, ((extraction_confined_exact smallEnv smallWorld []).2 smallManifest ha).1⟩

end Mossward.L4.Archive
