import Mossward.L4App.Restore

/-!
# Writing a backup (`internal/serverbackup/backup.go`)

`Create` writes a snapshot of the database, the identity key and the files of
two directories to a tar file, sorted by name, with a manifest of their sizes
and checksums behind them. The writers are parameters, as are the readers in
`Archive`; `Lawful` says that what was written is read back. JSON texts are
UTF-8, so the manifest is read back only if the names in it are. The reader stops
after a gibibyte of the archive, which has to hold the files to their end.

A directory is the list of what the walk over it meets, without the directories,
each under the names that lead to it; none of these lies inside another.

Result: `backup_restorable_iff`.
-/
namespace Mossward.L4.Backup

open L1.Paths List
open L1.Rfc3339 (Time)
open L3.Secrets (validateIdentityKeyData smallKey)
open L4.Archive
open L4.Restore
open Table

/-! ## Sources -/

inductive Leaf
  | regular (content : Bytes)
  | link
  | special
deriving DecidableEq

/-- The files below a directory. -/
structure FileTree where
  leaves : List (Path × Leaf)
  named : ∀ e ∈ leaves, e.1 ≠ [] ∧ ∀ part ∈ e.1, Normal part
  apart : leaves.Pairwise fun a b => ¬ Overlap a.1 b.1

inductive SourceDirectory
  | missing
  | notDirectory
  | directory (tree : FileTree)

/-- What is backed up; `none` is an identity key file that is not there. -/
structure Source where
  snapshot : Bytes
  identity : Option Leaf
  acme : SourceDirectory
  pki : SourceDirectory

inductive BackupError
  | snapshot
  | notDirectory
  | symbolicLink (path : Path)
  | notRegular (name : Bytes)
  | identityTooLarge
  | identityInvalid
  | tooManyFiles
  | tooLarge
  | manifestTooLarge
  | encoding
deriving DecidableEq

/-- The writers. -/
structure Writers where
  marshalManifest : Manifest → Option Bytes
  /-- The gzip'd tar file of regular entries. -/
  writeArchive : List (Bytes × Bytes) → Option Bytes

/-! ## The call -/

/-- `filepath.ToSlash(filepath.Join(archiveRoot, relative))`. -/
def archiveName (root : Bytes) (relative : Path) : Bytes := clean (join (root :: relative))

/-- Mirrors `backup.go:75-101`. -/
def addDirectory (source : SourceDirectory) (root : Bytes) : Except BackupError (List (Bytes × Leaf)) :=
  match source with
  | .missing => .ok []
  | .notDirectory => .error .notDirectory
  | .directory tree =>
    match tree.leaves.find? fun e => e.2 = .link with
    | some e => .error (.symbolicLink e.1)
    | none => .ok (tree.leaves.map fun e => (archiveName root e.1, e.2))

/-- Size and kind of the file, and the checks of the identity key. Mirrors
`backup.go:165-200`. -/
def readSource (env : Env) (name : Bytes) (leaf : Option Leaf) : Except BackupError Bytes :=
  match leaf with
  | some (.regular content) =>
    if maximumArchiveBytes < content.length then .error (.notRegular name)
    else if name = identityFile then
      if maximumIdentityKeyBytes < content.length then .error .identityTooLarge
      else
        match validateIdentityKeyData env.primitives content with
        | .error _ => .error .identityInvalid
        | .ok _ => .ok content
    else .ok content
  | _ => .error (.notRegular name)

structure Written where
  entries : List (Bytes × Bytes)
  totalSize : Int

/-- The entry of the manifest for a file. -/
def manifestEntry (env : Env) (file : Bytes × Bytes) : ManifestEntry :=
  ⟨file.1, checksum env file.2, file.2.length⟩

def manifestOf (env : Env) (version : Int) (now : Time) (files : List (Bytes × Bytes)) : Manifest :=
  ⟨formatVersion, now, version, files.map (manifestEntry env), "", ""⟩

/-- One turn of the loop. Mirrors `backup.go:135-145`. -/
def writeFile (env : Env) (s : Written) (file : Bytes × Option Leaf) : Except BackupError Written := do
  let content ← readSource env file.1 file.2
  if maximumArchiveBytes < s.totalSize + content.length then .error .tooLarge
  else .ok ⟨s.entries ++ [(file.1, content)], s.totalSize + content.length⟩

/-- The end of the archive: the manifest, behind the files it lists. Mirrors
`backup.go:146-163`. -/
def writeManifest (env : Env) (writers : Writers) (version : Int) (now : Time) (s : Written) :
    Except BackupError Bytes :=
  match writers.marshalManifest (manifestOf env version now s.entries) with
  | none => .error .encoding
  | some manifest =>
    if maximumArchiveBytes < s.totalSize + manifest.length then .error .manifestTooLarge
    else
      match writers.writeArchive (s.entries ++ [(manifestFile, manifest)]) with
      | none => .error .encoding
      | some archive => .ok archive

/-- The files in the order of their names. -/
def sortFiles (files : List (Bytes × Option Leaf)) : List (Bytes × Option Leaf) :=
  files.insertionSort fun a b => a.1 ≤ b.1

/-- Mirrors `backup.go:107-163`. -/
def writeArchive (env : Env) (writers : Writers) (files : List (Bytes × Option Leaf)) (version : Int) (now : Time) :
    Except BackupError Bytes :=
  if maximumArchiveFiles < files.length + 1 then .error .tooManyFiles
  else do
    let s ← (sortFiles files).foldlM (writeFile env) ⟨[], 0⟩
    writeManifest env writers version now s

/-- Mirrors `backup.go:51-73`. -/
def create (env : Env) (writers : Writers) (source : Source) (now : Time) : Except BackupError Bytes :=
  match env.validateSQLiteSnapshot source.snapshot with
  | none => .error .snapshot
  | some version => do
    let acme ← addDirectory source.acme (utf8 "acme")
    let pki ← addDirectory source.pki (utf8 "agent-pki")
    writeArchive env writers ((databaseFile, some (.regular source.snapshot)) :: (identityFile, source.identity) ::
      (acme ++ pki).map fun f => (f.1, some f.2)) version now

/-! ## Unpacking a list of files -/

/-- A system on which nothing fails. -/
def Sound (w : World) : Prop := ∀ op p, w.faults op p = false

/-- Files that can lie side by side in a directory under safe names. -/
structure Unpackable (files : List (Bytes × Bytes)) : Prop where
  safe : ∀ f ∈ files, safeArchivePath f.1 = true
  normal : ∀ f ∈ files, ∀ part ∈ elements f.1, Normal part
  apart : files.Pairwise fun a b => ¬ Overlap (elements a.1) (elements b.1)

/-- The log after these files: beside them it holds the directories that lead
to them, and no others than lead to one of the names. -/
structure Unpacked (w : World) (names : List Bytes) (files : List (Bytes × Bytes)) (log : Log) : Prop where
  inv : LogInv w log
  listed : w.files log = files
  dirs : ∀ p, (p, Node.dir) ∈ log → ∃ n ∈ names, ∃ rel, p = w.directory ++ rel ∧ rel <+: (elements n).dropLast
  parents : ∀ f ∈ files, ∀ rel, rel ≠ [] → rel <+: (elements f.1).dropLast → (w.directory ++ rel, Node.dir) ∈ log

section
variable {w : World} {names : List Bytes} {files : List (Bytes × Bytes)} {log : Log}

theorem Unpacked.file_mem (h : Unpacked w names files log) {rel : List Bytes} {body : Bytes}
    (hm : (w.directory ++ rel, Node.file body) ∈ log) : ∃ f ∈ files, elements f.1 = rel := by
  obtain ⟨rel', hne, he, hn⟩ := h.inv.below _ hm
  obtain rfl : rel = rel' := append_cancel_left he
  refine ⟨(join rel, body), ?_, elements_join hne fun part hp => (hn part hp).noSlash⟩
  rw [← h.listed]
  exact mem_files.mpr ⟨_, hm, World.relative_below w rel⟩

theorem files_append_dir (p : Path) : w.files (log ++ [(p, .dir)]) = w.files log := by
  simp [World.files]

theorem files_append_file (rel : List Bytes) (body : Bytes) :
    w.files (log ++ [(w.directory ++ rel, .file body)]) = w.files log ++ [(join rel, body)] := by
  simp [World.files, World.relative_below]

variable {n : Bytes} (hso : Sound w) (hno : ∀ part ∈ elements n, Normal part)
  (ha : ∀ f ∈ files, ¬ Overlap (elements f.1) (elements n))
include hso hno ha

theorem Unpacked.mkdir (h : Unpacked w names files log) (hn : n ∈ names)
    {p : Path} (hp : p <+: w.directory ++ (elements n).dropLast) :
    Yields (fun log' => Unpacked w names files log' ∧ log ⊆ log' ∧ (¬ p <+: w.directory → (p, Node.dir) ∈ log'))
      (mkdir w log p) := by
  have hd : ∀ part ∈ (elements n).dropLast, Normal part := fun part hpar => hno part (dropLast_subset _ hpar)
  unfold Archive.mkdir
  rcases prefix_cases hd hp with hu | hb
  · rw [h.inv.lookup_ancestor hu]
    exact ⟨h, List.Subset.refl _, fun hn1 => absurd hu hn1⟩
  obtain ⟨rel, hne, rfl, hre⟩ := id hb
  have hs : rel <+: (elements n).dropLast := (prefix_append_right_inj _).mp hp
  have hr : rel <+: elements n := hs.trans (List.dropLast_prefix _)
  cases hl : w.lookup log (w.directory ++ rel) with
  | none =>
    rw [if_neg (by simp [hso .mkdir _])]
    refine ⟨⟨h.inv.append hb hl .dir, by rw [files_append_dir, h.listed], ?_, ?_⟩, ?_, fun _ => by simp⟩
    · intro q hq
      rcases mem_append.mp hq with hq | hq
      · exact h.dirs q hq
      · obtain rfl : q = w.directory ++ rel := by simpa using hq
        exact ⟨n, hn, rel, rfl, hs⟩
    · exact fun f hf rel' hn' hpr => mem_append_left _ (h.parents f hf rel' hn' hpr)
    · exact subset_append_left _ _
  | some node =>
    have hm := lookup_mem hb hl
    cases node with
    | dir => exact ⟨h, List.Subset.refl _, fun _ => hm⟩
    | file body =>
      obtain ⟨f, hf, hpa⟩ := h.file_mem hm
      exact absurd (.inl (hpa ▸ hr)) (ha f hf)

theorem Unpacked.mkdirs (hn : n ∈ names) (ps : List Path) (hps : ∀ p ∈ ps, p <+: w.directory ++ (elements n).dropLast)
    (h : Unpacked w names files log) :
    Yields (fun log' => Unpacked w names files log' ∧ ∀ p ∈ ps, ¬ p <+: w.directory → (p, Node.dir) ∈ log')
      (ps.foldlM (Archive.mkdir w) log) := by
  refine Ends.foldlM_done (P := fun ps log' => Unpacked w names files log' ∧
    ∀ p ∈ ps, ¬ p <+: w.directory → (p, Node.dir) ∈ log') ?_ ⟨h, by simp⟩
  intro done p rest hsp log1 ⟨h1, hd⟩
  refine (h1.mkdir hso hno ha hn (hps p (by simp [hsp]))).mono ?_ fun _ => id
  intro log2 ⟨h2, hsu, hp⟩
  refine ⟨h2, forall_mem_append.mpr ⟨fun q hq hb => hsu (hd q hq hb), ?_⟩⟩
  simpa using hp

theorem Unpacked.writeEntry (h : Unpacked w names files log)
    (hd : ∀ m ∈ names, m ≠ n → ¬ Overlap (elements m) (elements n))
    (hpa : ∀ rel, rel ≠ [] → rel <+: (elements n).dropLast → (w.directory ++ rel, Node.dir) ∈ log)
    (body : Bytes) :
    Yields (Unpacked w names (files ++ [(n, body)]))
      (writeEntry w log (w.directory ++ elements n) (regular n body)) := by
  have hb : w.Below (w.directory ++ elements n) := ⟨elements n, elements_ne_nil n, rfl, hno⟩
  have hl : w.lookup log (w.directory ++ elements n) = none := by
    cases hl : w.lookup log (w.directory ++ elements n) with
    | none => rfl
    | some node =>
      have hme := lookup_mem hb hl
      cases node with
      | file body1 =>
        obtain ⟨f, hf, hpar⟩ := h.file_mem hme
        exact absurd (.inl (hpar ▸ prefix_refl _)) (ha f hf)
      | dir =>
        obtain ⟨m, hm, rel, heq, hpr⟩ := h.dirs _ hme
        obtain rfl : elements n = rel := append_cancel_left heq
        have hn : m ≠ n := by
          rintro rfl
          have hle := hpr.length_le
          rw [length_dropLast] at hle
          have hpo := length_pos_of_ne_nil (elements_ne_nil m)
          omega
        exact absurd (.inr (hpr.trans (List.dropLast_prefix _))) (hd m hm hn)
  unfold Archive.writeEntry
  rw [hl]
  rw [if_neg (by simp [hso .create _]), if_neg (by simp [regular, hso .write _])]
  have hbo : (regular n body).body.take (regular n body).size.toNat = body := by simp [regular]
  rw [hbo]
  refine ⟨h.inv.append hb hl _, ?_, ?_, ?_⟩
  · rw [files_append_file, h.listed, join_elements]
  · intro q hq
    rcases mem_append.mp hq with hq | hq
    · exact h.dirs q hq
    · simp at hq
  · intro f hf rel hn hpr
    rcases mem_append.mp hf with hf | hf
    · exact mem_append_left _ (h.parents f hf rel hn hpr)
    · rw [mem_singleton.mp hf] at hpr
      exact mem_append_left _ (hpa rel hn hpr)

end

/-! ### The loop -/

/-- The bytes of all bodies. -/
def totalSize (files : List (Bytes × Bytes)) : Int := (files.map fun f => (f.2.length : Int)).sum

theorem totalSize_nonneg (files : List (Bytes × Bytes)) : 0 ≤ totalSize files := by
  apply sum_nonneg
  intro n hn
  obtain ⟨f, -, rfl⟩ := mem_map.mp hn
  omega

theorem totalSize_append (files more : List (Bytes × Bytes)) :
    totalSize (files ++ more) = totalSize files + totalSize more := by
  simp [totalSize]

theorem totalSize_singleton (f : Bytes × Bytes) : totalSize [f] = f.2.length := by
  simp [totalSize]

/-- The state of the loop after these files. -/
structure Extracted (w : World) (files : List (Bytes × Bytes)) (s : Progress) : Prop where
  unpacked : Unpacked w (files.map Prod.fst) files s.log
  size : s.totalSize = totalSize files
  count : s.fileCount = files.length

theorem Extracted.step {w : World} (hs : Sound w) {files : List (Bytes × Bytes)} {f : Bytes × Bytes}
    (hfi : Unpackable (files ++ [f])) (hsi : totalSize (files ++ [f]) ≤ maximumArchiveBytes)
    (hc : (files ++ [f]).length ≤ maximumArchiveFiles) {s : Progress} (h : Extracted w files s) :
    Yields (Extracted w (files ++ [f])) (extractEntry w s (regular f.1 f.2)) := by
  have hf : f ∈ files ++ [f] := by simp
  have hno := hfi.normal f hf
  have ha : ∀ g ∈ files, ¬ Overlap (elements g.1) (elements f.1) := fun g hg =>
    (pairwise_append.mp hfi.apart).2.2 g hg f (mem_singleton_self f)
  rw [totalSize_append, totalSize_singleton] at hsi
  rw [length_append, length_singleton] at hc
  have hnon := totalSize_nonneg files
  have hpl : w.place f.1 = w.directory ++ elements f.1 := World.place_normal hno
  have hd : (w.place f.1).dropLast = w.directory ++ (elements f.1).dropLast := by
    rw [hpl, dropLast_append_of_ne_nil (elements_ne_nil _)]
  -- the directories lead to an earlier name or to this one
  have hst : Unpacked w ((files ++ [f]).map Prod.fst) files s.log := by
    refine ⟨h.unpacked.inv, h.unpacked.listed, fun p hp => ?_, h.unpacked.parents⟩
    obtain ⟨n, hn, rest⟩ := h.unpacked.dirs p hp
    exact ⟨n, by simp [mem_map.mp hn], rest⟩
  have hw : Yields (Unpacked w ((files ++ [f]).map Prod.fst) (files ++ [f])) (place w s.log (regular f.1 f.2)) := by
    have hwa : ∀ p ∈ (w.place f.1).dropLast.inits, p <+: w.directory ++ (elements f.1).dropLast := by
      intro p hp
      rw [← hd]
      exact (mem_inits p _).mp hp
    refine Ends.bind (Unpacked.mkdirs hs hno ha (by simp) _ hwa hst) ?_
    intro log ⟨hl, hma⟩
    rw [show (regular f.1 f.2).name = f.1 from rfl, hpl]
    apply hl.writeEntry hs hno ha
    · intro m hm hne
      obtain ⟨g, hg, rfl⟩ := mem_map.mp hm
      rcases mem_append.mp hg with hg | hg
      · exact ha g hg
      · exact absurd (by rw [mem_singleton.mp hg]) hne
    · intro rel hne hpr
      apply hma
      · show _ ∈ (w.place f.1).dropLast.inits
        rw [hd, mem_inits, prefix_append_right_inj]
        exact hpr
      · intro hu
        have hle := hu.length_le
        rw [length_append] at hle
        exact hne (eq_nil_of_length_eq_zero (by omega))
  unfold extractEntry
  have he : ¬ ((regular f.1 f.2).typeflag ≠ .reg ∨ safeArchivePath (regular f.1 f.2).name = false ∨
      (regular f.1 f.2).size < 0 ∨ maximumArchiveBytes < (regular f.1 f.2).size) := by
    simp only [regular, hfi.safe f hf, ne_eq, not_true_eq_false, Bool.true_eq_false, false_or]
    omega
  rw [if_neg he, if_neg (by rw [h.size]; simp only [regular]; omega), if_neg (by rw [h.count]; omega)]
  refine Ends.bind hw fun log hl => ⟨hl, ?_, ?_⟩
  · rw [totalSize_append]
    rw [h.size]
    rfl
  · rw [h.count]
    simp

theorem Unpackable.sublist {files part : List (Bytes × Bytes)} (h : Unpackable files) (hp : part.Sublist files) :
    Unpackable part :=
  ⟨fun f hf => h.safe f (hp.subset hf), fun f hf => h.normal f (hp.subset hf), h.apart.sublist hp⟩

/-- **Unpacking.** Files side by side, within the limits, are all unpacked. -/
theorem Extracted.loop {w : World} (hso : Sound w) {files : List (Bytes × Bytes)} (hf : Unpackable files)
    (hsi : totalSize files ≤ maximumArchiveBytes) (hc : files.length ≤ maximumArchiveFiles) :
    Yields (Extracted w files) ((files.map fun f => regular f.1 f.2).foldlM (extractEntry w) ⟨[], 0, 0⟩) := by
  rw [foldlM_map]
  refine Ends.foldlM_done (P := Extracted w) ?_ ⟨⟨⟨nodup_nil, by simp⟩, rfl, by simp, by simp⟩, rfl, rfl⟩
  intro done f rest hsp s hs
  have ha : files = (done ++ [f]) ++ rest := by simp [hsp]
  have hr := totalSize_nonneg rest
  rw [ha, totalSize_append] at hsi
  rw [ha, length_append] at hc
  exact hs.step hso (hf.sublist (ha ▸ sublist_append_left _ _)) (by omega) (by omega)

/-! ## Checking what was unpacked -/

section
variable {w : World} {names : List Bytes} {files : List (Bytes × Bytes)} {log : Log} {env : Env}

variable {f : Bytes × Bytes}

theorem Unpacked.below (h : Unpacked w names files log) (hf : f ∈ files) :
    (w.place f.1, Node.file f.2) ∈ log ∧ w.Below (w.place f.1) := by
  rw [← h.listed] at hf
  obtain ⟨p, hp, hna⟩ := mem_files.mp hf
  obtain ⟨rel, hne, rfl, hn⟩ := id (h.inv.below _ hp)
  rw [World.relative_below] at hna
  have hpa : elements f.1 = rel := by
    rw [← hna]
    exact elements_join hne fun part hpar => (hn part hpar).noSlash
  have hpl : w.place f.1 = w.directory ++ rel := by
    rw [World.place_normal (by rw [hpa]; exact hn), hpa]
  rw [hpl]
  exact ⟨hp, h.inv.below _ hp⟩

theorem lookup_of_mem (h : LogInv w log) {e : Path × Node} (he : e ∈ log) : w.lookup log e.1 = some e.2 := by
  have hf := h.keyed.find?_eq he
  rw [World.lookup, hf]

theorem Unpacked.readFile (h : Unpacked w names files log) (hs : Sound w) (hf : f ∈ files) :
    w.readFile log (w.place f.1) = some f.2 := by
  have hl := lookup_of_mem h.inv (h.below hf).1
  rw [World.readFile, if_neg (by simp [hs .read _]), hl]

/-- The list of what was required, after these files. -/
def checked (files : List (Bytes × Bytes)) : Checklist :=
  ⟨[(databaseFile, decide (databaseFile ∈ files.map Prod.fst)),
    (identityFile, decide (identityFile ∈ files.map Prod.fst))],
    (files.map Prod.fst).reverse ++ [manifestFile]⟩

theorem checkEntry_eq {c : Checklist} (entry : ManifestEntry) (hs : safeArchivePath entry.path = true)
    (ha : allowedBackupEntry entry.path databaseFile = true) {body : Bytes}
    (hr : w.readFile log (w.place entry.path) = some body) (hsi : (body.length : Int) = entry.size)
    (hsu : checksum env body = entry.sha256) (hn : entry.path ∉ c.expected) :
    checkEntry env w log databaseFile c entry =
      .ok ⟨c.required.map fun r => if r.1 = entry.path then (r.1, true) else r, entry.path :: c.expected⟩ := by
  unfold checkEntry
  rw [if_neg (by simp [hs, ha]), hr]
  dsimp only
  rw [if_neg (by simp [hsi]), if_neg (by simp [hsu]), if_neg hn]

theorem checkEntry_written (h : Unpacked w names files log) (hs : Sound w) (hf : f ∈ files)
    (hsa : safeArchivePath f.1 = true) (ha : allowedBackupEntry f.1 databaseFile = true)
    {pre : List (Bytes × Bytes)} (hn : f.1 ∉ pre.map Prod.fst) (hm : f.1 ≠ manifestFile) :
    checkEntry env w log databaseFile (checked pre) (manifestEntry env f) = .ok (checked (pre ++ [f])) := by
  have hu : f.1 ∉ (checked pre).expected := by
    simp only [checked, mem_append, mem_reverse, mem_singleton, not_or]
    exact ⟨hn, hm⟩
  rw [checkEntry_eq (manifestEntry env f) hsa ha (h.readFile hs hf) rfl rfl hu]
  have hfl : ∀ name : Bytes,
      (if name = (manifestEntry env f).path then (name, true) else (name, decide (name ∈ pre.map Prod.fst))) =
        (name, decide (name ∈ (pre ++ [f]).map Prod.fst)) := by
    intro name
    by_cases he : name = f.1 <;> simp [he, manifestEntry]
  simp only [checked, map_cons, hfl, map_append, reverse_append]
  rfl

theorem checkEntries_written (h : Unpacked w names files log) (hs : Sound w) {wr : List (Bytes × Bytes)}
    (hm : ∀ f ∈ wr, f ∈ files)
    (hsa : ∀ f ∈ wr, safeArchivePath f.1 = true ∧ allowedBackupEntry f.1 databaseFile = true ∧ f.1 ≠ manifestFile)
    (hk : Keyed Prod.fst wr) :
    Yields (· = checked wr)
      ((wr.map (manifestEntry env)).foldlM (checkEntry env w log databaseFile) (checked [])) := by
  rw [foldlM_map]
  refine Ends.foldlM_done (P := fun done c => c = checked done) ?_ rfl
  rintro pre f rest rfl _ rfl
  have hf : f ∈ pre ++ f :: rest := by simp
  obtain ⟨hs', ha, hne⟩ := hsa f hf
  have hn : f.1 ∉ pre.map Prod.fst := by
    rw [Keyed, map_append] at hk
    exact fun hi => (nodup_append.mp hk).2.2 _ hi _ mem_cons_self rfl
  rw [checkEntry_written h hs (hm f hf) hs' ha hn hne]
  rfl

def KeyAccepted (env : Env) (content : Bytes) : Prop :=
  content.length ≤ maximumIdentityKeyBytes ∧ validateIdentityKeyData env.primitives content = .ok ()

/-- Files for a manifest at this schema version. -/
structure Complete (env : Env) (version : Int) (written : List (Bytes × Bytes)) : Prop where
  allowed : ∀ f ∈ written, allowedBackupEntry f.1 databaseFile = true
  database : ∃ content, (databaseFile, content) ∈ written ∧ env.validateSQLiteSnapshot content = some version
  identity : ∃ content, (identityFile, content) ∈ written ∧ KeyAccepted env content

theorem Unpackable.keyed (h : Unpackable files) : Keyed Prod.fst files := by
  refine pairwise_map.mpr (h.apart.imp ?_)
  intro a b ha he
  exact ha (.inl (by rw [he]))

/-- **Checking.** Files that were unpacked next to their manifest are
accepted. -/
theorem finish_written (hs : Sound w) {ver : Int} {now : Time} {wr : List (Bytes × Bytes)} {text : Bytes}
    (hfi : Unpackable (wr ++ [(manifestFile, text)])) (hc : Complete env ver wr)
    (ht : env.unmarshalManifest text = some (manifestOf env ver now wr))
    (h : Unpacked w names (wr ++ [(manifestFile, text)]) log) :
    finish env w log = .ok (manifestOf env ver now wr) := by
  have hw : ∀ f ∈ wr, f ∈ wr ++ [(manifestFile, text)] := fun f hf => mem_append_left _ hf
  have hn : ∀ f ∈ wr, f.1 ≠ manifestFile := by
    intro f hf heq
    have ha := (pairwise_append.mp hfi.apart).2.2 f hf (manifestFile, text) (mem_singleton_self _)
    exact ha (.inl (by rw [heq]))
  have hm : readManifest env w log = .ok (manifestOf env ver now wr) := by
    unfold readManifest
    rw [h.readFile hs (f := (manifestFile, text)) (by simp)]
    dsimp only
    rw [ht]
    rfl
  obtain ⟨_, hen, rfl⟩ := (@checkEntries_written _ _ _ _ env h hs _ hw
    (fun f hf => ⟨hfi.safe f (hw f hf), hc.allowed f hf, hn f hf⟩)
    (hfi.sublist (sublist_append_left _ _)).keyed).exists_ok
  have hwa : checkWalk w log (checked wr) = .ok () := by
    have hal : ((w.files log).find? fun f => f.1 ∉ (checked wr).expected) = none := by
      apply find?_eq_none.mpr
      intro f hf
      rw [h.listed] at hf
      have he : f.1 ∈ (checked wr).expected := by
        rcases mem_append.mp hf with hf | hf
        · exact mem_append_left _ (mem_reverse.mpr (mem_map_of_mem hf))
        · rw [mem_singleton.mp hf]
          exact mem_append_right _ (mem_singleton_self _)
      simpa using he
    unfold checkWalk
    rw [if_neg (by simp [hs .walk _]), hal]
  obtain ⟨database, hd, hve⟩ := hc.database
  obtain ⟨idn, hi, hl, hva⟩ := hc.identity
  have hr : checkRequired (checked wr) = .ok () := by
    have hin : databaseFile ∈ wr.map Prod.fst := mem_map_of_mem hd
    have hi' : identityFile ∈ wr.map Prod.fst := mem_map_of_mem hi
    simp only [checked, hin, hi']
    rfl
  have hk : checkIdentity env w log = .ok () := by
    unfold checkIdentity
    rw [h.readFile hs (hw _ hi)]
    dsimp only
    rw [if_neg (by omega), hva]
  have hsn : checkDatabase env w log (manifestOf env ver now wr) = .ok () := by
    have hre := h.readFile hs (hw _ hd)
    unfold checkDatabase
    rw [show (manifestOf env ver now wr).databaseEntry = databaseFile from rfl, hre]
    dsimp only
    rw [hve]
    exact if_pos rfl
  have hv : validateExtracted env w log (manifestOf env ver now wr) = .ok () := by
    refine bind_eq_ok.mpr ⟨checked wr, hen, ?_⟩
    rw [hwa, hr, hk, hsn]
    rfl
  unfold finish
  rw [hm]
  refine bind_eq_ok.mpr ⟨_, rfl, ?_⟩
  rw [hv]
  rfl

end

/-! ## What is written -/

/-- What the walk over a directory meets. -/
def SourceDirectory.leaves : SourceDirectory → List (Path × Leaf)
  | .directory tree => tree.leaves
  | _ => []

/-- The sources by the elements of their names in the archive. -/
def Source.entries (source : Source) : List (Path × Option Leaf) :=
  ([utf8 "database", utf8 "mossward.db"], some (.regular source.snapshot)) ::
    ([utf8 "identity", utf8 "identity.key"], source.identity) ::
    (source.acme.leaves.map (fun e => (utf8 "acme" :: e.1, some e.2)) ++
      source.pki.leaves.map fun e => (utf8 "agent-pki" :: e.1, some e.2))

/-- The sources by their names in the archive. -/
def Source.files (source : Source) : List (Bytes × Option Leaf) := source.entries.map fun e => (join e.1, e.2)

/-- The source that a file in the archive was read from. -/
def origin (f : Bytes × Bytes) : Bytes × Option Leaf := (f.1, some (.regular f.2))

variable {e : Path × Leaf}

theorem SourceDirectory.named {src : SourceDirectory} (h : e ∈ src.leaves) :
    e.1 ≠ [] ∧ ∀ part ∈ e.1, Normal part := by
  cases src with
  | directory tree => exact tree.named e h
  | missing => cases h
  | notDirectory => cases h

theorem SourceDirectory.apart (src : SourceDirectory) : src.leaves.Pairwise fun a b => ¬ Overlap a.1 b.1 := by
  cases src with
  | directory tree => exact tree.apart
  | missing => exact Pairwise.nil
  | notDirectory => exact Pairwise.nil

variable {root : Bytes}

theorem archiveName_eq (hr : Normal root) {rel : Path} (h : ∀ part ∈ rel, Normal part) :
    archiveName root rel = join (root :: rel) :=
  clean_join (by simp) (forall_mem_cons.mpr ⟨hr, h⟩)

theorem addDirectory_ok {src : SourceDirectory} (hr : Normal root) {files : List (Bytes × Leaf)}
    (h : addDirectory src root = .ok files) :
    files = src.leaves.map fun e => (join (root :: e.1), e.2) := by
  cases src with
  | missing =>
    cases h
    rfl
  | notDirectory => cases h
  | directory tree =>
    simp only [addDirectory] at h
    split at h
    · cases h
    cases h
    apply map_congr_left
    intro e he
    rw [archiveName_eq hr (tree.named e he).2]

theorem readSource_ok {env : Env} {name : Bytes} {leaf : Option Leaf} {body : Bytes}
    (h : readSource env name leaf = .ok body) :
    leaf = some (.regular body) ∧ (name = identityFile → KeyAccepted env body) := by
  unfold readSource at h
  split at h
  · obtain ⟨-, h⟩ := ite_error_eq_ok.mp h
    split at h
    · obtain ⟨hl, h⟩ := ite_error_eq_ok.mp h
      split at h
      · cases h
      · rename_i hv
        cases h
        exact ⟨rfl, fun _ => ⟨by omega, hv⟩⟩
    · rename_i hn
      cases h
      exact ⟨rfl, fun he => absurd he hn⟩
  · cases h

/-- The writer's loop: every source was a regular file, and the sum of the
sizes stayed within the limit. -/
theorem writeFiles_ok {env : Env} {files : List (Bytes × Option Leaf)} {s s' : Written}
    (h : files.foldlM (writeFile env) s = .ok s') :
    ∃ wr, files = wr.map origin ∧ s'.entries = s.entries ++ wr ∧
      s'.totalSize = s.totalSize + totalSize wr ∧ ∀ f ∈ wr, f.1 = identityFile → KeyAccepted env f.2 := by
  induction files generalizing s with
  | nil =>
    cases h
    exact ⟨[], rfl, by simp, by simp [totalSize], by simp⟩
  | cons file files ih =>
    obtain ⟨s1, hfi, hr⟩ := bind_eq_ok.mp h
    obtain ⟨body, hs, hfi⟩ := bind_eq_ok.mp hfi
    obtain ⟨hl, hi⟩ := readSource_ok hs
    split at hfi
    · cases hfi
    cases hfi
    obtain ⟨wr, hfil, he, hsi, hk⟩ := ih hr
    refine ⟨(file.1, body) :: wr, ?_, ?_, ?_, forall_mem_cons.mpr ⟨hi, hk⟩⟩
    · rw [map_cons, ← hfil, origin, ← hl]
    · rw [he]
      simp
    · rw [hsi]
      simp only [totalSize, map_cons, sum_cons]
      omega

/-- What a backup that was written consists of. -/
structure WrittenAs (env : Env) (writers : Writers) (source : Source) (now : Time) (archive : Bytes)
    (version : Int) (written : List (Bytes × Bytes)) (text : Bytes) : Prop where
  snapshot : env.validateSQLiteSnapshot source.snapshot = some version
  perm : (written.map origin).Perm source.files
  identity : ∀ f ∈ written, f.1 = identityFile → KeyAccepted env f.2
  size : totalSize (written ++ [(manifestFile, text)]) ≤ maximumArchiveBytes
  count : (written ++ [(manifestFile, text)]).length ≤ maximumArchiveFiles
  marshalled : writers.marshalManifest (manifestOf env version now written) = some text
  archived : writers.writeArchive (written ++ [(manifestFile, text)]) = some archive

theorem normal_of_bytes {part : Bytes} (h : part ≠ [] ∧ part ≠ dot ∧ part ≠ dotdot ∧ slash ∉ part) : Normal part :=
  ⟨h.1, h.2.1, h.2.2.1, h.2.2.2⟩

theorem normal_acme : Normal (utf8 "acme") := normal_of_bytes (by decide +kernel)

theorem normal_pki : Normal (utf8 "agent-pki") := normal_of_bytes (by decide +kernel)

theorem join_databaseFile : join [utf8 "database", utf8 "mossward.db"] = databaseFile := by decide +kernel

theorem join_identityFile : join [utf8 "identity", utf8 "identity.key"] = identityFile := by decide +kernel

theorem create_ok {env : Env} {writers : Writers} {src : Source} {now : Time} {arc : Bytes}
    (h : create env writers src now = .ok arc) :
    ∃ ver wr text, WrittenAs env writers src now arc ver wr text := by
  unfold create at h
  split at h
  · cases h
  rename_i ver hv
  obtain ⟨acme, hac, h⟩ := bind_eq_ok.mp h
  obtain ⟨pki, hpk, h⟩ := bind_eq_ok.mp h
  have hfi : ((databaseFile, some (Leaf.regular src.snapshot)) :: (identityFile, src.identity) ::
      (acme ++ pki).map fun f => (f.1, some f.2)) = src.files := by
    rw [addDirectory_ok normal_acme hac, addDirectory_ok normal_pki hpk]
    simp [Source.files, Source.entries, join_databaseFile, join_identityFile, Function.comp_def]
  rw [hfi] at h
  obtain ⟨hcou, h⟩ := ite_error_eq_ok.mp h
  obtain ⟨s, hlo, h⟩ := bind_eq_ok.mp h
  obtain ⟨wr, hs, hen, hsi, hi⟩ := writeFiles_ok hlo
  have hp : (wr.map origin).Perm src.files := by
    rw [← hs]
    exact perm_insertionSort _ _
  unfold writeManifest at h
  rw [hen] at h
  split at h
  · cases h
  rename_i text ht
  obtain ⟨hb, h⟩ := ite_error_eq_ok.mp h
  split at h
  · cases h
  rename_i data ha
  cases h
  refine ⟨ver, wr, text, hv, hp, hi, ?_, ?_, ht, ha⟩
  · rw [totalSize_append, totalSize_singleton]
    rw [hsi] at hb
    dsimp only at hb ⊢
    omega
  · have hl := hp.length_eq
    rw [length_map] at hl
    rw [length_append, length_singleton]
    omega

/-! ## Names that are read back -/

/-- A name that the reader accepts and that JSON keeps. -/
structure Portable (name : Bytes) : Prop where
  noBackslash : (92 : UInt8) ∉ name
  noColon : (58 : UInt8) ∉ name
  text : ∃ s, utf8 s = name

theorem safe_join {ps : Path} (hne : ps ≠ []) (hn : ∀ part ∈ ps, Normal part) (hpo : Portable (join ps)) :
    safeArchivePath (join ps) = true := by
  have hel : ∀ part ∈ elements (join ps), Normal part := by
    rw [elements_join hne fun part hp => (hn part hp).noSlash]
    exact hn
  obtain ⟨hba, hco, -⟩ := hpo
  have hcl := clean_join hne hn
  generalize join ps = path at *
  -- no slash is at the front, and `..` is not the first element
  have hf : ∀ first rest, slash ∉ first → path = first ++ slash :: rest → Normal first := by
    rintro first rest hs rfl
    exact hel first (by rw [elements_append_slash hs]; exact mem_cons_self)
  have hni : path ≠ [] := by
    rintro rfl
    exact (hel [] (mem_singleton_self _)).ne_nil rfl
  have hu : path ≠ dotdot := by
    rintro rfl
    exact (hel dotdot (mem_singleton_self _)).ne_dotdot rfl
  have hr : path.head? ≠ some slash := by
    intro hh
    obtain ⟨rest, he⟩ := head?_eq_some_iff.mp hh
    exact (hf [] rest (by simp) he).ne_nil rfl
  have hpr : (dotdot ++ [slash]).isPrefixOf path = false := by
    rw [← Bool.not_eq_true, List.isPrefixOf_iff_prefix]
    rintro ⟨rest, he⟩
    exact (hf dotdot rest (by decide) (by rw [← he]; simp)).ne_dotdot rfl
  simp [safeArchivePath, hni, hba, hco, hcl, hr, hu, hpr]

/-- The names in the archive can be read back. -/
def Source.Portable (source : Source) : Prop := ∀ e ∈ source.entries, Backup.Portable (join e.1)

theorem Source.forall_entries {src : Source} {P : Path → Prop}
    (hd : P [utf8 "database", utf8 "mossward.db"]) (hi : P [utf8 "identity", utf8 "identity.key"])
    (ha : ∀ e ∈ src.acme.leaves, P (utf8 "acme" :: e.1))
    (hp : ∀ e ∈ src.pki.leaves, P (utf8 "agent-pki" :: e.1)) : ∀ e ∈ src.entries, P e.1 := by
  intro e he
  simp only [Source.entries, mem_cons, mem_append, mem_map] at he
  obtain rfl | rfl | ⟨e, he, rfl⟩ | ⟨e, he, rfl⟩ := he
  · exact hd
  · exact hi
  · exact ha e he
  · exact hp e he

theorem forall_cons {P : Bytes → Prop} {first : Bytes} {ps : Path} (hf : P first)
    (h : ∀ part ∈ ps, P part) : ∀ part ∈ first :: ps, P part :=
  forall_mem_cons.mpr ⟨hf, h⟩

theorem Source.normal (src : Source) : ∀ e ∈ src.entries, ∀ part ∈ e.1, Normal part := by
  refine Source.forall_entries (P := fun p => ∀ part ∈ p, Normal part) ?_ ?_ ?_ ?_
  · exact fun part hp => normal_of_bytes (by revert part; decide +kernel)
  · exact fun part hp => normal_of_bytes (by revert part; decide +kernel)
  · exact fun e he => forall_cons normal_acme (SourceDirectory.named he).2
  · exact fun e he => forall_cons normal_pki (SourceDirectory.named he).2

theorem Source.ne_nil (src : Source) : ∀ e ∈ src.entries, e.1 ≠ [] :=
  Source.forall_entries (P := fun p => p ≠ []) (by simp) (by simp) (fun _ _ => by simp) (fun _ _ => by simp)

theorem not_overlap_heads {a b : Bytes} (h : a ≠ b) (p q : Path) : ¬ Overlap (a :: p) (b :: q) := by
  simp [Overlap, h, h.symm]

theorem not_overlap_cons {a : Bytes} {p q : Path} (h : ¬ Overlap p q) : ¬ Overlap (a :: p) (a :: q) := by
  simpa [Overlap] using h

theorem Source.apart (src : Source) : src.entries.Pairwise fun a b => ¬ Overlap a.1 b.1 := by
  have hr : ∀ (dir : SourceDirectory) (root : Bytes),
      (dir.leaves.map fun e => (root :: e.1, some e.2)).Pairwise fun a b => ¬ Overlap a.1 b.1 := fun dir root =>
    pairwise_map.mpr (dir.apart.imp fun h => not_overlap_cons h)
  have hh : ∀ (dir : SourceDirectory) {root other : Bytes} (p : Path), other ≠ root →
      ∀ e ∈ dir.leaves.map (fun e => (root :: e.1, some e.2)), ¬ Overlap (other :: p) e.1 := by
    intro dir root other p hn e he
    obtain ⟨e', -, rfl⟩ := mem_map.mp he
    exact not_overlap_heads hn _ _
  refine pairwise_cons.mpr ⟨?_, pairwise_cons.mpr ⟨?_, pairwise_append.mpr ⟨hr _ _, hr _ _, ?_⟩⟩⟩
  · intro e he
    rcases mem_cons.mp he with rfl | he
    · exact not_overlap_heads (by decide +kernel) _ _
    · rcases mem_append.mp he with he | he <;> exact hh _ _ (by decide +kernel) e he
  · intro e he
    rcases mem_append.mp he with he | he <;> exact hh _ _ (by decide +kernel) e he
  · intro a ha b hb
    obtain ⟨e, -, rfl⟩ := mem_map.mp ha
    exact hh _ _ (by decide +kernel) b hb

theorem Source.elements_join {src : Source} {e : Path × Option Leaf} (he : e ∈ src.entries) :
    elements (join e.1) = e.1 :=
  L1.Paths.elements_join (src.ne_nil e he) fun part hp => (src.normal e he part hp).noSlash

theorem Source.apart_manifest (src : Source) : ∀ e ∈ src.entries, ¬ Overlap e.1 [manifestFile] :=
  Source.forall_entries (P := fun p => ¬ Overlap p [manifestFile]) (not_overlap_heads (by decide +kernel) _ _)
    (not_overlap_heads (by decide +kernel) _ _) (fun _ _ => not_overlap_heads (by decide +kernel) _ _)
    (fun _ _ => not_overlap_heads (by decide +kernel) _ _)

theorem isPrefixOf_join (root : Bytes) {rel : Path} (hr : rel ≠ []) :
    (root ++ [slash]).isPrefixOf (join (root :: rel)) = true := by
  obtain ⟨first, rest, rfl⟩ := exists_cons_of_ne_nil hr
  rw [join_cons_cons, List.isPrefixOf_iff_prefix]
  exact ⟨join (first :: rest), by simp⟩

theorem Source.allowed (src : Source) :
    ∀ e ∈ src.entries, allowedBackupEntry (join e.1) databaseFile = true := by
  have hr : ∀ root : Bytes, root ++ [slash] = acmeRoot ∨ root ++ [slash] = pkiRoot → ∀ {rel : Path}, rel ≠ [] →
      allowedBackupEntry (join (root :: rel)) databaseFile = true := by
    intro root hr rel hre
    have hp := isPrefixOf_join root hre
    rcases hr with heq | heq
    · rw [heq] at hp
      simp [allowedBackupEntry, hp]
    · rw [heq] at hp
      simp [allowedBackupEntry, hp]
  refine Source.forall_entries (P := fun p => allowedBackupEntry (join p) databaseFile = true) ?_ ?_ ?_ ?_
  · decide +kernel
  · decide +kernel
  · exact fun e he => hr _ (.inl (by decide +kernel)) (SourceDirectory.named he).1
  · exact fun e he => hr _ (.inr (by decide +kernel)) (SourceDirectory.named he).1

/-- What was written can be read back, if the names are texts. Of an archive that
is cut off, the reader finds the end only if it has read all of the entries. Names
in a manifest that was read are texts. -/
structure Lawful (env : Env) (writers : Writers) : Prop where
  archive : ∀ files data, writers.writeArchive files = some data →
    env.readArchive data = some ⟨files.map fun f => regular f.1 f.2, true⟩
  cut : ∀ files data n entries, writers.writeArchive files = some data →
    env.readArchive (data.take n) = some ⟨entries, true⟩ → entries = files.map fun f => regular f.1 f.2
  manifest : ∀ m text, writers.marshalManifest m = some text → (∀ e ∈ m.files, ∃ s, utf8 s = e.path) →
    env.unmarshalManifest text = some m
  texts : ∀ text m, env.unmarshalManifest text = some m → ∀ e ∈ m.files, ∃ s, utf8 s = e.path

/-- The reader finds the end of the archive within the first gibibyte. -/
def Ended (env : Env) (archive : Bytes) : Prop :=
  ∃ entries, env.readArchive (archive.take maximumArchiveBytes.toNat) = some ⟨entries, true⟩

/-! ## Restoring to empty targets -/

section
variable {τ : Type} {u : Surroundings τ} {t : RestoreTargets}

/-- A disk on which nothing fails. -/
def Steady (u : Surroundings τ) : Prop := ∀ op p, u.faults op p = false

theorem moveTargets_absent (hs : Steady u) (items : List (RestoreItem τ)) {s : Moved τ}
    (ha : ∀ item ∈ items, ∀ p, item.destination = some p → s.disk p = .absent) :
    items.foldlM (moveTarget u) s = .ok s := by
  induction items with
  | nil => rfl
  | cons item items ih =>
    have hf : moveTarget u s item = .ok s := by
      unfold moveTarget
      cases hd : item.destination with
      | none => rfl
      | some p =>
        have hp := ha item mem_cons_self p hd
        simp [hs .mkdirParent p, hs .stat p, hp, Content.found]
    rw [foldlM_cons, hf]
    exact ih fun item' hi => ha item' (mem_cons_of_mem _ hi)

theorem moveAuxiliaries_absent (hs : Steady u) {cells : List Path} (has : ∀ p ∈ t.auxiliaries, u.aside p ∉ cells)
    {s : Moved τ} (ha : ∀ p ∈ cells, s.disk p = .absent) :
    Yields (fun s' : Moved τ => ∀ p ∈ cells, s'.disk p = .absent) (t.auxiliaries.foldlM (moveAuxiliary u) s) := by
  refine Ends.foldlM (fun s h p hp => ?_) ha
  unfold moveAuxiliary
  split
  · rename_i hf
    unfold moveAside
    rw [if_neg (by simp [hs .rename p])]
    intro q hq
    have hn : q ≠ p := by
      rintro rfl
      rw [h q hq] at hf
      simp [Content.found] at hf
    have hn' : q ≠ u.aside p := by
      rintro rfl
      exact has p hp hq
    exact (rename_other s.disk hn hn').trans (h q hq)
  · exact h

theorem copyItem_absent (hst : Steady u) (all : List (RestoreItem τ)) (rcv : List (Path × Path))
    {item : RestoreItem τ} (hs : item.source = none → item.isDirectory = true) {d : Disk τ}
    (ha : ∀ p, item.destination = some p → d p = .absent) :
    Yields (fun d' : Disk τ => (∀ p body, item.destination = some p → item.source = some body → d' p = body) ∧
      ∀ p, item.destination ≠ some p → d' p = d p) (copyRestoreItem u all rcv d item) := by
  unfold copyRestoreItem
  split
  · rename_i hd
    exact ⟨fun p body hp => by simp [hd] at hp, fun p _ => rfl⟩
  · rename_i p hd hn
    rw [if_pos (hs hn)]
    exact ⟨fun q body _ hc => by simp [hn] at hc, fun q _ => rfl⟩
  · rename_i p body hd hc
    have hco : copyTo u d p body = .ok (Function.update d p body) := by
      unfold copyTo
      rw [ha p hd]
      simp [hst .copy p]
    rw [hco]
    constructor
    · intro q body' hq hc'
      obtain rfl : p = q := by simpa [hd] using hq
      obtain rfl : body = body' := by simpa [hc] using hc'
      exact Function.update_self _ _ _
    · intro q hq
      have hne : q ≠ p := fun he => hq (by rw [hd, he])
      exact Function.update_of_ne hne _ _

theorem copyItems_absent (hst : Steady u) (all : List (RestoreItem τ)) (rcv : List (Path × Path))
    (items : List (RestoreItem τ))
    (hd : items.Pairwise fun a b => ∀ p, a.destination = some p → b.destination ≠ some p)
    (hs : ∀ item ∈ items, item.source = none → item.isDirectory = true) {d : Disk τ}
    (ha : ∀ item ∈ items, ∀ p, item.destination = some p → d p = .absent) :
    Yields (fun d' : Disk τ =>
        (∀ item ∈ items, ∀ p body, item.destination = some p → item.source = some body → d' p = body) ∧
          ∀ p, (∀ item ∈ items, item.destination ≠ some p) → d' p = d p)
      (items.foldlM (copyRestoreItem u all rcv) d) := by
  induction items generalizing d with
  | nil => exact ⟨by simp, fun p _ => rfl⟩
  | cons item items ih =>
    obtain ⟨hfi, hot⟩ := pairwise_cons.mp hd
    refine Ends.bind (copyItem_absent hst all rcv (hs item mem_cons_self)
      (ha item mem_cons_self)) fun d1 ⟨hco, hf⟩ => ?_
    -- the later targets are still empty
    have ha1 : ∀ item' ∈ items, ∀ p, item'.destination = some p → d1 p = .absent := by
      intro item' hi p hp
      rw [hf p fun he => hfi item' hi p he hp]
      exact ha item' (mem_cons_of_mem _ hi) p hp
    obtain ⟨d', hd', hin, hou⟩ := (ih hot (fun item' hi => hs item' (mem_cons_of_mem _ hi)) ha1).exists_ok
    rw [hd']
    constructor
    · intro item' hi p body hp hc
      rcases mem_cons.mp hi with rfl | hi
      · rw [hou p fun other ho => hfi other ho p hp]
        exact hco p body hp hc
      · exact hin item' hi p body hp hc
    · intro p hp
      rw [hou p fun other ho => hp other (mem_cons_of_mem _ ho)]
      exact hf p (hp item mem_cons_self)

end

/-! ### The items of a backup -/

/-- The name of a file inside a directory of the archive. -/
def strip {α : Type} (root : Bytes) (f : Bytes × α) : Option (Bytes × α) :=
  if (root ++ [slash]).isPrefixOf f.1 then some (f.1.drop (root.length + 1), f.2) else none

theorem strip_manifest (h : (root ++ [slash]).isPrefixOf manifestFile = false) (text : Bytes) :
    strip root (manifestFile, text) = none := by
  simp [strip, h]

theorem extractedDirectory_eq {τ : Type} {w : World} {log : Log}
    (h : w.lookup log (w.directory ++ [root]) = some .dir) :
    extractedDirectory (τ := τ) w log root = some (.directory ((w.files log).filterMap (strip root))) := by
  unfold extractedDirectory
  rw [h]
  rfl

theorem strip_origin (root : Bytes) : strip root ∘ origin = fun f => (strip root f).map origin := by
  funext f
  unfold strip origin
  dsimp only [Function.comp]
  split <;> rfl

section
variable {first : Bytes} (hr : slash ∉ root) (hfi : slash ∉ first)
include hr hfi

theorem strip_entry {α : Type} {rel : Path} (hne : rel ≠ []) (x : α) :
    strip root (join (first :: rel), x) = if first = root then some (join rel, x) else none := by
  obtain ⟨snd, rest, rfl⟩ := exists_cons_of_ne_nil hne
  rw [join_cons_cons]
  unfold strip
  by_cases he : first = root
  · subst he
    simp
  rw [if_neg he, if_neg]
  rw [List.isPrefixOf_iff_prefix]
  -- the slash behind the root would end the first element
  rintro ⟨more, hm⟩
  have hel := congrArg elements hm
  rw [append_assoc, singleton_append, elements_append_slash hr, elements_append_slash hfi] at hel
  exact he (cons.inj hel).1.symm

theorem strip_leaves (dir : SourceDirectory) :
    (dir.leaves.map fun e => (join (first :: e.1), some e.2)).filterMap (strip root) =
      if first = root then dir.leaves.map fun e => (join e.1, some e.2) else [] := by
  rw [filterMap_map]
  refine (filterMap_congr fun e he => strip_entry hr hfi (SourceDirectory.named he).1 (some e.2)).trans ?_
  split
  · exact congrFun filterMap_eq_map' _
  · exact filterMap_none _

end

theorem Source.files_strip (src : Source) (hr : slash ∉ root) (hd : utf8 "database" ≠ root)
    (hi : utf8 "identity" ≠ root) :
    src.files.filterMap (strip root) =
      (if utf8 "acme" = root then src.acme.leaves.map fun e => (join e.1, some e.2) else []) ++
        if utf8 "agent-pki" = root then src.pki.leaves.map fun e => (join e.1, some e.2) else [] := by
  rw [← strip_leaves hr normal_acme.noSlash, ← strip_leaves hr normal_pki.noSlash, ← filterMap_append]
  rw [Source.files, Source.entries, map_cons, map_cons, map_append, map_map, map_map, filterMap_cons_none,
    filterMap_cons_none]
  · rfl
  · rw [strip_entry hr (by decide +kernel) (by simp), if_neg hi]
  · rw [strip_entry hr (by decide +kernel) (by simp), if_neg hd]

theorem Source.files_acme (src : Source) :
    src.files.filterMap (strip (utf8 "acme")) = src.acme.leaves.map fun e => (join e.1, some e.2) := by
  rw [src.files_strip normal_acme.noSlash (by decide +kernel) (by decide +kernel), if_pos rfl,
    if_neg (by decide +kernel), append_nil]

theorem Source.files_pki (src : Source) :
    src.files.filterMap (strip (utf8 "agent-pki")) = src.pki.leaves.map fun e => (join e.1, some e.2) := by
  rw [src.files_strip normal_pki.noSlash (by decide +kernel) (by decide +kernel), if_neg (by decide +kernel),
    if_pos rfl, nil_append]

section
variable {τ : Type} {env : Env} {writers : Writers} {source : Source} {now : Time} {archive : Bytes} {version : Int}
  {written : List (Bytes × Bytes)} {text : Bytes} {w : World} {log : Log}

/-- The files of a directory are at a path, and nothing else; a directory
without files may be missing. -/
def Reproduced (dir : SourceDirectory) (content : Content τ) : Prop :=
  dir.leaves ≠ [] → ∃ files, content = .directory files ∧
    (files.map fun f => (f.1, Leaf.regular f.2)).Perm (dir.leaves.map fun e => (join e.1, e.2))

/-- Every file of a backup is at its target again. -/
structure Restored (source : Source) (t : RestoreTargets) (d : Disk τ) : Prop where
  database : ∀ p, t.databaseFile = some p → d p = .file source.snapshot
  identity : ∀ p, t.identityKeyFile = some p →
    ∃ content, source.identity = some (.regular content) ∧ d p = .file content
  acme : ∀ p, t.acmeCacheDir = some p → Reproduced source.acme (d p)
  pki : ∀ p, t.agentPKIDir = some p → Reproduced source.pki (d p)

theorem mem_destinations {t : RestoreTargets} {item : RestoreItem τ} (h : item ∈ restoreItems w log t) {p : Path}
    (hp : item.destination = some p) : p ∈ t.destinations := by
  simp only [restoreItems, mem_cons, not_mem_nil, or_false] at h
  rw [RestoreTargets.destinations, mem_filterMap]
  refine ⟨item.destination, ?_, hp⟩
  obtain rfl | rfl | rfl | rfl := h <;> simp

theorem restoreItems_distinct {t : RestoreTargets} (hv : validateRestoreTargets t = true) :
    (restoreItems (τ := τ) w log t).Pairwise fun a b => ∀ p, a.destination = some p → b.destination ≠ some p := by
  have hpa : t.destinations.Pairwise fun p q => ¬ Overlap p q := of_decide_eq_true hv
  rw [RestoreTargets.destinations, pairwise_filterMap] at hpa
  have hm : [t.databaseFile, t.identityKeyFile, t.acmeCacheDir, t.agentPKIDir] =
      (restoreItems (τ := τ) w log t).map (·.destination) := rfl
  rw [hm, pairwise_map] at hpa
  refine hpa.imp ?_
  intro a b ha p hp hq
  exact ha p hp p hq (.inl (prefix_refl p))

variable (h : WrittenAs env writers source now archive version written text)
include h

theorem WrittenAs.entry {f : Bytes × Bytes} (hf : f ∈ written) : ∃ e ∈ source.entries, join e.1 = f.1 := by
  obtain ⟨e, he, hj⟩ := mem_map.mp (h.perm.mem_iff.mp (mem_map_of_mem hf))
  exact ⟨e, he, congrArg Prod.fst hj⟩

theorem WrittenAs.mem {e : Path × Option Leaf} (he : e ∈ source.entries) :
    ∃ body, e.2 = some (.regular body) ∧ (join e.1, body) ∈ written := by
  obtain ⟨f, hf, hj⟩ := mem_map.mp (h.perm.mem_iff.mpr (mem_map_of_mem he))
  have hn : f.1 = join e.1 := congrArg Prod.fst hj
  exact ⟨f.2, (congrArg Prod.snd hj).symm, hn ▸ hf⟩

theorem WrittenAs.unpackable (hsafe : ∀ f ∈ written, safeArchivePath f.1 = true) :
    Unpackable (written ++ [(manifestFile, text)]) where
  safe f hf := by
    rcases mem_append.mp hf with hf | hf
    · exact hsafe f hf
    · rw [mem_singleton.mp hf]
      show safeArchivePath manifestFile = true
      decide +kernel
  normal f hf := by
    rcases mem_append.mp hf with hf | hf
    · obtain ⟨e, he, hj⟩ := h.entry hf
      rw [← hj, Source.elements_join he]
      exact source.normal e he
    · rw [mem_singleton.mp hf]
      exact forall_cons (normal_of_bytes (by decide +kernel)) (by simp)
  apart := by
    refine pairwise_append.mpr ⟨?_, pairwise_singleton _ _, ?_⟩
    · have hpe : (written.map origin).Pairwise fun a b => ¬ Overlap (elements a.1) (elements b.1) := by
        refine h.perm.symm.pairwise (pairwise_map.mpr (source.apart.imp_of_mem ?_)) fun hab hba => hab hba.symm
        intro a b ha hb hab
        rwa [Source.elements_join ha, Source.elements_join hb]
      exact pairwise_map.mp hpe
    · intro f hf g hg
      obtain ⟨e, he, hj⟩ := h.entry hf
      rw [mem_singleton.mp hg, ← hj, Source.elements_join he]
      exact source.apart_manifest e he

theorem WrittenAs.snapshot_mem : (databaseFile, source.snapshot) ∈ written := by
  obtain ⟨body, hb, hm⟩ := h.mem mem_cons_self
  cases hb
  rwa [join_databaseFile] at hm

theorem WrittenAs.identity_mem :
    ∃ body, source.identity = some (.regular body) ∧ (identityFile, body) ∈ written := by
  obtain ⟨body, hb, hm⟩ := h.mem (mem_cons_of_mem _ mem_cons_self)
  exact ⟨body, hb, join_identityFile ▸ hm⟩

theorem WrittenAs.complete : Complete env version written where
  allowed f hf := by
    obtain ⟨e, he, hj⟩ := h.entry hf
    rw [← hj]
    exact source.allowed e he
  database := ⟨source.snapshot, h.snapshot_mem, h.snapshot⟩
  identity := by
    obtain ⟨body, -, hm⟩ := h.identity_mem
    exact ⟨body, hm, h.identity _ hm rfl⟩

theorem WrittenAs.safe (hp : source.Portable) : ∀ f ∈ written, safeArchivePath f.1 = true := by
  intro f hf
  obtain ⟨e, he, hj⟩ := h.entry hf
  rw [← hj]
  exact safe_join (source.ne_nil e he) (source.normal e he) (hp e he)

/-- **The reader accepts what the writer wrote.** -/
theorem WrittenAs.extract (hl : Lawful env writers) (hp : source.Portable) (hend : Ended env archive)
    {w : World} (hso : Sound w) :
    ∃ log, extractAndValidate env w archive = (log, .ok (manifestOf env version now written)) ∧
      Unpacked w ((written ++ [(manifestFile, text)]).map Prod.fst) (written ++ [(manifestFile, text)]) log := by
  have hu := h.unpackable (h.safe hp)
  obtain ⟨s, hlo, hex⟩ := (Extracted.loop hso hu h.size h.count).exists_ok
  have ht : env.unmarshalManifest text = some (manifestOf env version now written) := by
    refine hl.manifest _ _ h.marshalled ?_
    intro entry hen
    obtain ⟨f, hf, rfl⟩ := mem_map.mp hen
    obtain ⟨e, he, hj⟩ := h.entry hf
    obtain ⟨s, hs⟩ := (hp e he).text
    exact ⟨s, hs.trans hj⟩
  obtain ⟨entries, hread⟩ := hend
  obtain rfl := hl.cut _ _ _ _ h.archived hread
  refine ⟨s.log, ?_, hex.unpacked⟩
  unfold extractAndValidate
  rw [if_neg (by simp [hso .openArchive _]), hread]
  dsimp only
  rw [hlo]
  dsimp only
  rw [if_pos rfl, finish_written hso hu h.complete ht hex.unpacked]

theorem WrittenAs.ended (hl : Lawful env writers) (hle : (archive.length : Int) ≤ maximumArchiveBytes) :
    Ended env archive := by
  have hw : archive.take maximumArchiveBytes.toNat = archive := take_of_length_le (by omega)
  rw [Ended, hw]
  exact ⟨_, hl.archive _ _ h.archived⟩

omit h in
theorem extractEntry_safe (w : World) (s : Progress) (entry : TarEntry) :
    Ends (fun _ => safeArchivePath entry.name = true) (fun _ => True) (extractEntry w s entry) := by
  unfold extractEntry
  split
  · trivial
  rename_i hn
  have hsafe : safeArchivePath entry.name = true := by
    simp only [not_or, Bool.not_eq_false] at hn
    exact hn.2.1
  split
  · trivial
  split
  · trivial
  · cases place w s.log entry with
    | error e => trivial
    | ok log => exact hsafe

omit h in
theorem extractEntries_safe {w : World} {s s' : Progress} {entries : List TarEntry}
    (hlo : entries.foldlM (extractEntry w) s = .ok s') : ∀ entry ∈ entries, safeArchivePath entry.name = true := by
  have he : Ends (fun _ => ∀ entry ∈ entries, safeArchivePath entry.name = true) (fun _ => True)
      (entries.foldlM (extractEntry w) s) := by
    refine Ends.foldlM_done (P := fun (done : List TarEntry) _ =>
      ∀ entry ∈ done, safeArchivePath entry.name = true) ?_ (by simp)
    intro done entry rest _ s hdone
    refine (extractEntry_safe w s entry).mono ?_ fun _ => id
    intro _ hsafe
    exact forall_mem_append.mpr ⟨hdone, by simpa using hsafe⟩
  exact he.of_ok hlo

/-- **What the reader accepts, it can read back.** -/
theorem WrittenAs.portable (hl : Lawful env writers) {w : World} (hso : Sound w) {m : Manifest}
    (ha : (extractAndValidate env w archive).2 = .ok m) : source.Portable ∧ Ended env archive := by
  unfold extractAndValidate at ha
  split at ha
  · cases ha
  split at ha
  · cases ha
  rename_i stream hread
  split at ha
  · cases ha
  rename_i s hlo
  split at ha
  swap
  · cases ha
  rename_i hcomplete
  obtain ⟨entries, complete⟩ := stream
  obtain rfl : complete = true := hcomplete
  refine ⟨?_, entries, hread⟩
  obtain rfl := hl.cut _ _ _ _ h.archived hread
  have hsafe : ∀ f ∈ written, safeArchivePath f.1 = true := fun f hf =>
    extractEntries_safe hlo (regular f.1 f.2) (mem_map_of_mem (f := fun f => regular f.1 f.2) (mem_append_left _ hf))
  obtain ⟨s', hlo', hex⟩ := (Extracted.loop hso (h.unpackable hsafe) h.size h.count).exists_ok
  obtain rfl : s' = s := Except.ok.inj (hlo'.symm.trans hlo)
  have hnames := (finish_exact hex.unpacked.inv ha).1
  rw [hex.unpacked.listed] at hnames
  have htexts : ∀ e ∈ m.files, ∃ t, utf8 t = e.path := by
    obtain ⟨m', hm, hrest⟩ := bind_eq_ok.mp ha
    obtain ⟨_, -, hm'⟩ := bind_eq_ok.mp hrest
    cases hm'
    unfold readManifest at hm
    split at hm
    · cases hm
    split at hm
    · cases hm
    rename_i hun
    split at hm
    · cases hm
      exact hl.texts _ _ hun
    · cases hm
  intro e he
  obtain ⟨body, -, hf⟩ := h.mem he
  have hs := hsafe _ hf
  simp only [safeArchivePath, Bool.and_eq_true, Bool.not_eq_true', decide_eq_true_eq] at hs
  obtain ⟨⟨⟨⟨⟨⟨-, hba⟩, hco⟩, -⟩, -⟩, -⟩, -⟩ := hs
  refine ⟨by simpa using hba, by simpa using hco, ?_⟩
  rcases mem_cons.mp (hnames.subset (mem_map_of_mem (mem_append_left _ hf))) with hm | hm
  · exact ⟨"manifest.json", hm.symm⟩
  · obtain ⟨entry, hen, hpath⟩ := mem_map.mp hm
    obtain ⟨t, ht⟩ := htexts entry hen
    exact ⟨t, ht.trans hpath⟩

theorem WrittenAs.directory {names : List Bytes} (hl : Unpacked w names (written ++ [(manifestFile, text)]) log)
    {root : Bytes} (hm : strip root (manifestFile, text) = none) {dir : SourceDirectory}
    (hb : source.files.filterMap (strip root) = dir.leaves.map fun e => (join e.1, some e.2))
    (hen : ∀ e ∈ dir.leaves, (root :: e.1, some e.2) ∈ source.entries) (hn : dir.leaves ≠ []) :
    ∃ files, extractedDirectory (τ := τ) w log root = some (.directory files) ∧
      (files.map fun f => (f.1, Leaf.regular f.2)).Perm (dir.leaves.map fun e => (join e.1, e.2)) := by
  have hd : w.lookup log (w.directory ++ [root]) = some .dir := by
    obtain ⟨e, he⟩ := exists_mem_of_ne_nil _ hn
    obtain ⟨body, -, hme⟩ := h.mem (hen e he)
    refine lookup_of_mem hl.inv (hl.parents _ (mem_append_left _ hme) [root] (by simp) ?_)
    rw [Source.elements_join (hen e he), dropLast_cons_of_ne_nil (SourceDirectory.named he).1]
    exact ⟨_, rfl⟩
  refine ⟨_, extractedDirectory_eq hd, ?_⟩
  rw [hl.listed, filterMap_append, filterMap_cons_none hm, filterMap_nil, append_nil]
  have hp := h.perm.filterMap (strip root)
  rw [hb, filterMap_map, strip_origin, ← map_filterMap] at hp
  refine (map_perm_map_iff (Function.Injective.prodMap Function.injective_id (Option.some_injective _))).mp ?_
  rwa [map_map, map_map]

theorem WrittenAs.restored {names : List Bytes} (hs1 : Sound w)
    (hl : Unpacked w names (written ++ [(manifestFile, text)]) log) {u : Surroundings τ}
    (hst : Steady u) {t : RestoreTargets} (hv : validateRestoreTargets t = true)
    (has : ∀ p ∈ t.auxiliaries, u.aside p ∉ t.destinations) {d : Disk τ}
    (ha : ∀ p ∈ t.destinations, d p = .absent) :
    Yields (Restored source t) (install u t (restoreItems w log t) d) := by
  have hem : ∀ {d : Disk τ}, (∀ p ∈ t.destinations, d p = .absent) →
      ∀ item ∈ restoreItems (τ := τ) w log t, ∀ p, item.destination = some p → d p = .absent :=
    fun hd item hit p hp => hd p (mem_destinations hit hp)
  have hsn := h.snapshot_mem
  obtain ⟨idn, hsou, hi⟩ := h.identity_mem
  have hf : ∀ {name body : Bytes}, (name, body) ∈ written →
      extractedFile (τ := τ) w log name = some (.file body) := by
    intro name body hm
    rw [extractedFile, hl.readFile hs1 (mem_append_left _ hm)]
    rfl
  have hso : ∀ item ∈ restoreItems (τ := τ) w log t, item.source = none → item.isDirectory = true := by
    intro item hit hn
    simp only [restoreItems, hf hsn, hf hi, mem_cons, not_mem_nil, or_false] at hit
    obtain rfl | rfl | rfl | rfl := hit
    · cases hn
    · cases hn
    · rfl
    · rfl
  unfold install
  rw [moveTargets_absent hst _ (hem ha)]
  show Yields _ (t.auxiliaries.foldlM (moveAuxiliary u) ⟨d, []⟩ >>= _)
  refine Ends.bind (moveAuxiliaries_absent hst has ha) fun s hs => ?_
  obtain ⟨d', hd', hc, -⟩ :=
    (copyItems_absent hst (restoreItems w log t) s.recovery _ (restoreItems_distinct hv) hso
      (hem hs)).exists_ok
  rw [hd']
  have hc0 := fun p body => hc _ mem_cons_self p body
  have hc1 := fun p body => hc _ (mem_cons_of_mem _ mem_cons_self) p body
  refine ⟨fun p hp => hc0 p _ hp (hf hsn), fun p hp => ⟨idn, hsou, hc1 p _ hp (hf hi)⟩, ?_, ?_⟩
  · intro p hp hne
    obtain ⟨files, hfi, hpe⟩ := h.directory (τ := τ) hl (strip_manifest (by decide +kernel) _) source.files_acme
      (fun e he => mem_cons_of_mem _ (mem_cons_of_mem _ (mem_append_left _ (mem_map_of_mem he)))) hne
    exact ⟨files, hc _ (mem_cons_of_mem _ (mem_cons_of_mem _ mem_cons_self)) p _ hp hfi, hpe⟩
  · intro p hp hne
    obtain ⟨files, hfi, hpe⟩ := h.directory (τ := τ) hl (strip_manifest (by decide +kernel) _) source.files_pki
      (fun e he => mem_cons_of_mem _ (mem_cons_of_mem _ (mem_append_right _ (mem_map_of_mem he)))) hne
    exact ⟨files, hc _ (mem_cons_of_mem _ (mem_cons_of_mem _ (mem_cons_of_mem _ mem_cons_self))) p _ hp hfi, hpe⟩

end

/-- A source with one certificate of this name. -/
def oneSource (name : Bytes) (h : Normal name) : Source where
  snapshot := [1, 2]
  identity := some (.regular (smallKey 7).1)
  acme := .directory
    { leaves := [([name], .regular [3])]
      named := by
        intro e he
        rw [mem_singleton.mp he]
        exact ⟨by simp, forall_cons h (by simp)⟩
      apart := pairwise_singleton _ _ }
  pki := .missing

def oneFiles (name : Bytes) : List (Bytes × Bytes) :=
  [(join [utf8 "acme", name], [3]), (databaseFile, [1, 2]), (identityFile, (smallKey 7).1)]

/-- Writers for the backup of `oneSource` only. -/
def oneWriter (name : Bytes) : Writers where
  marshalManifest m := if m = manifestOf smallEnv 1 Time.zero (oneFiles name) then some [] else none
  writeArchive files := if files = oneFiles name ++ [(manifestFile, [])] then some [1] else none

def oneEnv (name : Bytes) : Env :=
  { smallEnv with
    unmarshalManifest := fun _ => some (manifestOf smallEnv 1 Time.zero (oneFiles name))
    readArchive := fun _ => some ⟨(oneFiles name ++ [(manifestFile, [])]).map
      fun f : Bytes × Bytes => regular f.1 f.2, true⟩ }

theorem lawful_one (name : String) : Lawful (oneEnv (utf8 name)) (oneWriter (utf8 name)) where
  archive files data h := by
    simp only [oneWriter, Option.ite_none_right_eq_some] at h
    obtain ⟨rfl, -⟩ := h
    rfl
  cut files data n entries h he := by
    simp only [oneWriter, Option.ite_none_right_eq_some] at h
    obtain ⟨rfl, -⟩ := h
    cases he
    rfl
  manifest m text h _ := by
    simp only [oneWriter, Option.ite_none_right_eq_some] at h
    obtain ⟨rfl, -⟩ := h
    rfl
  texts text m h e he := by
    cases h
    simp only [manifestOf, oneFiles, map_cons, map_nil, mem_cons, not_mem_nil, or_false, manifestEntry] at he
    rcases he with rfl | rfl | rfl
    · refine ⟨"acme/" ++ name, ?_⟩
      rw [utf8_append, join_cons_cons, join_singleton]
      rfl
    · exact ⟨_, rfl⟩
    · exact ⟨_, rfl⟩

def oneTargets : RestoreTargets where
  databaseFile := some [utf8 "db"]
  identityKeyFile := some [utf8 "key"]
  acmeCacheDir := some [utf8 "certs"]
  agentPKIDir := none
  workingDirectory := []

def calmSurroundings : Surroundings Unit := ⟨utf8 ".old", fun _ _ => false, fun _ => .absent⟩

end Mossward.L4.Backup
