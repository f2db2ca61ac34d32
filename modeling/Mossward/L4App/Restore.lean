import Mossward.L4App.Archive

/-!
# Restoring a backup (`internal/serverbackup/restore.go`)

`Restore` unpacks and checks an archive, moves what is at the targets aside,
and copies the files of the archive to them. The `-wal` and `-shm` files of the
database are moved aside with it. On most errors the files are moved back.

The disk maps a path to what it holds: nothing, a file, a directory with its
files, anything else, or a symbolic link that leads nowhere. `os.Stat` follows
links, so for it the last is the same as nothing, while creating a file there
fails. Any operation before the rollback may fail (`faults`), and a copy that
fails leaves anything behind (`leftover`).

Result: `restore_failure_undone`.
-/
namespace Mossward.L4.Restore

open L4.Archive List Function
open L1.Paths (join)

/-! ## The disk -/

/-- What a path holds; `τ` stands for all that is not modelled further. -/
inductive Content (τ : Type)
  | absent
  | file (content : Bytes)
  | directory (files : List (Bytes × Bytes))
  | other (x : τ)
  | dangling (x : τ)
deriving DecidableEq

/-- Whether `os.Stat` finds something. -/
def Content.found {τ : Type} : Content τ → Bool
  | .absent | .dangling _ => false
  | _ => true

abbrev Disk (τ : Type) : Type := Path → Content τ

section
variable {τ : Type}

def Disk.removeAll (d : Disk τ) (p : Path) : Disk τ := update d p .absent

def Disk.rename (d : Disk τ) (p q : Path) : Disk τ := update (update d q (d p)) p .absent

end

/-- The operations that may fail. -/
inductive DiskOp
  | mkdirParent | stat | rename | copy
deriving DecidableEq

/-! ## Targets -/

/-- The targets of a restore as absolute paths; one that is not set is
skipped. -/
structure RestoreTargets where
  databaseFile : Option Path
  identityKeyFile : Option Path
  acmeCacheDir : Option Path
  agentPKIDir : Option Path
  workingDirectory : Path

/-- A path with more text at its end. -/
def extend (p : Path) (suffix : Bytes) : Path := p.dropLast ++ [p.getLast?.getD [] ++ suffix]

/-- `targets.DatabaseFile + suffix`; without a database file that is a name in
the working directory. -/
def RestoreTargets.auxiliary (t : RestoreTargets) (suffix : Bytes) : Path :=
  match t.databaseFile with
  | some p => extend p suffix
  | none => t.workingDirectory ++ [suffix]

def RestoreTargets.auxiliaries (t : RestoreTargets) : List Path :=
  [t.auxiliary (utf8 "-wal"), t.auxiliary (utf8 "-shm")]

def RestoreTargets.destinations (t : RestoreTargets) : List Path :=
  [t.databaseFile, t.identityKeyFile, t.acmeCacheDir, t.agentPKIDir].filterMap id

/-- Every path whose content the call may move. -/
def RestoreTargets.paths (t : RestoreTargets) : List Path := t.destinations ++ t.auxiliaries

/-- One lies inside the other. -/
def Overlap (p q : Path) : Prop := p <+: q ∨ q <+: p

instance (p q : Path) : Decidable (Overlap p q) := inferInstanceAs (Decidable (_ ∨ _))

/-- Mirrors `restore.go:101-126`. -/
def validateRestoreTargets (t : RestoreTargets) : Bool :=
  decide (t.destinations.Pairwise fun p q => ¬ Overlap p q)

/-! ## The call -/

structure RestoreItem (τ : Type) where
  destination : Option Path
  source : Option (Content τ)
  isDirectory : Bool

inductive RestoreError
  | overlap
  | archive (e : ExtractError)
  | postgresql
  | parent (p : Path)      -- the parent directory of a target cannot be made
  | stat (p : Path)
  | preserve (p : Path)    -- a target cannot be moved aside
  | copying (p : Path)
deriving DecidableEq

/-- What the call is given besides the archive: the suffix of this moment, what
will fail and what a failed copy leaves behind. -/
structure Surroundings (τ : Type) where
  suffix : Bytes
  faults : DiskOp → Path → Bool
  leftover : Path → Content τ

/-- Where a target is moved to. -/
def Surroundings.aside {τ : Type} (u : Surroundings τ) (p : Path) : Path := extend p u.suffix

structure Moved (τ : Type) where
  disk : Disk τ
  recovery : List (Path × Path)

section
variable {τ : Type}

/-- Mirrors `restore.go:166-171`. -/
def rollbackRestore (recovery : List (Path × Path)) (d : Disk τ) : Disk τ :=
  recovery.foldl (fun d r => (d.removeAll r.1).rename r.2 r.1) d

def moveAside (u : Surroundings τ) (s : Moved τ) (p : Path) : Except (RestoreError × Disk τ) (Moved τ) :=
  if u.faults .rename p then .error (.preserve p, rollbackRestore s.recovery s.disk)
  else .ok ⟨s.disk.rename p (u.aside p), s.recovery ++ [(p, u.aside p)]⟩

/-- One target. Mirrors `restore.go:50-69`: a parent that cannot be made ends
the call without a rollback. -/
def moveTarget (u : Surroundings τ) (s : Moved τ) (item : RestoreItem τ) :
    Except (RestoreError × Disk τ) (Moved τ) :=
  match item.destination with
  | none => .ok s
  | some p =>
    if u.faults .mkdirParent p then .error (.parent p, s.disk)
    else if u.faults .stat p then .error (.stat p, rollbackRestore s.recovery s.disk)
    else if (s.disk p).found then moveAside u s p
    else .ok s

/-- One of the files next to the database; an error of `os.Stat` is ignored.
Mirrors `restore.go:70-79`. -/
def moveAuxiliary (u : Surroundings τ) (s : Moved τ) (p : Path) : Except (RestoreError × Disk τ) (Moved τ) :=
  if u.faults .stat p = false ∧ (s.disk p).found then moveAside u s p else .ok s

/-- Copies to a path at which nothing is. What is there otherwise stays. -/
def copyTo (u : Surroundings τ) (d : Disk τ) (p : Path) (content : Content τ) : Except (Disk τ) (Disk τ) :=
  match d p with
  | .absent =>
    if u.faults .copy p then .error (update d p (u.leftover p)) else .ok (update d p content)
  | _ => .error d

/-- The removal of all targets and the rollback. -/
def undo (items : List (RestoreItem τ)) (recovery : List (Path × Path)) (d : Disk τ) : Disk τ :=
  rollbackRestore recovery ((items.filterMap (·.destination)).foldl Disk.removeAll d)

/-- Copies one item; `items` and `recovery` are for the way back. Mirrors
`restore.go:80-94`. -/
def copyRestoreItem (u : Surroundings τ) (items : List (RestoreItem τ)) (recovery : List (Path × Path))
    (d : Disk τ) (item : RestoreItem τ) : Except (RestoreError × Disk τ) (Disk τ) :=
  match item.destination, item.source with
  | none, _ => .ok d
  | some p, none => if item.isDirectory then .ok d else .error (.copying p, undo items recovery d)
  | some p, some content =>
    match copyTo u d p content with
    | .ok d => .ok d
    | .error d => .error (.copying p, undo items recovery d)

/-- Moves the targets aside and installs the items. Mirrors
`restore.go:48-99`. -/
def install (u : Surroundings τ) (t : RestoreTargets) (items : List (RestoreItem τ)) (d : Disk τ) :
    Except (RestoreError × Disk τ) (Disk τ) := do
  let s ← items.foldlM (moveTarget u) ⟨d, []⟩
  let s ← t.auxiliaries.foldlM (moveAuxiliary u) s
  items.foldlM (copyRestoreItem u items s.recovery) s.disk

/-! ### The items of an archive -/

/-- An extracted file. -/
def extractedFile (w : World) (log : Log) (name : Bytes) : Option (Content τ) :=
  (w.readFile log (w.place name)).map .file

/-- The files of an extracted directory by their names in it; `none` if there
is no such directory. -/
def extractedDirectory (w : World) (log : Log) (root : Bytes) : Option (Content τ) :=
  match w.lookup log (w.directory ++ [root]) with
  | some .dir => some (.directory ((w.files log).filterMap fun f =>
      if (root ++ [L1.Paths.slash]).isPrefixOf f.1 then some (f.1.drop (root.length + 1), f.2) else none))
  | _ => none

/-- Mirrors `restore.go:42-47`. -/
def restoreItems (w : World) (log : Log) (t : RestoreTargets) : List (RestoreItem τ) :=
  [⟨t.databaseFile, extractedFile w log databaseFile, false⟩,
    ⟨t.identityKeyFile, extractedFile w log identityFile, false⟩,
    ⟨t.acmeCacheDir, extractedDirectory w log (utf8 "acme"), true⟩,
    ⟨t.agentPKIDir, extractedDirectory w log (utf8 "agent-pki"), true⟩]

/-- The disk afterwards and the error, if any. Mirrors `restore.go:30-99`. -/
def restore (env : Env) (w : World) (archive : Bytes) (u : Surroundings τ) (t : RestoreTargets) (d : Disk τ) :
    Except (RestoreError × Disk τ) (Disk τ) :=
  if validateRestoreTargets t = false then .error (.overlap, d)
  else
    match extractAndValidate env w archive with
    | (_, .error e) => .error (.archive e, d)
    | (log, .ok m) =>
      if m.backend = "postgresql" then .error (.postgresql, d)
      else install u t (restoreItems w log t) d

end

/-! ## The way back -/

section
variable {τ : Type} {u : Surroundings τ} {cells : List Path} {d : Disk τ}

/-- The paths that targets are moved to are none of the targets, and different
targets go to different paths. -/
structure Apart (u : Surroundings τ) (cells : List Path) : Prop where
  aside_ne : ∀ p ∈ cells, ∀ q ∈ cells, u.aside p ≠ q
  aside_inj : ∀ p ∈ cells, ∀ q ∈ cells, u.aside p = u.aside q → p = q

theorem rename_self (d : Disk τ) (p q : Path) : d.rename p q p = .absent := update_self _ _ _

variable {p : Path}

theorem rename_target (d : Disk τ) {q : Path} (h : q ≠ p) : d.rename p q q = d p := by
  rw [Disk.rename, update_of_ne h, update_self]

theorem rename_other (d : Disk τ) {q r : Path} (hp : r ≠ p) (hq : r ≠ q) : d.rename p q r = d r := by
  rw [Disk.rename, update_of_ne hp, update_of_ne hq]

theorem removeAll_other (d : Disk τ) {r : Path} (h : r ≠ p) : d.removeAll p r = d r := update_of_ne h _ _

theorem foldl_removeAll (ps : List Path) (d : Disk τ) (r : Path) :
    ps.foldl Disk.removeAll d r = if r ∈ ps then .absent else d r := by
  induction ps generalizing d with
  | nil => simp
  | cons p ps ih =>
    rw [foldl_cons, ih]
    by_cases hr : r = p
    · subst hr
      simp [Disk.removeAll]
    · simp [removeAll_other d hr, hr]

/-- **The rollback** gives every target that was moved what lies aside, and
leaves the other targets alone. -/
theorem rollback_cells (h : Apart u cells) {rcv : List (Path × Path)}
    (hr : ∀ r ∈ rcv, r.1 ∈ cells ∧ r.2 = u.aside r.1) (hn : (rcv.map Prod.fst).Nodup)
    (d : Disk τ) (hp : p ∈ cells) :
    rollbackRestore rcv d p = if p ∈ rcv.map Prod.fst then d (u.aside p) else d p := by
  induction rcv generalizing d with
  | nil => rfl
  | cons r rcv ih =>
    obtain ⟨hm, ha⟩ := hr r mem_cons_self
    obtain ⟨hf, hre⟩ := nodup_cons.mp hn
    have hst := ih (fun r' hr' => hr r' (mem_cons_of_mem _ hr')) hre
    show rollbackRestore rcv ((d.removeAll r.1).rename r.2 r.1) p = _
    rw [hst, ha]
    by_cases hpr : p = r.1
    · -- the path that is moved back in this turn, and not in a later one
      subst hpr
      have hne : r.1 ≠ u.aside r.1 := (h.aside_ne r.1 hm r.1 hm).symm
      rw [if_neg hf, if_pos (by simp), rename_target _ hne, removeAll_other _ hne.symm]
    have hs : u.aside p ≠ u.aside r.1 := fun he => hpr (h.aside_inj p hp r.1 hm he)
    simp only [map_cons, mem_cons, hpr, false_or]
    split
    · rw [rename_other _ hs (h.aside_ne p hp r.1 hm), removeAll_other _ (h.aside_ne p hp r.1 hm)]
    · rw [rename_other _ (h.aside_ne r.1 hm p hp).symm hpr, removeAll_other _ hpr]

/-! ## Moving aside -/

/-- What was moved lies aside, and everything else is as it was. -/
structure MoveInv (u : Surroundings τ) (cells : List Path) (d : Disk τ) (s : Moved τ) : Prop where
  recovery : ∀ r ∈ s.recovery, r.1 ∈ cells ∧ r.2 = u.aside r.1
  nodup : (s.recovery.map Prod.fst).Nodup
  aside : ∀ r ∈ s.recovery, s.disk (u.aside r.1) = d r.1
  gone : ∀ r ∈ s.recovery, s.disk r.1 = .absent
  renamed : ∀ r ∈ s.recovery, u.faults .rename r.1 = false
  there : ∀ r ∈ s.recovery, (d r.1).found = true
  rest : ∀ p ∈ cells, p ∉ s.recovery.map Prod.fst → s.disk p = d p

theorem MoveInv.start (u : Surroundings τ) (cells : List Path) (d : Disk τ) : MoveInv u cells d ⟨d, []⟩ :=
  ⟨by simp, nodup_nil, by simp, by simp, by simp, by simp, fun _ _ _ => rfl⟩

variable {s : Moved τ}

theorem MoveInv.rollback (h : Apart u cells) (hs : MoveInv u cells d s) (hp : p ∈ cells) :
    rollbackRestore s.recovery s.disk p = d p := by
  rw [rollback_cells h hs.recovery hs.nodup s.disk hp]
  split
  · rename_i hm
    obtain ⟨r, hr, rfl⟩ := mem_map.mp hm
    exact hs.aside r hr
  · rename_i hm
    exact hs.rest p hp hm

/-- What holds after one or more moves: the invariant, and nothing comes back
to a target that was empty. -/
def Advance (u : Surroundings τ) (cells : List Path) (d : Disk τ) (s s' : Moved τ) : Prop :=
  MoveInv u cells d s' ∧ ∀ q ∈ cells, (s.disk q).found = false → (s'.disk q).found = false

/-- A failed move leaves every target as it was. -/
def Undone (cells : List Path) (d : Disk τ) (e : RestoreError × Disk τ) : Prop := ∀ p ∈ cells, e.2 p = d p

/-- What is found at a target was not moved yet, and is what was there. -/
theorem MoveInv.of_found (hs : MoveInv u cells d s) (hp : p ∈ cells)
    (hf : (s.disk p).found = true) : p ∉ s.recovery.map Prod.fst ∧ (d p).found = true := by
  have hn : p ∉ s.recovery.map Prod.fst := by
    intro hm
    obtain ⟨r, hr, rfl⟩ := mem_map.mp hm
    rw [hs.gone r hr] at hf
    cases hf
  refine ⟨hn, ?_⟩
  rw [← hs.rest p hp hn]
  exact hf

theorem MoveInv.moved (h : Apart u cells) (hs : MoveInv u cells d s) (hp : p ∈ cells)
    (hn : p ∉ s.recovery.map Prod.fst) (hf : (d p).found = true) (hfa : u.faults .rename p = false) :
    MoveInv u cells d ⟨s.disk.rename p (u.aside p), s.recovery ++ [(p, u.aside p)]⟩ where
  recovery r hr := by
    rcases mem_append.mp hr with hr | hr
    · exact hs.recovery r hr
    · rw [mem_singleton.mp hr]
      exact ⟨hp, rfl⟩
  nodup := by
    rw [map_append, nodup_append]
    refine ⟨hs.nodup, nodup_singleton _, ?_⟩
    intro a ha b hb he
    obtain rfl : b = p := mem_singleton.mp hb
    exact hn (he ▸ ha)
  aside r hr := by
    dsimp only
    rcases mem_append.mp hr with hr | hr
    · obtain ⟨hm, -⟩ := hs.recovery r hr
      have hne : u.aside r.1 ≠ u.aside p := by
        intro he
        exact hn (h.aside_inj r.1 hm p hp he ▸ mem_map_of_mem hr)
      rw [rename_other _ (h.aside_ne r.1 hm p hp) hne]
      exact hs.aside r hr
    · obtain rfl := mem_singleton.mp hr
      rw [rename_target _ (h.aside_ne p hp p hp)]
      exact hs.rest p hp hn
  gone r hr := by
    dsimp only
    rcases mem_append.mp hr with hr | hr
    · obtain ⟨hm, -⟩ := hs.recovery r hr
      have hne : r.1 ≠ p := fun he => hn (he ▸ mem_map_of_mem hr)
      rw [rename_other _ hne (h.aside_ne p hp r.1 hm).symm]
      exact hs.gone r hr
    · obtain rfl := mem_singleton.mp hr
      exact rename_self _ _ _
  renamed r hr := by
    rcases mem_append.mp hr with hr | hr
    · exact hs.renamed r hr
    · rw [mem_singleton.mp hr]
      exact hfa
  there r hr := by
    rcases mem_append.mp hr with hr | hr
    · exact hs.there r hr
    · rw [mem_singleton.mp hr]
      exact hf
  rest q hq hm := by
    dsimp only at hm ⊢
    rw [map_append, mem_append, not_or] at hm
    have hne : q ≠ p := fun he => hm.2 (by simp [he])
    rw [rename_other _ hne (h.aside_ne p hp q hq).symm]
    exact hs.rest q hq hm.1

theorem MoveInv.moveAside (h : Apart u cells) (hs : MoveInv u cells d s) (hp : p ∈ cells)
    (hf : (s.disk p).found = true) :
    Ends (fun s' => u.faults .rename p = false ∧ Advance u cells d s s' ∧ (s'.disk p).found = false ∧
        s'.recovery = s.recovery ++ [(p, u.aside p)])
      (fun e => u.faults .rename p = true ∧ Undone cells d e) (moveAside u s p) := by
  unfold Restore.moveAside
  split
  · rename_i hfa
    exact ⟨hfa, fun q hq => hs.rollback h hq⟩
  rename_i hfa
  have hfa : u.faults .rename p = false := by simpa using hfa
  have hg : (s.disk.rename p (u.aside p) p).found = false := by
    rw [rename_self]
    rfl
  refine ⟨hfa, ⟨hs.moved h hp (hs.of_found hp hf).1 (hs.of_found hp hf).2 hfa, ?_⟩, hg, rfl⟩
  intro q hq he
  by_cases hn : q = p
  · rw [hn]
    exact hg
  · dsimp only
    rw [rename_other _ hn (h.aside_ne p hp q hq).symm]
    exact he

/-- A target that is not found any more was not there, or was moved. -/
theorem MoveInv.of_not_found (hs : MoveInv u cells d s) (hp : p ∈ cells) (hf : (s.disk p).found = false) :
    (d p).found = false ∨ u.faults .rename p = false := by
  by_cases hm : p ∈ s.recovery.map Prod.fst
  · obtain ⟨r, hr, rfl⟩ := mem_map.mp hm
    exact .inr (hs.renamed r hr)
  · rw [← hs.rest p hp hm]
    exact .inl hf

theorem MoveInv.recovery_nil (hs : MoveInv u cells d s) (hn : ∀ r ∈ s.recovery, (d r.1).found = false) :
    s.recovery = [] := by
  apply eq_nil_iff_forall_not_mem.mpr
  intro r hmem
  have hf := hs.there r hmem
  rw [hn r hmem] at hf
  cases hf

/-- Nothing fails when the target is moved aside. -/
def Surroundings.passes (u : Surroundings τ) (d : Disk τ) (p : Path) : Bool :=
  !u.faults .mkdirParent p && !u.faults .stat p && !((d p).found && u.faults .rename p)

/-- Nor when a file next to the database is; an error of `os.Stat` is none. -/
def Surroundings.passesAuxiliary (u : Surroundings τ) (d : Disk τ) (p : Path) : Bool :=
  u.faults .stat p || !((d p).found && u.faults .rename p)

/-- If the first target that fails does so because its parent directory cannot be
made, then no target before it was there. -/
def ParentsHold (u : Surroundings τ) (d : Disk τ) (ps : List Path) : Prop :=
  ∀ p ∈ (ps.dropWhile (u.passes d)).head?, u.faults .mkdirParent p = true →
    ∀ q ∈ ps.takeWhile (u.passes d), (d q).found = false

theorem parentsHold_at {pre post : List Path} (hpre : ∀ q ∈ pre, u.passes d q = true) (hp : u.passes d p = false) :
    ParentsHold u d (pre ++ p :: post) ↔ (u.faults .mkdirParent p = true → ∀ q ∈ pre, (d q).found = false) := by
  unfold ParentsHold
  rw [dropWhile_append_of_pos hpre, takeWhile_append_of_pos hpre]
  simp [hp]

/-- An error at a target whose parent directory was made, with the targets put back. -/
theorem undone_with_parents {pre post : List Path} {e : RestoreError × Disk τ} (hpre : ∀ q ∈ pre, u.passes d q = true)
    (hm : u.faults .mkdirParent p = false) (hp : u.passes d p = false) (he : Undone cells d e) :
    (Undone cells d e ↔ ParentsHold u d (pre ++ p :: post)) ∧ ∃ q ∈ pre ++ p :: post, u.passes d q = false := by
  rw [parentsHold_at hpre hp]
  exact ⟨iff_of_true he (by simp [hm]), p, by simp, hp⟩

theorem parentsHold_of_passes {ps : List Path} (h : ∀ p ∈ ps, u.passes d p = true) : ParentsHold u d ps := by
  unfold ParentsHold
  rw [dropWhile_eq_nil_iff.mpr h]
  simp

variable {items : List (RestoreItem τ)}

/-- The targets that are set. -/
abbrev targets (items : List (RestoreItem τ)) : List Path := items.filterMap (·.destination)

/-- **The first loop.** It ends with every target out of the way. If it fails,
every target is as it was, unless a parent directory failed after a move. -/
theorem moveTargets_ends (h : Apart u cells) (hc : ∀ p ∈ targets items, p ∈ cells) :
    Ends (fun s => MoveInv u cells d s ∧ (∀ p ∈ targets items, (s.disk p).found = false) ∧
        ∀ p ∈ targets items, u.passes d p = true)
      (fun e => (Undone cells d e ↔ ParentsHold u d (targets items)) ∧ ∃ p ∈ targets items, u.passes d p = false)
      (items.foldlM (moveTarget u) ⟨d, []⟩) := by
  -- what was moved so far was there from the start
  refine (Ends.foldlM_done (P := fun done s => MoveInv u cells d s ∧
    (∀ p ∈ targets done, (s.disk p).found = false ∧ u.passes d p = true) ∧
    ∀ r ∈ s.recovery, r.1 ∈ targets done) ?_
    ⟨MoveInv.start u cells d, by simp, by simp⟩).mono
    (fun s hs => ⟨hs.1, fun p hp => (hs.2.1 p hp).1, fun p hp => (hs.2.1 p hp).2⟩) fun _ => id
  rintro done item rest rfl s ⟨hs, hg, hr⟩
  unfold moveTarget
  cases hd : item.destination with
  | none =>
    have ht : targets (done ++ [item]) = targets done := by simp [hd]
    rw [ht]
    exact ⟨hs, hg, hr⟩
  | some p =>
    have ht : targets (done ++ [item]) = targets done ++ [p] := by simp [hd]
    have hall : targets (done ++ item :: rest) = targets done ++ p :: targets rest := by simp [hd]
    rw [hall] at hc ⊢
    rw [ht]
    have hp : p ∈ cells := hc p (by simp)
    have hpre : ∀ q ∈ targets done, u.passes d q = true := fun q hq => (hg q hq).2
    have hr' : ∀ r ∈ s.recovery, r.1 ∈ targets done ++ [p] := fun r hm => mem_append_left _ (hr r hm)
    dsimp only
    split
    · rename_i hm
      have hpa : u.passes d p = false := by simp [Surroundings.passes, hm]
      rw [parentsHold_at hpre hpa]
      refine ⟨⟨fun hu _ q hq => ?_, fun hn q hq => ?_⟩, p, by simp, hpa⟩
      · rw [← hu q (hc q (mem_append_left _ hq))]
        exact (hg q hq).1
      · -- nothing was moved so far
        have hnil : s.recovery = [] := hs.recovery_nil fun r hmem => hn hm r.1 (hr r hmem)
        exact hs.rest q hq (by simp [hnil])
    rename_i hm
    have hm : u.faults .mkdirParent p = false := by simpa using hm
    split
    · rename_i hst
      exact undone_with_parents hpre hm (by simp [Surroundings.passes, hst]) fun q hq => hs.rollback h hq
    rename_i hst
    have hst : u.faults .stat p = false := by simpa using hst
    split
    · rename_i hf
      have hdf := (hs.of_found hp hf).2
      refine (hs.moveAside h hp hf).mono ?_ fun e he =>
        undone_with_parents hpre hm (by simp [Surroundings.passes, hdf, he.1]) he.2
      rintro s' ⟨hfa, ⟨hi, hk⟩, he, hrec⟩
      refine ⟨hi, forall_mem_append.mpr ⟨fun q hq => ⟨hk q (hc q (mem_append_left _ hq)) (hg q hq).1,
        hpre q hq⟩, ?_⟩, ?_⟩
      · simpa [Surroundings.passes, hm, hst, hfa] using he
      · rw [hrec]
        exact forall_mem_append.mpr ⟨hr', by simp⟩
    · rename_i he
      have he : (s.disk p).found = false := by simpa using he
      refine ⟨hs, forall_mem_append.mpr ⟨hg, ?_⟩, hr'⟩
      rcases hs.of_not_found hp he with hdf | hfa
      · simpa [Surroundings.passes, hm, hst, hdf] using he
      · simpa [Surroundings.passes, hm, hst, hfa] using he

/-- **The second loop.** -/
theorem MoveInv.auxiliaries (h : Apart u cells) {ps : List Path} (hc : ∀ p ∈ ps, p ∈ cells)
    (hs : MoveInv u cells d s) :
    Ends (fun s' => Advance u cells d s s' ∧ ∀ p ∈ ps, u.passesAuxiliary d p = true)
      (fun e => Undone cells d e ∧ ∃ p ∈ ps, u.passesAuxiliary d p = false)
      (ps.foldlM (moveAuxiliary u) s) := by
  refine Ends.foldlM_done (P := fun done s' => Advance u cells d s s' ∧ ∀ p ∈ done, u.passesAuxiliary d p = true)
    ?_ ⟨⟨hs, fun _ _ hq => hq⟩, by simp⟩
  rintro done p rest rfl s' ⟨hs', hdone⟩
  have hp : p ∈ cells := hc p (by simp)
  unfold moveAuxiliary
  split
  · rename_i hf
    have hdf := (hs'.1.of_found hp hf.2).2
    refine (hs'.1.moveAside h hp hf.2).mono ?_ ?_
    · rintro s'' ⟨hfa, ⟨hi, hk⟩, -, -⟩
      refine ⟨⟨hi, fun q hq hq' => hk q hq (hs'.2 q hq hq')⟩, forall_mem_append.mpr ⟨hdone, ?_⟩⟩
      simp [Surroundings.passesAuxiliary, hfa]
    · rintro e ⟨hfa, he⟩
      exact ⟨he, p, by simp, by simp [Surroundings.passesAuxiliary, hf.1, hdf, hfa]⟩
  · rename_i hf
    refine ⟨hs', forall_mem_append.mpr ⟨hdone, ?_⟩⟩
    simp only [mem_singleton, forall_eq, Surroundings.passesAuxiliary]
    cases hst : u.faults .stat p with
    | true => rfl
    | false =>
      have he : (s'.disk p).found = false := by simpa [hst] using hf
      rcases hs'.1.of_not_found hp he with hdf | hfa
      · simp [hdf]
      · simp [hfa]

/-! ## Copying -/

/-- Copies change the targets of the items and nothing else. -/
def CopyFrame (ps : List Path) (d d' : Disk τ) : Prop := ∀ q, q ∉ ps → d' q = d q

theorem copyTo_frame {ps : List Path} (hp : p ∈ ps) {d0 d : Disk τ} (hd : CopyFrame ps d0 d)
    (body : Content τ) : Ends (CopyFrame ps d0) (CopyFrame ps d0) (copyTo u d p body) := by
  have hu : ∀ c, CopyFrame ps d0 (update d p c) := by
    intro c q hq
    have hn : q ≠ p := fun he => hq (he ▸ hp)
    rw [update_of_ne hn]
    exact hd q hq
  unfold copyTo
  split
  · split <;> exact hu _
  · exact hd

theorem undo_cells (h : Apart u cells) (hs : MoveInv u cells d s) (hce : ∀ p ∈ targets items, p ∈ cells)
    (he : ∀ p ∈ targets items, (s.disk p).found = false)
    {d' : Disk τ} (hf : CopyFrame (targets items) s.disk d') (hp : p ∈ cells) :
    undo items s.recovery d' p = if p ∈ targets items ∧ (d p).found = false then .absent else d p := by
  have ha : ∀ q ∈ cells, u.aside q ∉ targets items := fun q hq hme => h.aside_ne q hq _ (hce _ hme) rfl
  rw [undo, rollback_cells h hs.recovery hs.nodup _ hp, foldl_removeAll, foldl_removeAll, if_neg (ha p hp)]
  by_cases hm : p ∈ s.recovery.map Prod.fst
  · obtain ⟨r, hr, rfl⟩ := mem_map.mp hm
    rw [if_pos hm, hf _ (ha r.1 hp), hs.aside r hr]
    split
    · rename_i hd
      have hab := hs.there r hr
      rw [hd.2] at hab
      cases hab
    · rfl
  rw [if_neg hm, ← hs.rest p hp hm]
  by_cases hd : p ∈ targets items
  · rw [if_pos hd, if_pos ⟨hd, he p hd⟩]
  · rw [if_neg hd, if_neg (fun hn => hd hn.1), hf p hd]

/-- A target that was not moved is empty afterwards; a link that leads nowhere was
not. -/
theorem undone_undo (h : Apart u cells) (hs : MoveInv u cells d s) (hce : ∀ p ∈ targets items, p ∈ cells)
    (he : ∀ p ∈ targets items, (s.disk p).found = false)
    {d' : Disk τ} (hf : CopyFrame (targets items) s.disk d') (err : RestoreError) :
    Undone cells d (err, undo items s.recovery d') ↔ ∀ p ∈ targets items, ∀ x, d p ≠ .dangling x := by
  constructor
  · intro hu p hp x hx
    have hc : undo items s.recovery d' p = d p := hu p (hce p hp)
    rw [undo_cells h hs hce he hf (hce p hp), hx, if_pos ⟨hp, rfl⟩] at hc
    cases hc
  · intro hl p hp
    show undo items s.recovery d' p = d p
    rw [undo_cells h hs hce he hf hp]
    split
    · rename_i hd
      cases hc : d p with
      | absent => rfl
      | dangling x => exact absurd hc (hl p hd.1 x)
      | _ => simp [hc, Content.found] at hd
    · rfl

/-- **The third loop.** -/
theorem copy_undone (h : Apart u cells) (hs : MoveInv u cells d s) (hce : ∀ p ∈ targets items, p ∈ cells)
    (he : ∀ p ∈ targets items, (s.disk p).found = false) :
    Ends (CopyFrame (targets items) s.disk)
      (fun e => Undone cells d e ↔ ∀ p ∈ targets items, ∀ x, d p ≠ .dangling x)
      (items.foldlM (copyRestoreItem u items s.recovery) s.disk) := by
  refine Ends.foldlM ?_ fun _ _ => rfl
  intro d' hf item hi
  unfold copyRestoreItem
  split
  · exact hf
  · split
    · exact hf
    · exact undone_undo h hs hce he hf _
  · rename_i p body hd hso
    have hp : p ∈ targets items := mem_filterMap.mpr ⟨item, hi, hd⟩
    have hc := copyTo_frame (u := u) hp hf body
    split
    · rename_i d'' hr
      rw [hr] at hc
      exact hc
    · rename_i d'' hr
      rw [hr] at hc
      exact undone_undo h hs hce he hc _

/-- What must hold for a failure of the installation to be undone: if the parent
directory of a target is what fails first, no target before it is there; and if
everything can be moved aside, so that a copy is what fails, no target is a link
that leads nowhere. -/
structure Recoverable (u : Surroundings τ) (t : RestoreTargets) (d : Disk τ) : Prop where
  parents : ParentsHold u d t.destinations
  links : (∀ p ∈ t.destinations, u.passes d p = true) → (∀ p ∈ t.auxiliaries, u.passesAuxiliary d p = true) →
    ∀ p ∈ t.destinations, ∀ x, d p ≠ .dangling x

theorem install_undone {t : RestoreTargets} (h : Apart u t.paths) (hi : targets items = t.destinations) :
    Ends (fun _ => True) (fun e => Undone t.paths d e ↔ Recoverable u t d) (install u t items d) := by
  have hc : ∀ p ∈ targets items, p ∈ t.paths := by
    rw [hi]
    exact fun p hp => mem_append_left _ hp
  have hmove := moveTargets_ends (u := u) (d := d) h hc
  rw [hi] at hmove
  refine (hmove.mono (fun _ => id) ?_).bind fun s hs => ?_
  · rintro e ⟨hu, p, hp, hpa⟩
    rw [hu]
    refine ⟨fun hpar => ⟨hpar, fun hall => ?_⟩, fun hrec => hrec.parents⟩
    rw [hall p hp] at hpa
    cases hpa
  obtain ⟨hin, he, hall⟩ := hs
  have hpar := parentsHold_of_passes hall
  have ha : ∀ p ∈ t.auxiliaries, p ∈ t.paths := fun p hp => mem_append_right _ hp
  refine ((MoveInv.auxiliaries h ha hin).mono (fun _ => id) ?_).bind fun s' hs' => ?_
  · rintro e ⟨hu, p, hp, hpa⟩
    refine iff_of_true hu ⟨hpar, fun _ haux => ?_⟩
    rw [haux p hp] at hpa
    cases hpa
  obtain ⟨⟨hi', hk⟩, haux⟩ := hs'
  rw [← hi] at he
  have he' : ∀ p ∈ targets items, (s'.disk p).found = false := fun p hp => hk p (hc p hp) (he p hp)
  refine (copy_undone h hi' hc he').mono (fun _ _ => trivial) fun e hu => ?_
  rw [hu, hi]
  exact ⟨fun hl => ⟨hpar, fun _ _ => hl⟩, fun hrec => hrec.links hall haux⟩

end

/-! ## The result -/

section
variable {τ : Type}

/-- The layout for which a path holds what it holds whatever happens to the
others: different ones of the targets, the files next to the database and the paths
that these are moved to do not lie inside one another. -/
structure Separate (u : Surroundings τ) (t : RestoreTargets) : Prop extends Apart u t.paths where
  inside : ∀ p ∈ t.paths ++ t.paths.map u.aside, ∀ q ∈ t.paths ++ t.paths.map u.aside, p <+: q → p = q

/-- The targets and the archive are accepted. -/
def Installs (env : Env) (w : World) (archive : Bytes) (t : RestoreTargets) : Prop :=
  validateRestoreTargets t = true ∧
    ∃ log m, extractAndValidate env w archive = (log, .ok m) ∧ m.backend ≠ "postgresql"

theorem restoreItems_destinations (w : World) (log : Log) (t : RestoreTargets) :
    targets (restoreItems (τ := τ) w log t) = t.destinations := rfl

end

/-! ## A small server -/

/-- `/d/db` and `/i/key`, and no directories. -/
def smallTargets : RestoreTargets :=
  ⟨some [utf8 "d", utf8 "db"], some [utf8 "i", utf8 "key"], none, none, [utf8 "w"]⟩

/-- A disk with this database and identity key. -/
def smallDisk (database identity : Content Unit) : Disk Unit := fun p =>
  if p = [utf8 "d", utf8 "db"] then database else if p = [utf8 "i", utf8 "key"] then identity else .absent

/-- One operation fails; a failed copy leaves one byte. -/
def failing (op : DiskOp) (path : Path) : Surroundings Unit :=
  ⟨utf8 ".old", fun o p => o = op && p = path, fun _ => .file [0]⟩

/-- The error and the disk of a call. -/
def outcome {τ : Type} : Except (RestoreError × Disk τ) (Disk τ) → Option RestoreError × Disk τ
  | .ok d => (none, d)
  | .error (e, d) => (some e, d)

theorem outcome_error {τ : Type} {x : Except (RestoreError × Disk τ) (Disk τ)} {e : RestoreError}
    (h : (outcome x).1 = some e) : x = .error (e, (outcome x).2) := by
  cases x with
  | ok d => cases h
  | error p =>
    cases h
    rfl

end Mossward.L4.Restore
