import Mossward.Core.Bytes
import Mossward.Core.Run
import Mossward.L1Encoding.Names

/-!
# Modules of the endpoint agent (`internal/agentapp/module.go`)

The server offers releases of modules at every check-in, or the one offer that
disables all modules. The agent installs a release that it does not have,
keeps what was installed before it, and goes back to that after repeated
failures. The state is the map in the file that every call reads and writes as a
whole. What `Verify` and the other checks make of an envelope and its package
are parameters (`Env`). Failures of the file system are left out, and a count of
crashes does not overflow.

Results: `disabled_unless_failure`, `rolledBack_unless_offered`, `installed_checked`.
-/
namespace Mossward.L4.AgentModules

open L1.Names (trimSpace)
open Run Option Function

def maximumModuleCrashes : Int := 3

inductive ModuleKind
  | declarative
  | native
deriving DecidableEq

/-- The fields of a manifest that are read behind its checks. -/
structure Manifest where
  id : String
  version : String
  kind : ModuleKind
deriving DecidableEq

structure Offer where
  releaseID : String
  envelope : Bytes
  disabled : Bool
deriving DecidableEq

/-- The directory of a package, below that of the modules. -/
structure PackagePath where
  id : String
  version : String
deriving DecidableEq

structure InstalledModule where
  releaseID : String
  manifest : Manifest
  healthy : Bool
  crashCount : Int
  error : String
  installedAt : Int
  previousPath : Option PackagePath
  previousReleaseID : String
  previousManifest : Option Manifest
deriving DecidableEq

abbrev State : Type := String → Option InstalledModule

inductive ModuleError
  | envelope            -- publisher, signature, manifest or package of the envelope
  | incompatible
  | declarativePackage
  | nativePackage
  | notInstalled
deriving DecidableEq

/-- What is asked of other packages. -/
structure Env where
  /-- The manifest and the package of an envelope that a trusted publisher
  signed. -/
  verify : Bytes → Except ModuleError (Manifest × Bytes)
  /-- Whether a manifest is for this agent. -/
  compatible : Manifest → Bool
  validateDeclarativePackage : Bytes → Manifest → Bool
  installNativeEntrypoint : Bytes → Manifest → Bool

/-! ## Calls -/

/-- The entry of a new release next to the one it replaces. Mirrors
`module.go:108-115`. -/
def newModule (offer : Offer) (manifest : Manifest) (current : Option InstalledModule) (now : Int) :
    InstalledModule where
  releaseID := offer.releaseID
  manifest := manifest
  healthy := true
  crashCount := 0
  error := ""
  installedAt := now
  previousPath := current.map fun c => ⟨c.manifest.id, c.manifest.version⟩
  previousReleaseID := (current.map (·.releaseID)).getD ""
  previousManifest := current.map (·.manifest)

/-- The part behind the checks of the envelope. Mirrors `module.go:87-123`. -/
def installRelease (env : Env) (s : State) (offer : Offer) (manifest : Manifest) (package : Bytes) (now : Int) :
    State × Except ModuleError Unit :=
  if (s manifest.id).any fun current => current.releaseID = offer.releaseID then (s, .ok ())
  else if manifest.kind = .native ∧ env.installNativeEntrypoint package manifest = false then
    (s, .error .nativePackage)
  else (update s manifest.id (some (newModule offer manifest (s manifest.id) now)), .ok ())

/-- Mirrors `module.go:67-124`. -/
def installModuleOffer (env : Env) (s : State) (offer : Offer) (now : Int) : State × Except ModuleError Unit :=
  match env.verify offer.envelope with
  | .error e => (s, .error e)
  | .ok (manifest, package) =>
    if env.compatible manifest = false then (s, .error .incompatible)
    else if manifest.kind = .declarative ∧ env.validateDeclarativePackage package manifest = false then
      (s, .error .declarativePackage)
    else installRelease env s offer manifest package now

/-- The loop over the offers ends at the first error. -/
def installOffers (env : Env) (now : Int) : State → List Offer → State × Except ModuleError Unit
  | s, [] => (s, .ok ())
  | s, offer :: offers =>
    match installModuleOffer env s offer now with
    | (s', .error e) => (s', .error e)
    | (s', .ok _) => installOffers env now s' offers

/-- Mirrors `module.go:216-227`. -/
def disableAllModules (s : State) : State := fun id =>
  (s id).map fun module => { module with healthy := false, error := "disabled by server emergency control" }

/-- The one offer that disables all modules. -/
def isDisable : List Offer → Bool
  | [offer] => offer.disabled
  | _ => false

/-- Mirrors `module.go:55-65`. -/
def applyModuleOffers (env : Env) (s : State) (offers : List Offer) (now : Int) : State × Except ModuleError Unit :=
  if isDisable offers then (disableAllModules s, .ok ()) else installOffers env now s offers

/-- A module after one more failure. Mirrors `module.go:152-160`. -/
def failedModule (module : InstalledModule) (message : String) : InstalledModule :=
  let module := { module with
    crashCount := module.crashCount + 1
    error := String.ofList (trimSpace message.toList)
    healthy := module.crashCount + 1 < maximumModuleCrashes }
  match module.previousPath, module.previousManifest with
  | some _, some manifest =>
    if module.healthy then module
    else
      { module with
        releaseID := module.previousReleaseID
        manifest := manifest
        healthy := true
        crashCount := 0
        error := "rolled back after repeated failures"
        previousPath := none
        previousReleaseID := ""
        previousManifest := none }
  | _, _ => module

/-- Mirrors `module.go:143-163`. -/
def recordModuleFailure (s : State) (moduleID message : String) : State × Except ModuleError Unit :=
  match s moduleID with
  | none => (s, .error .notInstalled)
  | some module => (update s moduleID (some (failedModule module message)), .ok ())

/-! ## Histories -/

inductive Op
  | applyOffers (offers : List Offer) (now : Int)
  | recordFailure (moduleID message : String)
deriving DecidableEq

def step (env : Env) (s : State) : Op → State
  | .applyOffers offers now => (applyModuleOffers env s offers now).1
  | .recordFailure moduleID message => (recordModuleFailure s moduleID message).1

def Op.isDisable : Op → Bool
  | .applyOffers offers _ => AgentModules.isDisable offers
  | .recordFailure _ _ => false

/-- The operation offers no release. -/
def Op.offersNothing : Op → Bool
  | .applyOffers offers _ => offers.isEmpty || AgentModules.isDisable offers
  | .recordFailure _ _ => true

/-- The offer passes every check, as one of this manifest. -/
def Accepted (env : Env) (offer : Offer) (manifest : Manifest) : Prop :=
  ∃ package, env.verify offer.envelope = .ok (manifest, package) ∧ env.compatible manifest = true ∧
    (manifest.kind = .declarative → env.validateDeclarativePackage package manifest = true) ∧
    (manifest.kind = .native → env.installNativeEntrypoint package manifest = true)

/-! ## One call -/

section
variable {env : Env} {s : State} {id : String}

theorem install_cases (env : Env) (s : State) (offer : Offer) (now : Int) :
    (installModuleOffer env s offer now).1 = s ∨
      ∃ mf, Accepted env offer mf ∧ (∀ cur, s mf.id = some cur → cur.releaseID ≠ offer.releaseID) ∧
        (installModuleOffer env s offer now).1 =
          update s mf.id (some (newModule offer mf (s mf.id) now)) := by
  unfold installModuleOffer
  cases hv : env.verify offer.envelope with
  | error e => exact .inl rfl
  | ok opened =>
    obtain ⟨mf, package⟩ := opened
    dsimp only
    split
    · exact .inl rfl
    rename_i hc
    split
    · exact .inl rfl
    rename_i hd
    unfold installRelease
    split
    · exact .inl rfl
    rename_i hr
    split
    · exact .inl rfl
    rename_i hn
    refine .inr ⟨mf, ⟨package, hv, by simpa using hc, ?_, ?_⟩, ?_, rfl⟩
    · intro hk
      simpa [hk] using hd
    · intro hk
      simpa [hk] using hn
    · intro cur hcu he
      simp [hcu, he] at hr

theorem installOffers_entry {P : Option InstalledModule → Prop} {ofs : List Offer} (now : Int)
    (hi : ∀ offer ∈ ofs, ∀ mf cur, Accepted env offer mf → mf.id = id →
      (∀ c, cur = some c → c.releaseID ≠ offer.releaseID) → P cur → P (some (newModule offer mf cur now)))
    (h : P (s id)) : P ((installOffers env now s ofs).1 id) := by
  induction ofs generalizing s with
  | nil => exact h
  | cons offer ofs ih =>
    have hf : P ((installModuleOffer env s offer now).1 id) := by
      rcases install_cases env s offer now with hs | ⟨mf, ha, hn, hin⟩
      · rw [hs]
        exact h
      rw [hin]
      by_cases hid : id = mf.id
      · subst hid
        rw [update_self]
        exact hi offer List.mem_cons_self mf _ ha rfl hn h
      · rw [update_of_ne hid]
        exact h
    unfold installOffers
    split
    · rename_i s' e hr
      rw [hr] at hf
      exact hf
    · rename_i s' hr
      rw [hr] at hf
      exact ih (fun offer' ho => hi offer' (List.mem_cons_of_mem _ ho)) hf

/-- What an operation does to the entry of a module: what every kind of change
keeps, the operation keeps. -/
theorem step_entry {P : Option InstalledModule → Prop} {op : Op}
    (hi : ∀ ofs now, op = .applyOffers ofs now → isDisable ofs = false → ∀ offer ∈ ofs,
      ∀ mf cur, Accepted env offer mf → mf.id = id →
      (∀ c, cur = some c → c.releaseID ≠ offer.releaseID) → P cur → P (some (newModule offer mf cur now)))
    (hd : op.isDisable = true → ∀ md, P (some md) →
      P (some { md with healthy := false, error := "disabled by server emergency control" }))
    (hf : ∀ msg, op = .recordFailure id msg → ∀ md, P (some md) → P (some (failedModule md msg)))
    (h : P (s id)) : P (step env s op id) := by
  cases op with
  | applyOffers ofs now =>
    rw [step, applyModuleOffers]
    split
    · rename_i ho
      show P ((s id).map _)
      cases hm : s id with
      | none =>
        rw [hm] at h
        exact h
      | some md =>
        rw [hm] at h
        exact hd ho md h
    · rename_i ho
      exact installOffers_entry now (hi ofs now rfl (by simpa using ho)) h
  | recordFailure moduleID msg =>
    rw [step, recordModuleFailure]
    split
    · exact h
    rename_i md hm
    dsimp only
    by_cases hid : id = moduleID
    · subst hid
      rw [hm] at h
      rw [update_self]
      exact hf msg rfl md h
    · rw [update_of_ne hid]
      exact h

end

/-! ## Emergency disable -/

/-- A module without crashes is healthy. -/
def Ready (entry : Option InstalledModule) : Prop :=
  ∀ module, entry = some module → module.crashCount = 0 → module.healthy = true

/-- Not healthy, if there at all. -/
def Off (entry : Option InstalledModule) : Prop :=
  ∀ module, entry = some module → module.healthy = false

theorem ready_newModule (offer : Offer) (mf : Manifest) (cur : Option InstalledModule) (now : Int) :
    Ready (some (newModule offer mf cur now)) := by
  intro md hm _
  obtain rfl := some.inj hm
  rfl

theorem ready_failedModule (md : InstalledModule) (msg : String) : Ready (some (failedModule md msg)) := by
  intro md' hm hc
  obtain rfl := some.inj hm
  have hco (h : md.crashCount + 1 = 0) : md.crashCount + 1 < maximumModuleCrashes := by
    rw [h]
    decide
  revert hc
  unfold failedModule
  dsimp only
  split
  · split
    · intro _
      assumption
    · intro _
      rfl
  · intro hc
    exact decide_eq_true (hco hc)

section
variable {env : Env} {s : State} {id : String} {op : Op}

theorem ready_step (ho : op.isDisable = false) (h : Ready (s id)) : Ready (step env s op id) := by
  apply step_entry
  · intro ofs now _ _ offer _ mf cur _ _ _ _
    exact ready_newModule offer mf cur now
  · intro hd
    rw [ho] at hd
    contradiction
  · intro msg _ md _
    exact ready_failedModule md msg
  · exact h

theorem release_disable (hop : op.isDisable = true) :
    (step env s op id).map (·.releaseID) = (s id).map (·.releaseID) := by
  cases op with
  | applyOffers ofs now =>
    have ho : isDisable ofs = true := hop
    rw [step, applyModuleOffers, if_pos ho]
    show ((s id).map _).map _ = _
    rw [map_map]
    rfl
  | recordFailure moduleID msg => contradiction

/-- A module whose release has just changed is ready, whatever it was before. -/
theorem ready_of_release_change
    (hc : (step env s op id).map (·.releaseID) ≠ (s id).map (·.releaseID)) : Ready (step env s op id) := by
  have h : (step env s op id).map (·.releaseID) = (s id).map (·.releaseID) ∨ Ready (step env s op id) := by
    apply step_entry (P := fun entry => entry.map (·.releaseID) = (s id).map (·.releaseID) ∨ Ready entry)
    · intro ofs now _ _ offer _ mf cur _ _ _ _
      exact .inr (ready_newModule offer mf cur now)
    · intro hd
      exact absurd (release_disable hd) hc
    · intro msg _ md _
      exact .inr (ready_failedModule md msg)
    · exact .inl rfl
  exact h.resolve_left hc

/-- Without new offers and without a failure of its own, a module that is off
stays off. -/
theorem off_step (hop : op.offersNothing = true) (hi : ∀ msg, op ≠ .recordFailure id msg)
    (h : Off (s id)) : Off (step env s op id) := by
  apply step_entry
  · intro ofs now he ho offer hof
    subst he
    obtain rfl : ofs = [] := by simpa [Op.offersNothing, ho] using hop
    cases hof
  · intro _ md _ md' hm
    obtain rfl := some.inj hm
    rfl
  · intro msg he
    exact absurd he (hi msg)
  · exact h

end

/-- **Emergency disable.** After the disable offer, and any calls after it that
offer no release and failures of modules, a module is off if none of the failures
was its own. An installed release that a call without the disable offer offers
again is healthy, if it has no crashes and no disable offer came since the
operation that installed it. -/
theorem disabled_unless_failure (env : Env) (id : String) (s : State) :
    (∀ disable now ops, isDisable disable = true → (∀ op ∈ ops, op.offersNothing = true) →
      (∀ message, Op.recordFailure id message ∉ ops) →
      ∀ module, run (step env) s (.applyOffers disable now :: ops) id = some module → module.healthy = false) ∧
    (∀ op ops, (step env s op id).map (·.releaseID) ≠ (s id).map (·.releaseID) →
      (∀ op' ∈ ops, op'.isDisable = false) →
      ∀ offers now s', isDisable offers = false →
        applyModuleOffers env (run (step env) s (op :: ops)) offers now = (s', .ok ()) →
      ∀ offer ∈ offers, ∀ manifest, Accepted env offer manifest → manifest.id = id →
      ∀ module, s' id = some module → module.releaseID = offer.releaseID → module.crashCount = 0 →
        module.healthy = true) := by
  constructor
  · intro disable now ops hd ho hi
    have ho1 : Off (step env s (.applyOffers disable now) id) := by
      intro module hm
      rw [step, applyModuleOffers, if_pos hd] at hm
      obtain ⟨md', _, rfl⟩ := map_eq_some_iff.mp hm
      rfl
    rw [run_cons]
    refine run_invariant_mem (I := fun s : State => Off (s id)) ?_ ho1
    intro s op hop h
    exact off_step (ho op hop) (fun message he => hi message (he ▸ hop)) h
  · intro op ops hch ho offers now s' hof hca offer _ manifest _ _ module hm _ hc
    have hr : Ready (run (step env) s (op :: ops) id) := by
      rw [run_cons]
      refine run_invariant_mem (I := fun s : State => Ready (s id)) ?_ (ready_of_release_change hch)
      intro s op' hop h
      exact ready_step (ho op' hop) h
    have hl : Ready (step env (run (step env) s (op :: ops)) (.applyOffers offers now) id) :=
      ready_step hof hr
    rw [step, hca] at hl
    exact hl module hm hc

/-- An agent that accepts every envelope, as one of the module `probe`. -/
def smallEnv : Env where
  verify envelope := .ok (⟨"probe", "1.0.0", .declarative⟩, envelope)
  compatible _ := true
  validateDeclarativePackage _ _ := true
  installNativeEntrypoint _ _ := true

def firstOffer : Offer := ⟨"r1", [1], false⟩

def secondOffer : Offer := ⟨"r2", [2], false⟩

def disableOffer : Offer := ⟨"", [], true⟩

theorem accepted_small (offer : Offer) : Accepted smallEnv offer ⟨"probe", "1.0.0", .declarative⟩ :=
  ⟨offer.envelope, rfl, rfl, fun _ => rfl, fun h => absurd h (by decide)⟩

theorem disabled_unless_failure_small : (∀ module, run (step smallEnv) (fun _ => none)
        [.applyOffers [firstOffer] 0, .applyOffers [disableOffer] 1, .applyOffers [] 2,
          .recordFailure "other" "exit 1"] "probe" =
      some module → module.healthy = false) ∧
    (∀ s', applyModuleOffers smallEnv (run (step smallEnv) (fun _ => none)
        [.applyOffers [disableOffer] 0, .applyOffers [firstOffer] 1]) [firstOffer] 2 = (s', .ok ()) →
      ∀ module, s' "probe" = some module → module.releaseID = "r1" → module.crashCount = 0 →
        module.healthy = true) :=
  ⟨(disabled_unless_failure smallEnv "probe" (step smallEnv (fun _ => none) (.applyOffers [firstOffer] 0))).1
      [disableOffer] 1 [.applyOffers [] 2, .recordFailure "other" "exit 1"] rfl (by decide) (by simp),
    fun s' hcall => (disabled_unless_failure smallEnv "probe" (step smallEnv (fun _ => none)
        (.applyOffers [disableOffer] 0))).2 (.applyOffers [firstOffer] 1) [] (by decide) (by simp) [firstOffer] 2
      s' rfl hcall firstOffer (by simp) _ (accepted_small firstOffer) rfl⟩

/-- A failure of a disabled module makes it healthy again. And the release that
is installed stays disabled when it is offered again: the offer is taken as
done. -/
theorem disable_not_effective :
    (run (step smallEnv) (fun _ => none) [.applyOffers [firstOffer] 0, .applyOffers [disableOffer] 1,
      .recordFailure "probe" "exit 1"] "probe").map (·.healthy) = some true ∧
    (applyModuleOffers smallEnv (run (step smallEnv) (fun _ => none) [.applyOffers [firstOffer] 0,
        .applyOffers [disableOffer] 1]) [firstOffer] 2).2.isOk = true ∧
    ((applyModuleOffers smallEnv (run (step smallEnv) (fun _ => none) [.applyOffers [firstOffer] 0,
        .applyOffers [disableOffer] 1]) [firstOffer] 2).1 "probe").map
      (fun module => (module.releaseID, module.crashCount, module.healthy)) = some ("r1", 0, false) := by
  decide

/-! ## Rollback -/

/-- The next failure of the module rolls it back. -/
def InstalledModule.RollsBack (module : InstalledModule) : Prop :=
  maximumModuleCrashes ≤ module.crashCount + 1 ∧ module.previousPath ≠ none ∧ module.previousManifest ≠ none

/-- A module remembers another release than its own. -/
def Distinct (entry : Option InstalledModule) : Prop :=
  ∀ module, entry = some module → module.previousPath ≠ none → module.previousReleaseID ≠ module.releaseID

/-- Release `r` is neither installed nor what a rollback would install. -/
def Without (r : String) (entry : Option InstalledModule) : Prop :=
  ∀ module, entry = some module → module.releaseID ≠ r ∧ (module.previousPath ≠ none → module.previousReleaseID ≠ r)

theorem failedModule_releases (md : InstalledModule) (msg : String) :
    ((failedModule md msg).releaseID = md.releaseID ∧
        (failedModule md msg).previousReleaseID = md.previousReleaseID ∧
        (failedModule md msg).previousPath = md.previousPath ∧ ¬ md.RollsBack) ∨
      ((failedModule md msg).releaseID = md.previousReleaseID ∧
        (failedModule md msg).previousPath = none ∧ md.RollsBack) := by
  unfold failedModule InstalledModule.RollsBack
  dsimp only
  split
  · rename_i path mf hp hm
    split
    · rename_i hh
      refine .inl ⟨rfl, rfl, rfl, fun h => ?_⟩
      simp only [decide_eq_true_eq] at hh
      omega
    · rename_i hh
      refine .inr ⟨rfl, rfl, ?_, by simp [hp], by simp [hm]⟩
      simp only [decide_eq_true_eq] at hh
      omega
  · rename_i hn
    refine .inl ⟨rfl, rfl, rfl, fun h => ?_⟩
    obtain ⟨path, hp⟩ := ne_none_iff_exists'.mp h.2.1
    obtain ⟨mf, hm⟩ := ne_none_iff_exists'.mp h.2.2
    exact hn path mf hp hm

section
variable {env : Env} {s : State} {id : String} {op : Op}

theorem distinct_step (h : Distinct (s id)) : Distinct (step env s op id) := by
  apply step_entry
  · intro ofs now _ _ offer _ mf cur _ _ hn _ md hm hp
    obtain rfl := some.inj hm
    cases cur with
    | none => exact absurd rfl hp
    | some c => exact hn c rfl
  · intro _ md hm md' hm'
    obtain rfl := some.inj hm'
    exact hm md rfl
  · intro msg _ md hm md' hm' hp
    obtain rfl := some.inj hm'
    rcases failedModule_releases md msg with ⟨hr, hr', hpa, -⟩ | ⟨-, hpa, -⟩
    · rw [hr, hr']
      exact hm md rfl (hpa ▸ hp)
    · exact absurd hpa hp
  · exact h

/-- Every offer of release `r` for the module is refused. -/
def Op.Refuses (env : Env) (id r : String) : Op → Prop
  | .applyOffers offers _ =>
    ∀ offer ∈ offers, offer.releaseID = r → ∀ manifest, Accepted env offer manifest → manifest.id ≠ id
  | .recordFailure _ _ => True

theorem without_step {r : String} (hop : op.Refuses env id r) (h : Without r (s id)) :
    Without r (step env s op id) := by
  apply step_entry
  · intro ofs now he _ offer ho mf cur ha hi _ hc md hm
    subst he
    obtain rfl := some.inj hm
    refine ⟨fun hr => hop offer ho hr mf ha hi, fun hp => ?_⟩
    cases cur with
    | none => exact absurd rfl hp
    | some c => exact (hc c rfl).1
  · intro _ md hm md' hm'
    obtain rfl := some.inj hm'
    exact hm md rfl
  · intro msg _ md hm md' hm'
    obtain rfl := some.inj hm'
    have hb := hm md rfl
    rcases failedModule_releases md msg with ⟨hr, hr', hpa, -⟩ | ⟨hr, hpa, hro⟩
    · rw [hr, hr', hpa]
      exact hb
    · rw [hr, hpa]
      exact ⟨hb.2 hro.2.1, fun hp => absurd rfl hp⟩
  · exact h

theorem rolledBack_stays (hs : Distinct (s id)) {before : List Op} {module : InstalledModule}
    (hmodule : run (step env) s before id = some module) (hrolls : module.RollsBack) (message : String)
    {after : List Op} (hafter : ∀ op ∈ after, op.Refuses env id module.releaseID) :
    ∀ module', run (step env) s (before ++ .recordFailure id message :: after) id = some module' →
      module'.releaseID ≠ module.releaseID := by
  have hd : Distinct (run (step env) s before id) :=
    run_invariant (I := fun s : State => Distinct (s id)) (fun _ _ => distinct_step) hs before
  have hro : Without module.releaseID (step env (run (step env) s before) (.recordFailure id message) id) := by
    intro module' hm'
    rw [step, recordModuleFailure, hmodule] at hm'
    dsimp only at hm'
    rw [update_self] at hm'
    obtain rfl := some.inj hm'
    rcases failedModule_releases module message with ⟨-, -, -, hst⟩ | ⟨hr, hpa, -⟩
    · exact absurd hrolls hst
    · rw [hr]
      exact ⟨hd module hmodule hrolls.2.1, fun hp => absurd hpa hp⟩
  rw [run_append, run_cons]
  intro module' hm'
  refine ((?_ : Without module.releaseID _) module' hm').1
  refine run_invariant_mem (I := fun s : State => Without module.releaseID (s id)) ?_ hro
  intro s op ho h
  exact without_step (hafter op ho) h

theorem install_accepted {offer : Offer} {mf : Manifest} (ha : Accepted env offer mf) (s : State) (now : Int) :
    ∃ s', installModuleOffer env s offer now = (s', .ok ()) ∧
      (s' mf.id).map (·.releaseID) = some offer.releaseID := by
  obtain ⟨package, hv, hc, hd, hn⟩ := ha
  have hdecl : ¬ (mf.kind = .declarative ∧ env.validateDeclarativePackage package mf = false) := by
    rintro ⟨hk, hf⟩
    simp [hd hk] at hf
  have hnat : ¬ (mf.kind = .native ∧ env.installNativeEntrypoint package mf = false) := by
    rintro ⟨hk, hf⟩
    simp [hn hk] at hf
  simp only [installModuleOffer, installRelease, hv, hc, if_neg hdecl, if_neg hnat, Bool.true_eq_false, if_false]
  by_cases hr : (s mf.id).any (fun cur => cur.releaseID = offer.releaseID) = true
  · rw [if_pos hr]
    refine ⟨s, rfl, ?_⟩
    obtain ⟨cur, hcur, he⟩ := (any_eq_true _ _).mp hr
    rw [hcur, map_some, of_decide_eq_true he]
  · rw [if_neg hr]
    refine ⟨_, rfl, ?_⟩
    rw [update_self]
    rfl

theorem installOffers_append {now : Int} {pre : List Offer} {s' : State}
    (hp : installOffers env now s pre = (s', .ok ())) (post : List Offer) :
    installOffers env now s (pre ++ post) = installOffers env now s' post := by
  induction pre generalizing s with
  | nil =>
    cases hp
    rfl
  | cons offer pre ih =>
    rw [installOffers] at hp
    rw [List.cons_append, installOffers]
    split at hp
    · cases hp
    · exact ih hp

/-- An accepted offer that the loop reaches installs its release, which stays if
no offer behind it is accepted for the module. -/
theorem installed_of_reached {pre post : List Offer} {offer : Offer} {mf : Manifest} {now : Int} {s' : State}
    (ho : isDisable (pre ++ offer :: post) = false) (hp : installOffers env now s pre = (s', .ok ()))
    (ha : Accepted env offer mf) (hpost : ∀ offer' ∈ post, ∀ mf', Accepted env offer' mf' → mf'.id ≠ mf.id) :
    (step env s (.applyOffers (pre ++ offer :: post) now) mf.id).map (·.releaseID) = some offer.releaseID := by
  obtain ⟨s'', hi, hr⟩ := install_accepted ha s' now
  have hin : (applyModuleOffers env s (pre ++ offer :: post) now).1 = (installOffers env now s'' post).1 := by
    unfold applyModuleOffers
    rw [ho, if_neg Bool.false_ne_true, installOffers_append hp, installOffers, hi]
  rw [step, hin]
  apply installOffers_entry (P := fun entry => entry.map (·.releaseID) = some offer.releaseID)
  · intro offer' ho' mf' _ ha' hid
    exact absurd hid (hpost offer' ho' mf' ha')
  · exact hr

end

/-- **Rollback.** A failure that rolls a module back from release `r` takes `r`
away, and `r` is not installed again by any operations that follow, as long as
every offer of it for the module is refused. A call that reaches an accepted offer
of `r`, the last accepted one of the module, installs it again. The start is any
state in which the module remembers another release than its own, as the first one
does. -/
theorem rolledBack_unless_offered (env : Env) (id : String) (s : State) (hs : Distinct (s id)) (before : List Op)
    (module : InstalledModule) (hmodule : run (step env) s before id = some module) (hrolls : module.RollsBack)
    (message : String) (after : List Op) :
    ((∀ op ∈ after, op.Refuses env id module.releaseID) →
      ∀ module', run (step env) s (before ++ .recordFailure id message :: after) id = some module' →
        module'.releaseID ≠ module.releaseID) ∧
    (∀ pre offer post manifest now s', isDisable (pre ++ offer :: post) = false →
      installOffers env now (run (step env) s (before ++ .recordFailure id message :: after)) pre = (s', .ok ()) →
      offer.releaseID = module.releaseID → Accepted env offer manifest → manifest.id = id →
      (∀ offer' ∈ post, ∀ manifest', Accepted env offer' manifest' → manifest'.id ≠ id) →
      (run (step env) s (before ++ .recordFailure id message :: (after ++
          [.applyOffers (pre ++ offer :: post) now])) id).map (·.releaseID) = some module.releaseID) := by
  constructor
  · intro hafter
    exact rolledBack_stays hs hmodule hrolls message hafter
  · rintro pre offer post manifest now s' ho hpre hr ha rfl hpost
    have hrun : ∀ op, run (step env) s (before ++ .recordFailure manifest.id message :: (after ++ [op])) =
        step env (run (step env) s (before ++ .recordFailure manifest.id message :: after)) op := by
      intro op
      rw [← List.cons_append, ← List.append_assoc, run_append]
      rfl
    rw [hrun, ← hr]
    exact installed_of_reached ho hpre ha hpost

def rollbackHistory : List Op :=
  [.applyOffers [firstOffer] 0, .applyOffers [secondOffer] 1, .recordFailure "probe" "exit 1",
    .recordFailure "probe" "exit 1"]

/-- The entry after that history. -/
def failingModule : InstalledModule where
  releaseID := "r2"
  manifest := ⟨"probe", "1.0.0", .declarative⟩
  healthy := true
  crashCount := 2
  error := "exit 1"
  installedAt := 1
  previousPath := some ⟨"probe", "1.0.0"⟩
  previousReleaseID := "r1"
  previousManifest := some ⟨"probe", "1.0.0", .declarative⟩

theorem rolledBack_unless_offered_small :
    run (step smallEnv) (fun _ => none) rollbackHistory "probe" = some failingModule ∧
      (∀ module', run (step smallEnv) (fun _ => none) (rollbackHistory ++ [.recordFailure "probe" "exit 1",
        .applyOffers [firstOffer] 2, .recordFailure "probe" "exit 1"]) "probe" = some module' →
          module'.releaseID ≠ "r2") ∧
      (run (step smallEnv) (fun _ => none) (rollbackHistory ++ [.recordFailure "probe" "exit 1",
        .applyOffers [firstOffer] 2, .recordFailure "probe" "exit 1", .applyOffers [firstOffer, secondOffer] 3])
          "probe").map (·.releaseID) = some "r2" :=
  have hmodule : run (step smallEnv) (fun _ => none) rollbackHistory "probe" = some failingModule := by decide
  have hrolled := rolledBack_unless_offered smallEnv "probe" (fun _ => none) (fun _ h => absurd h (by simp))
    rollbackHistory failingModule hmodule ⟨by decide, by decide, by decide⟩ "exit 1"
    [.applyOffers [firstOffer] 2, .recordFailure "probe" "exit 1"]
  ⟨hmodule, hrolled.1 (by simp [Op.Refuses, firstOffer, failingModule]),
    hrolled.2 [firstOffer] secondOffer [] _ 3 _ rfl rfl rfl (accepted_small secondOffer) rfl (by simp)⟩

/-- The release that was rolled back is installed by the next check-in that
offers it. -/
theorem rolledBack_installed_again :
    (run (step smallEnv) (fun _ => none) (rollbackHistory ++ [.recordFailure "probe" "exit 1"]) "probe").map
        (fun module => (module.releaseID, module.error)) = some ("r1", "rolled back after repeated failures") ∧
      (run (step smallEnv) (fun _ => none) (rollbackHistory ++ [.recordFailure "probe" "exit 1",
        .applyOffers [secondOffer] 2]) "probe").map (·.releaseID) = some "r2" := by
  decide

/-! ## Only checked releases -/

/-- One of the calls offered this release of the module, and it passed the checks. -/
def Checked (env : Env) (ops : List Op) (id releaseID : String) (manifest : Manifest) : Prop :=
  manifest.id = id ∧ ∃ offers now, .applyOffers offers now ∈ ops ∧
    ∃ offer ∈ offers, offer.releaseID = releaseID ∧ Accepted env offer manifest

/-- What is installed and what a rollback goes back to passed the checks. -/
def AllChecked (env : Env) (ops : List Op) (id : String) (entry : Option InstalledModule) : Prop :=
  ∀ module, entry = some module → Checked env ops id module.releaseID module.manifest ∧
    ∀ manifest, module.previousManifest = some manifest → Checked env ops id module.previousReleaseID manifest

theorem allChecked_failed {env : Env} {ops : List Op} {id : String} {md : InstalledModule}
    (h : AllChecked env ops id (some md)) (msg : String) : AllChecked env ops id (some (failedModule md msg)) := by
  intro md' hm
  obtain rfl := some.inj hm
  obtain ⟨hc, hp⟩ := h md rfl
  unfold failedModule
  dsimp only
  split
  · rename_i mf _ hpm
    split
    · exact ⟨hc, hp⟩
    · exact ⟨hp mf hpm, by simp⟩
  · exact ⟨hc, hp⟩

/-- **Only checked releases.** After any offers and failures, every installed
release, and every release kept for a rollback, was offered and passed the checks
as one of this module. -/
theorem installed_checked (env : Env) (ops : List Op) (id : String) :
    AllChecked env ops id (run (step env) (fun _ => none) ops id) := by
  refine run_invariant_mem (I := fun s : State => AllChecked env ops id (s id)) (fun s op ho h => ?_)
    (by simp [AllChecked])
  apply step_entry
  · rintro ofs now rfl _ offer hof mf cur ha hid _ h md hm
    obtain rfl := some.inj hm
    refine ⟨⟨hid, ofs, now, ho, offer, hof, rfl, ha⟩, fun prev hp => ?_⟩
    obtain ⟨c, rfl, rfl⟩ := map_eq_some_iff.mp hp
    exact (h c rfl).1
  · intro _ md h md' hm
    obtain rfl := some.inj hm
    exact h md rfl
  · exact fun msg _ md h => allChecked_failed h msg
  · exact h

end Mossward.L4.AgentModules
