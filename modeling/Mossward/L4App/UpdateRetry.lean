import Mossward.L4App.AgentUpdate

/-!
# Updates after a failed one (`internal/agentapp/update.go`)

An agent of one version is offered updates again and again. An attempt ends
with an error at some step, is cut off, or installs a version that `Recover`
takes back. The files that an attempt leaves under a name stay:
`PreserveKnownGood` refuses to run if a copy of the running version is there
already, and nothing removes it.

An offer is valid (`ValidOffer`) if its envelope opens to a manifest for this
platform and a newer version that is in force at both checks, the download gives
the artifact of the manifest, and the times can be written in JSON.

Results: `update_possible_until_preserved`, `preserved_blocks`.
-/
namespace Mossward.L4.UpdateRetry

open Run List
open Table (bind_eq_ok require_eq_ok)
open L4.AgentUpdate

/-! ## Attempts -/

/-- A call that is cut off after some of its actions, or not at all. -/
inductive Attempt
  | offer (offer : Offer) (n : Nat)
  | recover (now : Int) (n : Nat)

def step (env : Env) (d : Disk) : Attempt → Disk
  | .offer offer n => (applyUpdateOffer env offer).cut d n
  | .recover now n => (recover env now).cut d n

/-- The copy of the running version. -/
def knownGoodFile (env : Env) : File := .state ("known-good-" ++ env.version)

structure ValidOffer (env : Env) (offer : Offer) (m : Manifest) (answer : Response) : Prop where
  enabled : env.updateEnabled = true
  envelope : offer.envelope ≠ []
  opens : env.openEnvelope offer.envelope = some m
  verified : m.validate env offer.verifiedAt = .ok ()
  staged : m.validate env offer.stagedAt = .ok ()
  platform : m.operatingSystem = env.operatingSystem ∧ m.architecture = env.architecture
  newer : isUpgrade env.version m.version = true
  response : offer.response = some answer
  status : answer.statusCode = 200
  length : answer.contentLength < 0 ∨ answer.contentLength = m.artifactSize
  whole : answer.broken = false
  size : (answer.body.length : Int) = m.artifactSize
  digest : env.sha256 answer.body = (hexDecode m.artifactSHA256.toList).1
  writable : ∀ t, t.startedAt = offer.startedAt →
    t.healthDeadline ≤ offer.startedAt + maximumHealthTimeout * nanosecondsPerSecond →
      ∃ data, env.marshal t = some data

/-! ## Names of versions -/

theorem noSlash_of_isVersion {s : String} (h : isVersion s = true) : '/' ∉ s.toList := by
  simp only [isVersion, Bool.and_eq_true] at h
  obtain ⟨⟨-, hco⟩, hr⟩ := h
  rw [← takeWhile_append_dropWhile (p := (· ≠ '-')) (l := s.toList), mem_append, not_or]
  constructor
  · intro hm
    rcases mem_splitOn (a := '.') hm with he | ⟨part, hp, hm⟩
    · cases he
    have hd := all_eq_true.mp hco part hp
    simp only [Bool.and_eq_true] at hd
    have hs := all_eq_true.mp hd.2 _ hm
    revert hs
    decide
  · intro hm
    split at hr
    · rename_i hn
      rw [hn] at hm
      cases hm
    rename_i c prerelease hc
    have hhy : c = '-' := by
      have hh := head?_dropWhile_not (fun c => decide (c ≠ '-')) s.toList
      rw [hc] at hh
      simpa using hh
    rw [hc] at hm
    simp only [Bool.and_eq_true] at hr
    rcases mem_cons.mp hm with he | hm
    · rw [hhy] at he
      cases he
    · have hs := all_eq_true.mp hr.2 _ hm
      revert hs
      decide

theorem isVersion_of_isUpgrade {cur tgt : String} (h : isUpgrade cur tgt = true) : isVersion cur = true := by
  unfold isUpgrade at h
  split at h
  · rename_i hc _
    unfold parseVersion at hc
    split at hc
    · rename_i hv
      exact hv
    · cases hc
  · cases h

theorem isBaseName_knownGood {ver : String} (h : isVersion ver = true) :
    isBaseName ("known-good-" ++ ver) = true := by
  have hs := noSlash_of_isVersion h
  simp [isBaseName, hs]

/-! ## The steps of an attempt -/

/-- An executable that can be preserved. -/
def Bounded (data : Bytes) : Prop := 1 ≤ (data.length : Int) ∧ (data.length : Int) ≤ maximumArtifactBytes

section
variable {env : Env} {d : Disk} {I : Disk → Prop} {E : UpdateError → Disk → Prop}

theorem preserve_runs {ver : String} {Q : KnownGood → Disk → Prop} (hI : ∀ d', AgreeExcept .knownGood d d' → I d')
    (hQ : ∀ data d', isVersion ver = true → d .executable = some data → Bounded data →
      d (.state ("known-good-" ++ ver)) = none →
      Renamed .knownGood (.state ("known-good-" ++ ver)) data d d' →
      I d' ∧ Q ⟨ver, hexEncode (env.sha256 data), data.length, "known-good-" ++ ver⟩ d')
    (hE : ∀ e, (isVersion ver = true → (∃ data, d .executable = some data ∧ Bounded data) →
      e = .knownGoodExists ∧ d (.state ("known-good-" ++ ver)) ≠ none) → E e d) :
    Runs perform I (preserveKnownGood env ver) d Q E := by
  have hs := hI d (AgreeExcept.refl _ d)
  unfold preserveKnownGood
  split
  · rename_i hv
    refine Runs.fail hs (hE _ fun h => ?_)
    rw [h] at hv
    cases hv
  rename_i hv
  refine Runs.bind (Runs.read hs ?_)
  cases he : d .executable with
  | none =>
    refine Runs.fail hs (hE _ fun _ h => ?_)
    obtain ⟨data, hd, -⟩ := h
    rw [he] at hd
    cases hd
  | some data =>
    dsimp only
    split
    · refine Runs.fail hs (hE _ fun _ h => ?_)
      obtain ⟨data', hd, hb⟩ := h
      obtain rfl : data = data' := Option.some.inj (he.symm.trans hd)
      unfold Bounded at hb
      omega
    refine Runs.bind (Runs.read hs ?_)
    cases hex : d (.state ("known-good-" ++ ver)) with
    | some old =>
      refine Runs.fail hs (hE _ fun _ _ => ⟨rfl, ?_⟩)
      rw [hex]
      simp
    | none =>
      refine Runs.bind (Runs.writeRename (by simp) hI fun d' hd' => ?_)
      have hb : Bounded data := by
        unfold Bounded
        omega
      obtain ⟨hk, hp⟩ := hQ data d' (by simpa using hv) he hb hex hd'
      exact ⟨hk, Runs.pure hk hp⟩

theorem writeCandidate_runs {ans : Response} {m : Manifest} {Q : File → Disk → Prop}
    (hI : ∀ d', AgreeExcept .update d d' → I d')
    (hQ : ∀ d', Renamed .update (candidateFile m.version) (ans.body.take (m.artifactSize + 1).toNat) d d' →
      I d' ∧ Q (candidateFile m.version) d')
    (hE : ∀ e d', AgreeExcept .update d d' →
      (ans.broken = false → ((ans.body.take (m.artifactSize + 1).toNat).length : Int) = m.artifactSize →
        env.sha256 (ans.body.take (m.artifactSize + 1).toNat) = (hexDecode m.artifactSHA256.toList).1 →
        d (candidateFile m.version) ≠ none) → E e d') :
    Runs perform I (writeCandidate env ans m) d Q E := by
  refine Runs.bind (Runs.write hI fun d1 hd1 hc => ?_)
  have hk := hI d1 hd1
  split
  · rename_i hb
    refine Runs.fail hk (hE _ _ hd1 fun hw => ?_)
    rw [hw] at hb
    simp at hb
  split
  · rename_i hsi
    exact Runs.fail hk (hE _ _ hd1 fun _ h => absurd h hsi)
  split
  · rename_i hd
    exact Runs.fail hk (hE _ _ hd1 fun _ _ h => absurd h hd)
  refine Runs.bind (Runs.read hk ?_)
  have hs : d1 (candidateFile m.version) = d (candidateFile m.version) := hd1 _ (by simp [candidateFile])
  cases he : d1 (candidateFile m.version) with
  | some old =>
    refine Runs.fail hk (hE _ _ hd1 fun _ _ _ => ?_)
    rw [← hs, he]
    simp
  | none =>
    refine Runs.bind (Runs.rename hc (by simp [candidateFile]) hk fun d2 hd2 => ?_)
    obtain ⟨hk2, hp⟩ := hQ d2 ⟨hd2.moved, fun f hf hf' => (hd2.others f hf hf').trans (hd1 f hf')⟩
    exact ⟨hk2, Runs.pure hk2 hp⟩

end

/-! ## What an attempt keeps -/

section
variable {env : Env} {d : Disk} {name : String} {data : Bytes}

/-- The file of the state directory stays while the script runs. -/
abbrev Keeps {α : Type} (name : String) (data : Bytes) (p : FileScript α) (d : Disk) : Prop :=
  Runs perform (fun d' => d' (.state name) = some data) p d (fun _ d' => d' (.state name) = some data)
    fun _ d' => d' (.state name) = some data

theorem save_keeps (hn : name ≠ transactionFileName) (h : d (.state name) = some data) (t : Transaction) :
    Keeps name data (saveTransaction env t) d := by
  refine Runs.save (fun d' hd' => (hd' _ (by simp)).trans h) (fun body d' _ _ hd' => ?_) fun _ _ => h
  have hs : d' (.state name) = some data := (hd'.others _ (by simp [hn]) (by simp)).trans h
  exact ⟨hs, hs⟩

theorem stage_keeps (h : d (.state name) = some data) (m : Manifest) (now : Int) (response : Option Response) :
    Keeps name data (stage env m now response) d := by
  unfold stage
  split
  · exact Runs.fail h h
  split
  · exact Runs.fail h h
  split
  · exact Runs.fail h h
  split
  · exact Runs.fail h h
  split
  · exact Runs.fail h h
  refine writeCandidate_runs (fun d' hd' => (hd' _ (by simp)).trans h) (fun d' hd' => ?_)
    fun e d' hd' _ => (hd' _ (by simp)).trans h
  have hs : d' (.state name) = some data := (hd'.others _ (by simp [candidateFile]) (by simp)).trans h
  exact ⟨hs, hs⟩

theorem replace_keeps {α : Type} (hn : name ≠ transactionFileName) (h : d (.state name) = some data)
    (kind : Temporary) (hk : kind ≠ .transaction) (cand : File) (size : Int) (dg : String) (t : Transaction)
    {rest : FileScript α} (hr : ∀ d', d' (.state name) = some data → Keeps name data rest d') :
    Keeps name data (do
      .act [.create kind]
      copyVerifiedCandidate env kind cand size dg
      saveTransaction env t
      .act [.rename kind .executable]
      rest) d := by
  have ha : ∀ {d1 d2 : Disk} {kind : Temporary}, d1 (.state name) = some data → AgreeExcept kind d1 d2 →
      d2 (.state name) = some data := fun hd1 hd2 => (hd2 _ (by simp)).trans hd1
  refine Runs.bind (Runs.create (fun d' hd' => ha h hd') fun d1 hd1 he => ?_)
  have h1 := ha h hd1
  refine Runs.bind (Runs.copy he (fun d' hd' => ha h1 hd') ?_ fun _ d' hd' _ => ha h1 hd')
  intro body d2 _ hd2 hc _ _
  have h2 := ha h1 hd2
  refine Runs.bind (Runs.save (fun d' hd' => ha h2 hd') (fun record d3 _ _ hd3 => ?_) fun _ _ => h2)
  have h3 : d3 (.state name) = some data := (hd3.others _ (by simp [hn]) (by simp)).trans h2
  have ht : d3 (.temporary kind) = some (body.take (size + 1).toNat) := by
    rw [hd3.others _ (by simp) (by simpa using hk)]
    exact hc
  refine ⟨h3, Runs.bind (Runs.rename ht (by simp) h3 fun d4 hd4 => ?_)⟩
  have h4 : d4 (.state name) = some data := (hd4.others _ (by simp) (by simp)).trans h3
  exact ⟨h4, hr d4 h4⟩

theorem activate_keeps (hn : name ≠ transactionFileName) (h : d (.state name) = some data) (cand : File)
    (t : Transaction) : Keeps name data (activate env cand t) d := by
  unfold activate
  split
  · exact Runs.fail h h
  refine Runs.bind (Runs.read h ?_)
  split
  · exact Runs.fail h h
  refine Runs.bind (Runs.read h ?_)
  split
  · exact Runs.fail h h
  · split
    · exact Runs.fail h h
    · exact replace_keeps hn h .activate (by simp) _ _ _ _ fun d' h' => Runs.pure h' h'

theorem recover_keeps (hn : name ≠ transactionFileName) (h : d (.state name) = some data) (now : Int) :
    Keeps name data (recover env now) d := by
  refine Runs.bind (Runs.load h (fun _ => Runs.pure h h) ?_ fun _ _ _ _ => h)
  intro _ t _ _
  dsimp only
  split
  · exact Runs.pure h h
  refine Runs.bind (Runs.read h ?_)
  split
  · exact Runs.fail h h
  · refine replace_keeps hn h .rollback (by simp) _ _ _ _ fun d' h' => ?_
    exact Runs.bind ((save_keeps hn h' _).imp (fun _ _ h'' => Runs.pure h'' h'') fun _ _ h'' => h'')

end

/-! ## Until the copy is in place -/

/-- Every file with a name is as it was. -/
def Unchanged (d d' : Disk) : Prop := ∀ f, (∀ kind, f ≠ .temporary kind) → d' f = d f

theorem Unchanged.of_agree {kind : Temporary} {d d' : Disk} (h : AgreeExcept kind d d') : Unchanged d d' :=
  fun f hf => h f (hf kind)

theorem Unchanged.refl (d : Disk) : Unchanged d d := fun _ _ => rfl

section
variable {env : Env} {d : Disk}

theorem version_ne (ver : String) : "known-good-" ++ ver ≠ transactionFileName := by
  intro h
  have hh := congrArg (fun s : String => s.toList.head?) h
  simp [transactionFileName] at hh

theorem offer_runs (env : Env) (d : Disk) (offer : Offer) :
    Runs perform (fun d' => Unchanged d d' ∨ d' (knownGoodFile env) ≠ none) (applyUpdateOffer env offer) d
      (fun _ _ => True) fun _ _ => True := by
  have hs : Unchanged d d ∨ d (knownGoodFile env) ≠ none := .inl (Unchanged.refl d)
  unfold applyUpdateOffer
  split
  · exact Runs.pure hs trivial
  split
  · exact Runs.fail hs trivial
  split
  · exact Runs.fail hs trivial
  split
  · exact Runs.fail hs trivial
  split
  · exact Runs.pure hs trivial
  refine Runs.bind (preserve_runs (fun d' hd' => .inl (Unchanged.of_agree hd')) ?_ fun _ _ => trivial)
  intro data d1 _ _ _ _ hd1
  have hc : ∀ {α : Type} {p : FileScript α} {d' : Disk} {Q : α → Disk → Prop},
      Runs perform (fun d' => d' (knownGoodFile env) = some data) p d' Q (fun _ _ => True) →
      Runs perform (fun d' => Unchanged d d' ∨ d' (knownGoodFile env) ≠ none) p d' Q fun _ _ => True :=
    fun h => h.weaken fun d' hd' => .inr (by rw [hd']; simp)
  refine ⟨.inr (by rw [knownGoodFile, hd1.moved]; simp), hc (Runs.bind ?_)⟩
  refine (stage_keeps hd1.moved _ _ _).imp (fun cand d2 h2 => ?_) fun _ _ _ => trivial
  split
  · exact Runs.fail h2 trivial
  · refine Runs.bind ((save_keeps (version_ne _) h2 _).imp (fun _ d3 h3 => ?_) fun _ _ _ => trivial)
    exact (activate_keeps (version_ne _) h3 _ _).imp (fun _ _ _ => trivial) fun _ _ _ => trivial

/-- A record that `Recover` does not act on. -/
def Settled (env : Env) (d : Disk) : Prop :=
  ∀ data t, d (.state transactionFileName) = some data → decodeTransaction env data = .ok t →
    t.state ≠ .awaitingHealth ∧ t.state ≠ .rollback

theorem recover_unchanged (hse : Settled env d) (now : Int) :
    Runs perform (Unchanged d) (recover env now) d (fun _ _ => True) fun _ _ => True := by
  have hs := Unchanged.refl d
  refine Runs.bind (Runs.load hs (fun _ => Runs.pure hs trivial) ?_ fun _ _ _ _ => trivial)
  intro data t hre hd
  obtain ⟨ha, hr⟩ := hse data t hre hd
  dsimp only
  rw [if_pos (by simp [Transaction.requiresRollback, ha, hr])]
  exact Runs.pure hs trivial

theorem Unchanged.settled {d d' : Disk} (h : Unchanged d d') (hs : Settled env d) : Settled env d' := by
  intro data t hr hd
  rw [h _ (by simp)] at hr
  exact hs data t hr hd

/-- The copy of the running version was not put in place by this attempt. -/
def NotPreserved (env : Env) (d : Disk) (attempt : Attempt) : Prop := step env d attempt (knownGoodFile env) = none

theorem unchanged_run {d0 : Disk} (hs : Settled env d0) {ops : List Attempt}
    (hn : Along (step env) (NotPreserved env) d0 ops) : Unchanged d0 (run (step env) d0 ops) := by
  refine run_invariant_along (I := Unchanged d0) (fun d op h ho => ?_) (Unchanged.refl d0) hn
  have hst : Unchanged d (step env d op) := by
    cases op with
    | offer offer n => exact ((offer_runs env _ offer).during n).resolve_right fun h => h ho
    | recover now n => exact (recover_unchanged (h.settled hs) now).during n
  exact fun f hf => (hst f hf).trans (h f hf)

/-! ## A valid offer -/

structure ManifestFacts (m : Manifest) : Prop where
  version : isVersion m.version = true
  digest : isDigest m.artifactSHA256 = true
  size : 1 ≤ m.artifactSize ∧ m.artifactSize ≤ maximumArtifactBytes
  timeout : minimumHealthTimeout ≤ m.healthTimeoutSeconds ∧ m.healthTimeoutSeconds ≤ maximumHealthTimeout

theorem manifestFacts {m : Manifest} {now : Int} (h : m.validate env now = .ok ()) : ManifestFacts m := by
  obtain ⟨_, hs, h⟩ := bind_eq_ok.mp h
  obtain ⟨_, -, h⟩ := bind_eq_ok.mp h
  obtain ⟨_, -, h⟩ := bind_eq_ok.mp h
  obtain ⟨_, hd, h⟩ := bind_eq_ok.mp h
  obtain ⟨_, hsi, h⟩ := bind_eq_ok.mp h
  obtain ⟨_, -, ht⟩ := bind_eq_ok.mp h
  rw [require_eq_ok, Bool.and_eq_true] at hs hsi ht
  rw [require_eq_ok] at hd
  exact ⟨hs.2, hd, by simpa using hsi, by simpa using ht⟩

/-- The transaction of an offer. -/
def transactionOf (previous : KnownGood) (m : Manifest) (now : Int) : Transaction :=
  ⟨transactionSchemaVersion, .prepared, previous, m.version, m.artifactSHA256, m.artifactSize, now,
    now + m.healthTimeoutSeconds * nanosecondsPerSecond⟩

theorem transaction_valid {ver : String} {m : Manifest} (hv : isVersion ver = true) (hm : ManifestFacts m)
    {data : Bytes} (hda : Bounded data) (now : Int) {s : TransactionState} (hs : s.valid = true) :
    { transactionOf ⟨ver, hexEncode (env.sha256 data), data.length, "known-good-" ++ ver⟩ m now with
      state := s }.validate = true := by
  have hdi : isDigest (hexEncode (env.sha256 data)) = true := by
    simp [isDigest, hexDecode_hexEncode, env.sha256_length]
  have ht := hm.timeout
  simp only [minimumHealthTimeout, maximumHealthTimeout] at ht
  have hd : now < now + m.healthTimeoutSeconds * nanosecondsPerSecond ∧
      m.healthTimeoutSeconds * nanosecondsPerSecond ≤ maximumHealthTimeout * nanosecondsPerSecond := by
    simp only [nanosecondsPerSecond, maximumHealthTimeout]
    omega
  simp [Transaction.validate, transactionOf, hs, hv, hm.version, isBaseName_knownGood hv, hdi, hm.digest,
    hda.1, hda.2, hm.size.1, hm.size.2, hd.1, hd.2]

/-- What an activated offer leaves. -/
structure Activated (env : Env) (m : Manifest) (answer : Response) (d : Disk) : Prop where
  executable : d .executable = some answer.body
  record : ∃ t data, d (.state transactionFileName) = some data ∧ env.marshal t = some data ∧
    t.state = .awaitingHealth ∧ t.targetVersion = m.version

variable {offer : Offer} {m : Manifest} {ans : Response}

theorem applyUpdateOffer_valid (h : ValidOffer env offer m ans) :
    applyUpdateOffer env offer = applyManifest env m offer := by
  unfold applyUpdateOffer
  rw [if_neg (by simp [h.envelope, h.enabled]), h.opens]
  dsimp only
  rw [h.verified]
  rw [if_neg (by simp [h.platform.1, h.platform.2]), if_neg (by simp [h.newer])]

theorem accepted_runs (h : ValidOffer env offer m ans)
    {exe : Bytes} (hex : d .executable = some exe) (hb : Bounded exe)
    (hp : d (knownGoodFile env) = none) (hst : d (candidateFile m.version) = none) :
    Runs perform (fun _ => True) (applyUpdateOffer env offer) d
      (fun o d' => o = .restartRequired ∧ Activated env m ans d') fun _ _ => False := by
  have hm := manifestFacts h.verified
  have hv := isVersion_of_isUpgrade h.newer
  have hbo : ans.body.take (m.artifactSize + 1).toNat = ans.body :=
    take_of_length_le (by have := h.size; omega)
  rw [applyUpdateOffer_valid h]
  -- the copy of the running executable
  refine Runs.bind (preserve_runs (fun _ _ => trivial) ?_ fun e he => ?_)
  case refine_2 => exact absurd hp (he hv ⟨exe, hex, hb⟩).2
  intro data d1 _ hd _ _ hd1
  obtain rfl : exe = data := Option.some.inj (hex.symm.trans hd)
  refine ⟨trivial, Runs.bind ?_⟩
  -- the download
  unfold stage
  rw [h.staged]
  rw [if_neg (by simp [h.platform.1, h.platform.2]), h.response]
  dsimp only
  have hl := h.length
  rw [if_neg (by simp [h.status]), if_neg (by omega)]
  refine writeCandidate_runs (fun _ _ => trivial) ?_ fun e d' _ he => ?_
  case refine_2 =>
    refine absurd ?_ (he h.whole (by rw [hbo]; exact h.size) (by rw [hbo]; exact h.digest))
    rw [hd1.others _ (by simp [candidateFile]) (by simp [candidateFile])]
    exact hst
  intro d2 hd2
  rw [hbo] at hd2
  refine ⟨trivial, ?_⟩
  -- the transaction
  set prev : KnownGood := ⟨env.version, hexEncode (env.sha256 exe), exe.length, "known-good-" ++ env.version⟩
  have hva : ∀ {s : TransactionState}, s.valid = true →
      { transactionOf prev m offer.startedAt with state := s }.validate = true :=
    fun hs => transaction_valid hv hm hb offer.startedAt hs
  have hw : ∀ s : TransactionState, ∃ data,
      env.marshal { transactionOf prev m offer.startedAt with state := s } = some data := by
    intro s
    have hti := hm.timeout.2
    simp only [maximumHealthTimeout] at hti
    refine h.writable _ rfl ?_
    simp only [transactionOf, nanosecondsPerSecond, maximumHealthTimeout]
    omega
  have hn : ∀ s : TransactionState, s.valid = true → ∀ e : UpdateError,
      { transactionOf prev m offer.startedAt with state := s }.validate = false ∨
        env.marshal { transactionOf prev m offer.startedAt with state := s } = none → False := by
    intro s hs e her
    rcases her with her | her
    · rw [hva hs] at her
      cases her
    · obtain ⟨data, hd⟩ := hw s
      rw [hd] at her
      cases her
  have hne : newTransaction prev m offer.startedAt = .ok (transactionOf prev m offer.startedAt) :=
    if_pos (hva (s := .prepared) rfl)
  rw [hne]
  refine Runs.bind (Runs.save (fun _ _ => trivial) ?_ (hn .prepared rfl))
  intro _ d3 _ _ hd3
  refine ⟨trivial, ?_⟩
  have hi : d3 .executable = some exe := by
    rw [hd3.others _ (by simp) (by simp), hd2.others _ (by simp [candidateFile]) (by simp),
      hd1.others _ (by simp) (by simp)]
    exact hex
  have hc : d3 (candidateFile m.version) = some ans.body := by
    rw [hd3.others _ (by simp [candidateFile]) (by simp [candidateFile])]
    exact hd2.moved
  -- the new executable
  refine Runs.bind (Runs.read trivial ?_)
  rw [hi]
  refine Runs.bind (Runs.read trivial ?_)
  rw [hc]
  dsimp only
  rw [if_neg (by simp [transactionOf, h.size])]
  refine Runs.bind (Runs.create (fun _ _ => trivial) fun d4 hd4 hem => ?_)
  have hc4 : d4 (candidateFile m.version) = some ans.body := (hd4 _ (by simp [candidateFile])).trans hc
  refine Runs.bind (Runs.copyWhole hc4 hem h.size h.digest (fun _ _ => trivial) fun d5 hd5 hco => ?_)
  refine Runs.bind (Runs.save (fun _ _ => trivial) ?_ (hn .awaitingHealth rfl))
  intro data6 d6 _ hd6 hd₆
  have ht : d6 (.temporary .activate) = some ans.body := (hd₆.others _ (by simp) (by simp)).trans hco
  refine ⟨trivial, Runs.bind (Runs.rename ht (by simp) trivial fun d7 hd7 => ⟨trivial, ?_⟩)⟩
  refine Runs.pure trivial ⟨rfl, hd7.moved, _, data6, ?_, hd6, rfl, rfl⟩
  rw [hd7.others _ (by simp) (by simp)]
  exact hd₆.moved

/-! ## Histories -/

/-- **An update stays possible** as long as no attempt got so far as to put the
copy of the executable in place: after every such history of attempts, cut off
anywhere, a valid offer is activated. At the start there is no copy of the
running version, no candidate of the offered one, and no update under way. -/
theorem update_possible_until_preserved (env : Env) (offer : Offer) (m : Manifest) (answer : Response)
    (hoffer : ValidOffer env offer m answer) (d₀ : Disk) (executable : Bytes)
    (hexecutable : d₀ .executable = some executable) (hbounded : Bounded executable)
    (hpreserved : d₀ (knownGoodFile env) = none) (hstaged : d₀ (candidateFile m.version) = none)
    (hsettled : Settled env d₀) (ops : List Attempt) (hnone : Along (step env) (NotPreserved env) d₀ ops) :
    (applyUpdateOffer env offer).result (run (step env) d₀ ops) = .ok .restartRequired ∧
      Activated env m answer ((applyUpdateOffer env offer).final (run (step env) d₀ ops)) := by
  have hu := unchanged_run hsettled hnone
  have hru := accepted_runs hoffer ((hu _ (by simp)).trans hexecutable) hbounded
    ((hu _ (by simp [knownGoodFile])).trans hpreserved)
    ((hu _ (by simp [candidateFile])).trans hstaged)
  have he := hru.ends
  cases hr : (applyUpdateOffer env offer).result (run (step env) d₀ ops) with
  | error e =>
    rw [hr] at he
    exact he.elim
  | ok o =>
    rw [hr] at he
    obtain ⟨rfl, ha⟩ := he
    exact ⟨rfl, ha⟩

theorem copy_stays (h : d (knownGoodFile env) ≠ none) (op : Attempt) :
    step env d op (knownGoodFile env) ≠ none := by
  obtain ⟨copy, hc⟩ := Option.ne_none_iff_exists'.mp h
  cases op with
  | offer offer n =>
    rcases (offer_runs env d offer).during n with hu | hk
    · exact ne_of_eq_of_ne (hu _ (by simp [knownGoodFile])) h
    · exact hk
  | recover now n => exact ne_of_eq_of_ne ((recover_keeps (version_ne env.version) hc now).during n) (by simp)

/-- **A copy in place blocks every update.** Nothing removes it, and every
valid offer then fails on it. -/
theorem preserved_blocks (hc : d (knownGoodFile env) ≠ none) (ops : List Attempt) {exe : Bytes}
    (hex : run (step env) d ops .executable = some exe) (hb : Bounded exe) (ho : ValidOffer env offer m ans) :
    (applyUpdateOffer env offer).result (run (step env) d ops) = .error .knownGoodExists := by
  have hc' := run_invariant (I := fun d : Disk => d (knownGoodFile env) ≠ none) (fun _ op h => copy_stays h op) hc ops
  rw [applyUpdateOffer_valid ho]
  have hru : Runs perform (fun _ => True) (applyManifest env m offer) (run (step env) d ops) (fun _ _ => False)
      fun e _ => e = .knownGoodExists :=
    Runs.bind (preserve_runs (fun _ _ => trivial) (fun _ _ _ _ _ hm _ => absurd hm hc')
      fun e he => (he (isVersion_of_isUpgrade ho.newer) ⟨exe, hex, hb⟩).1)
  have hen := hru.ends
  cases hr : (applyManifest env m offer).result (run (step env) d ops) with
  | error e =>
    rw [hr] at hen
    rw [show e = .knownGoodExists from hen]
  | ok o =>
    rw [hr] at hen
    exact hen.elim

end

/-! ### A small agent -/

def smallManifest : Manifest where
  schemaVersion := manifestSchemaVersion
  version := "1.1.0"
  operatingSystem := "linux"
  architecture := "amd64"
  artifactURL := ""
  artifactSHA256 := hexEncode (smallDigest [2, 3])
  artifactSize := 2
  issuedAt := 0
  expiresAt := 10
  healthTimeoutSeconds := 60

/-- The agent of version 1.0.0. Records are written as an empty file. -/
def smallAgent : Env where
  sha256 := smallDigest
  sha256_length := length_smallDigest
  marshal _ := some []
  unmarshal _ := none
  openEnvelope _ := some smallManifest
  validURL _ := true
  operatingSystem := "linux"
  architecture := "amd64"
  version := "1.0.0"
  updateEnabled := true

def smallAnswer : Response := ⟨200, 2, [2, 3], false⟩

/-- The offer of version 1.1.0 with this answer to the download. -/
def smallOffer (response : Option Response) : Offer := ⟨[1], response, 1, 1, 1⟩

def smallDisk : Disk := fun f => if f = .executable then some [1] else none

theorem validOffer_small : ValidOffer smallAgent (smallOffer (some smallAnswer)) smallManifest smallAnswer where
  enabled := rfl
  envelope := by decide
  opens := rfl
  verified := by decide +kernel
  staged := by decide +kernel
  platform := ⟨rfl, rfl⟩
  newer := by decide +kernel
  response := rfl
  status := rfl
  length := .inr rfl
  whole := rfl
  size := rfl
  digest := by decide +kernel
  writable _ _ _ := ⟨[], rfl⟩

/-- The first attempt is cut off while it writes the copy. -/
theorem update_possible_until_preserved_small :
    (applyUpdateOffer smallAgent (smallOffer (some smallAnswer))).result
        (run (step smallAgent) smallDisk [.offer (smallOffer (some smallAnswer)) 1]) = .ok .restartRequired := by
  refine (update_possible_until_preserved smallAgent _ _ _ validOffer_small smallDisk [1] (by decide)
    ⟨by decide, by decide⟩
    (by decide +kernel) (by decide +kernel) ?_ _ ?_).1
  · intro data t hr
    cases hr
  · refine ⟨?_, trivial⟩
    show step smallAgent smallDisk _ (knownGoodFile smallAgent) = none
    decide +kernel

/-- One failed download, and the valid offer that follows fails. -/
theorem failed_download_blocks :
    (applyUpdateOffer smallAgent (smallOffer none)).result smallDisk = .error .download ∧
      ValidOffer smallAgent (smallOffer (some smallAnswer)) smallManifest smallAnswer ∧
      (applyUpdateOffer smallAgent (smallOffer (some smallAnswer))).result
        (run (step smallAgent) smallDisk [.offer (smallOffer none) 100]) = .error .knownGoodExists :=
  ⟨by decide +kernel, validOffer_small, by decide +kernel⟩

end Mossward.L4.UpdateRetry
